/-! Decimal numerals as binary floating point numbers with 53 bits. -/
namespace SharedState

structure Decimal where
  mantissa : Int
  exponent : Int
  deriving DecidableEq, Repr

/-- What a number looks like to a reader of integers. -/
inductive NumberShape where
  | whole (n : Int)
  | fractional
  | infinite
  deriving DecidableEq, Repr

namespace Decimal

/-- The quotient rounded to the nearest integer, a half to the even one. -/
def roundDiv (a b : Nat) : Nat :=
  let q := a / b
  let r := a % b
  if 2 * r < b then q else if 2 * r > b then q + 1 else if q % 2 = 0 then q else q + 1

/-- The shape of `a / b` rounded to 53 bits. `a` and `b` are positive. -/
def shapeOfRatio (a b : Nat) : NumberShape :=
  -- the power of two that leaves 53 bits before the point, give or take one
  let k : Int := (Nat.log2 a : Int) - Nat.log2 b - 52
  let scaled (k : Int) : Nat :=
    if k ≥ 0 then roundDiv a (b * Nat.pow 2 k.toNat) else roundDiv (a * Nat.pow 2 (-k).toNat) b
  let low : Nat := if k ≥ 0 then a / (b * Nat.pow 2 k.toNat) else a * Nat.pow 2 (-k).toNat / b
  let k := if low < Nat.pow 2 52 then k - 1 else k
  let k := max k (-1074)
  let q := scaled k
  if k ≥ 0 then
    let n := q * Nat.pow 2 k.toNat
    if n ≥ Nat.pow 2 1024 then .infinite else .whole n
  else
    let unit := Nat.pow 2 (-k).toNat
    if q % unit = 0 then .whole (q / unit : Nat) else .fractional

def shape (d : Decimal) : NumberShape :=
  if d.mantissa = 0 then .whole 0
  else
    let m := d.mantissa.natAbs
    let digits : Int := (toString m).length
    if digits + d.exponent > 400 then .infinite
    else if digits + d.exponent < -400 then .whole 0
    else
      let magnitude := if d.exponent ≥ 0 then shapeOfRatio (m * Nat.pow 10 d.exponent.toNat) 1
        else shapeOfRatio m (Nat.pow 10 (-d.exponent).toNat)
      match magnitude with
      | .whole n => .whole (if d.mantissa < 0 then -n else n)
      | other => other

end Decimal
end SharedState
