import SharedState.Text.Identifier

/-! The extent of a numeral at the head of a text. -/
namespace SharedState.Source

open SharedState.Text

/-- Splits a text into what is taken from its head and the rest; `none` if the head is malformed. -/
abbrev Scan := List Char → Option (List Char × List Char)

namespace Scan

def andThen (a b : Scan) : Scan := fun cs =>
  match a cs with
  | none => none
  | some (first, rest) =>
    match b rest with
    | none => none
    | some (second, rest) => some (first ++ second, rest)

end Scan

def moreDigits (isDigit : Char → Bool) : Scan
  | [] => some ([], [])
  | ['_'] => none
  | '_' :: c :: rest =>
    if isDigit c then (moreDigits isDigit rest).map fun (t, r) => ('_' :: c :: t, r) else none
  | c :: rest =>
    if isDigit c then (moreDigits isDigit rest).map fun (t, r) => (c :: t, r) else some ([], c :: rest)

def moreZeros : Scan
  | '0' :: rest => (moreZeros rest).map fun (t, r) => ('0' :: t, r)
  | '_' :: '0' :: rest => (moreZeros rest).map fun (t, r) => ('_' :: '0' :: t, r)
  | '_' :: c :: rest => if isAsciiDigit c then some (['_'], c :: rest) else none
  | ['_'] => none
  | cs => some ([], cs)

def isHexDigit (c : Char) : Bool := isAsciiDigit c || ('a' ≤ c && c ≤ 'f') || ('A' ≤ c && c ≤ 'F')

def isOctalDigit (c : Char) : Bool := '0' ≤ c && c ≤ '7'

def isBinaryDigit (c : Char) : Bool := c == '0' || c == '1'

def imaginaryUnit : Scan
  | c :: rest => if c == 'j' || c == 'J' then some ([c], rest) else some ([], c :: rest)
  | [] => some ([], [])

/-- An exponent. A mark without digits belongs to what follows, one with a sign and no digit is malformed. -/
def exponent : Scan
  | e :: rest =>
    if e == 'e' || e == 'E' then
      match rest with
      | d :: more =>
        if isAsciiDigit d then (moreDigits isAsciiDigit more).map fun (t, r) => (e :: d :: t, r)
        else if d == '+' || d == '-' then
          match more with
          | x :: more =>
            if isAsciiDigit x then (moreDigits isAsciiDigit more).map fun (t, r) => (e :: d :: x :: t, r) else none
          | [] => none
        else some ([], e :: rest)
      | [] => some ([], e :: rest)
    else some ([], e :: rest)
  | [] => some ([], [])

def fractionDigits : Scan
  | c :: rest =>
    if isAsciiDigit c then (moreDigits isAsciiDigit rest).map fun (t, r) => (c :: t, r) else some ([], c :: rest)
  | [] => some ([], [])

def fraction : Scan
  | '.' :: rest => (fractionDigits rest).map fun (t, r) => ('.' :: t, r)
  | cs => some ([], cs)

def decimalEnd : Scan := fraction.andThen (exponent.andThen imaginaryUnit)

def radixDigits (isDigit : Char → Bool) (cs : List Char) : Option (List Char × List Char) :=
  let (gap, cs) := match cs with
    | '_' :: rest => (['_'], rest)
    | _ => ([], cs)
  match cs with
  | c :: rest =>
    if isDigit c then
      match moreDigits isDigit rest with
      | some (t, r) =>
        match r with
        | x :: _ => if isAsciiDigit x then none else some (gap ++ c :: t, r)
        | [] => some (gap ++ c :: t, r)
      | none => none
    else none
  | [] => none

/-- A numeral that starts with zero: zeros only, unless a point, an exponent or the imaginary unit follows. -/
def zeroNumeral (cs : List Char) : Option (List Char × List Char) := do
  let (zeros, rest) ← moreZeros cs
  let (digits, rest) ← fractionDigits rest
  let (tail, rest) ← decimalEnd rest
  if !digits.isEmpty && tail.isEmpty then none else some (zeros ++ digits ++ tail, rest)

def numeral : Scan
  | '.' :: rest => decimalEnd ('.' :: rest)
  | '0' :: m :: rest =>
    if m == 'x' || m == 'X' then (radixDigits isHexDigit rest).map fun (t, r) => ('0' :: m :: t, r)
    else if m == 'o' || m == 'O' then (radixDigits isOctalDigit rest).map fun (t, r) => ('0' :: m :: t, r)
    else if m == 'b' || m == 'B' then (radixDigits isBinaryDigit rest).map fun (t, r) => ('0' :: m :: t, r)
    else (zeroNumeral (m :: rest)).map fun (t, r) => ('0' :: t, r)
  | c :: rest => ((moreDigits isAsciiDigit).andThen decimalEnd rest).map fun (t, r) => (c :: t, r)
  | [] => none

end SharedState.Source
