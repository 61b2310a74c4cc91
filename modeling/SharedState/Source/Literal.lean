import SharedState.Source.Quoted
import SharedState.Source.Expr
import SharedState.Text.CharName
import SharedState.Text.Blank

/-! The values of string literals. -/
namespace SharedState.Source

open SharedState.Text

variable [CharacterNames]

/-- Why a literal has no value that can be read: a malformed escape, literals of different sorts side by side, or half of a
surrogate pair (its place in the value and the code points from there on). -/
inductive LiteralError where
  | badEscape
  | mixedSorts
  | surrogate (place : Nat) (codes : List Nat)
  deriving DecidableEq, Repr

namespace LiteralError

def hexText (code : Nat) : String :=
  let digits := Nat.toDigits 16 code
  String.ofList (List.replicate (4 - digits.length) '0' ++ digits)

def message : LiteralError → String
  | badEscape => "malformed escape in a string literal"
  | mixedSorts => "Cannot concatenate string and bytes."
  | surrogate place codes =>
    let run := codes.takeWhile fun c => 0xD800 ≤ c && c < 0xE000
    match run with
    | [code] => "'utf-8' codec can't encode character '\\u" ++ hexText code ++ "' in position " ++ toString place ++
        ": surrogates not allowed"
    | _ => "'utf-8' codec can't encode characters in position " ++ toString place ++ "-" ++
        toString (place + run.length - 1) ++ ": surrogates not allowed"

end LiteralError

inductive LiteralValue where
  | text (codes : List Nat)
  | bytes
  deriving DecidableEq, Repr

def digitValue (c : Char) : Nat :=
  if isAsciiDigit c then c.toNat - '0'.toNat
  else if 'a' ≤ c && c ≤ 'f' then c.toNat - 'a'.toNat + 10
  else c.toNat - 'A'.toNat + 10

def numberOf (base : Nat) (digits : List Char) : Nat := digits.foldl (fun n d => n * base + digitValue d) 0

def hexEscape (count : Nat) (cs : List Char) : Option (Nat × List Char) :=
  let digits := cs.take count
  if digits.length = count && digits.all isHexDigit then some (numberOf 16 digits, cs.drop count) else none

def simpleEscape? : Char → Option Nat
  | '\\' => some 92
  | '\'' => some 39
  | '"' => some 34
  | 'a' => some 7
  | 'b' => some 8
  | 'f' => some 12
  | 'n' => some 10
  | 'r' => some 13
  | 't' => some 9
  | 'v' => some 11
  | _ => none

/-- An escape after its backslash: the code points it stands for and the rest; `none` if it is malformed. -/
def escape (isBytes : Bool) (cs : List Char) : Option (List Nat × List Char) :=
  match cs with
  | [] => some ([92], [])
  | c :: rest =>
    if c == '\n' then some ([], rest)
    else match simpleEscape? c with
      | some code => some ([code], rest)
      | none =>
        if isOctalDigit c then
          let digits := (c :: rest).take 3 |>.takeWhile isOctalDigit
          some ([numberOf 8 digits], (c :: rest).drop digits.length)
        else if c == 'x' then (hexEscape 2 rest).map fun (code, r) => ([code], r)
        -- In bytes the escapes below are plain characters.
        else if isBytes then some ([92], c :: rest)
        else if c == 'u' then (hexEscape 4 rest).map fun (code, r) => ([code], r)
        else if c == 'U' then
          match hexEscape 8 rest with
          | some (code, r) => if code < 0x110000 then some ([code], r) else none
          | none => none
        else if c == 'N' then
          match rest with
          | '\x7b' :: more =>
            let name := more.takeWhile (· != '\x7d')
            match more.dropWhile (· != '\x7d'), CharacterNames.character? name with
            | _ :: r, some named => some ([named.toNat], r)
            | _, _ => none
          | _ => none
        else some ([92], c :: rest)

/-- The code points of a literal's body. Every step takes a character, so the second argument is only a bound. -/
def decode (isBytes : Bool) : Nat → List Char → Option (List Nat)
  | 0, _ => some []
  | _, [] => some []
  | n + 1, c :: rest =>
    if isBytes && c.toNat ≥ 128 then none
    else if c == '\\' then
      match escape isBytes rest with
      | none => none
      | some (codes, rest) => (decode isBytes n rest).map (codes ++ ·)
    else (decode isBytes n rest).map (c.toNat :: ·)

def literalValue (raw : String) : Except LiteralError LiteralValue :=
  match literalStart? raw.toList with
  | none => .ok (.text [])
  | some (style, rest) =>
    let content := rest.take (rest.length - style.mark.length)
    let codes := if style.isRaw then
        if style.isBytes && content.any (fun c => c.toNat ≥ 128) then none else some (content.map Char.toNat)
      else decode style.isBytes content.length content
    match codes with
    | none => .error .badEscape
    | some codes => .ok (if style.isBytes then .bytes else .text codes)

def literalsValue : List LiteralPiece → Except LiteralError (Option LiteralValue)
  | [] => .ok none
  | .formatted :: _ => .ok none
  | [.plain raw] => (literalValue raw).map some
  | [.plain _, .formatted] => .ok none
  | .plain raw :: rest =>
    match literalValue raw with
    | .error e => .error e
    | .ok first =>
      match literalsValue rest with
      | .error e => .error e
      | .ok none => .ok none
      | .ok (some second) =>
        match first, second with
        | .text a, .text b => .ok (some (.text (a ++ b)))
        | .bytes, .bytes => .ok (some .bytes)
        | _, _ => .ok none

def isSurrogate (code : Nat) : Bool := 0xD800 ≤ code && code < 0xE000

def plainText (codes : List Nat) : Except LiteralError String :=
  let blank (code : Nat) : Bool := !isSurrogate code && isBlank (Char.ofNat code)
  let codes := codes.dropWhile blank
  let codes := (codes.reverse.dropWhile blank).reverse
  let before := codes.takeWhile fun c => !isSurrogate c
  if before.length < codes.length then .error (.surrogate before.length (codes.drop before.length))
  else .ok (String.ofList (codes.map Char.ofNat))

end SharedState.Source
