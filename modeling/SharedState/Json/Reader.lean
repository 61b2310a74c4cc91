import SharedState.Datum
import SharedState.Bindings

/-! Values from JSON texts. -/
namespace SharedState.Json

abbrev Rest := List Char

def isSpace (c : Char) : Bool := c = ' ' || c = '\t' || c = '\n' || c = '\r'

def skipSpace (cs : List Char) : Rest := cs.dropWhile isSpace

def isDigit (c : Char) : Bool := '0' ≤ c && c ≤ '9'

def digitsValue (ds : List Char) : Nat := ds.foldl (fun n d => 10 * n + (d.toNat - 48)) 0

def digits (cs : List Char) : Option (List Char × Rest) :=
  let ds := cs.takeWhile isDigit
  if ds.isEmpty then none else some (ds, cs.dropWhile isDigit)

def fraction : List Char → Option (List Char × Rest)
  | '.' :: rest => digits rest
  | cs => some ([], cs)

def exponent : List Char → Option (Option Int × Rest)
  | c :: rest =>
    if c = 'e' || c = 'E' then
      match rest with
      | '-' :: more => (digits more).map fun (ds, r) => (some (-(digitsValue ds : Int)), r)
      | '+' :: more => (digits more).map fun (ds, r) => (some (digitsValue ds : Int), r)
      | _ => (digits rest).map fun (ds, r) => (some (digitsValue ds : Int), r)
    else some (none, c :: rest)
  | [] => some (none, [])

def unsigned (negative : Bool) (cs : List Char) : Option (Datum × Rest) := do
  let (whole, rest) ← digits cs
  if whole.length > 1 && whole.head? = some '0' then none
  else
    let (part, rest) ← fraction rest
    let (power, rest) ← exponent rest
    let sign (n : Nat) : Int := if negative then -(n : Int) else n
    if part.isEmpty && power.isNone then return (.int (sign (digitsValue whole)), rest)
    else return (.real ⟨sign (digitsValue (whole ++ part)), power.getD 0 - part.length⟩, rest)

def hexValue? (c : Char) : Option Nat :=
  if isDigit c then some (c.toNat - 48)
  else if 'a' ≤ c && c ≤ 'f' then some (c.toNat - 87)
  else if 'A' ≤ c && c ≤ 'F' then some (c.toNat - 55)
  else none

def unit : List Char → Option (Nat × Rest)
  | a :: b :: c :: d :: rest => do
    let a ← hexValue? a
    let b ← hexValue? b
    let c ← hexValue? c
    let d ← hexValue? d
    return (4096 * a + 256 * b + 16 * c + d, rest)
  | _ => none

def unicodeEscape (cs : List Char) : Option (Char × Rest) := do
  let (high, rest) ← unit cs
  if 0xD800 ≤ high && high < 0xDC00 then
    match rest with
    | '\\' :: 'u' :: more =>
      let (low, rest) ← unit more
      if 0xDC00 ≤ low && low < 0xE000 then
        return (Char.ofNat (0x10000 + (high - 0xD800) * 1024 + (low - 0xDC00)), rest)
      else none
    | _ => none
  else if 0xDC00 ≤ high && high < 0xE000 then none
  else return (Char.ofNat high, rest)

def escape : List Char → Option (Char × Rest)
  | c :: rest =>
    if c = '"' || c = '\\' || c = '/' then some (c, rest)
    else if c = 'n' then some ('\n', rest)
    else if c = 'r' then some ('\r', rest)
    else if c = 't' then some ('\t', rest)
    else if c = 'b' then some ('\x08', rest)
    else if c = 'f' then some ('\x0c', rest)
    else if c = 'u' then unicodeEscape rest
    else none
  | [] => none

/-- The characters of a string after its opening quote. Every step takes a character, so the first argument is only a
bound. -/
def stringTail : Nat → List Char → Option (List Char × Rest)
  | 0, _ => none
  | _, [] => none
  | n + 1, c :: rest =>
    if c = '"' then some ([], rest)
    else if c.toNat < 32 then none
    else if c = '\\' then do
      let (e, rest) ← escape rest
      let (text, rest) ← stringTail n rest
      return (e :: text, rest)
    else do
      let (text, rest) ← stringTail n rest
      return (c :: text, rest)

def string (cs : List Char) : Option (String × Rest) :=
  (stringTail (cs.length + 1) cs).map fun (text, rest) => (String.ofList text, rest)

/-- Items separated by commas, up to a closing bracket. Every item takes a character. -/
def items {α : Type} (item : List Char → Option (α × Rest)) (close : Char) : Nat → List Char → Option (List α × Rest)
  | 0, _ => none
  | n + 1, cs => do
    let (first, rest) ← item (skipSpace cs)
    match skipSpace rest with
    | c :: more =>
      if c = close then return ([first], more)
      else if c = ',' then
        let (others, rest) ← items item close n more
        return (first :: others, rest)
      else none
    | [] => none

def field (value : List Char → Option (Datum × Rest)) : List Char → Option ((String × Datum) × Rest)
  | '"' :: cs => do
    let (key, rest) ← string cs
    match skipSpace rest with
    | ':' :: more =>
      let (d, rest) ← value (skipSpace more)
      return ((key, d), rest)
    | _ => none
  | _ => none

def word (text : String) (d : Datum) (cs : List Char) : Option (Datum × Rest) :=
  if text.toList.isPrefixOf cs then some (d, cs.drop text.toList.length) else none

/-- The table of the given fields: of several with one key the last counts, at the place of the first. -/
def table (fields : List (String × Datum)) : Datum :=
  .table (fields.foldl (fun t f => bindKey f.1 f.2 t) [])

/-- A value at the head of a text, nested no deeper than the first argument says. -/
def value : Nat → List Char → Option (Datum × Rest)
  | _, [] => none
  | depth, c :: rest =>
    if c = '"' then (string rest).map fun (s, r) => (.text s, r)
    else if c = 't' then word "true" (.bool true) (c :: rest)
    else if c = 'f' then word "false" (.bool false) (c :: rest)
    else if c = 'n' then word "null" .null (c :: rest)
    else if c = 'N' then word "NaN" .unreal (c :: rest)
    else if c = 'I' then word "Infinity" .unreal (c :: rest)
    else if c = '-' then
      match rest with
      | 'I' :: _ => word "Infinity" .unreal rest
      | _ => unsigned true rest
    else if isDigit c then unsigned false (c :: rest)
    else match depth with
      | 0 => none
      | d + 1 =>
        if c = '[' then
          match skipSpace rest with
          | ']' :: more => some (.list [], more)
          | inner => (items (value d) ']' (inner.length + 1) inner).map fun (xs, r) => (.list xs, r)
        else if c = '\x7b' then
          match skipSpace rest with
          | '\x7d' :: more => some (.table [], more)
          | inner => (items (field (value d)) '\x7d' (inner.length + 1) inner).map fun (fs, r) => (table fs, r)
        else none

def maxDepth : Nat := 200

def read (text : String) : Option Datum :=
  match value maxDepth (skipSpace text.toList) with
  | some (d, rest) => if (skipSpace rest).isEmpty then some d else none
  | none => none

end SharedState.Json
