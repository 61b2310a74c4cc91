import SharedState.Datum

/-! Keys, strings, numbers and dates of project files. Each reader takes its text from the head of a list of characters. -/
namespace SharedState.Toml

abbrev Rest := List Char

def isBlank (c : Char) : Bool := c == ' ' || c == '\t'

def isDigit (c : Char) : Bool := '0' ≤ c && c ≤ '9'

def isLetter (c : Char) : Bool := ('a' ≤ c && c ≤ 'z') || ('A' ≤ c && c ≤ 'Z')

def isBareKey (c : Char) : Bool := isLetter c || isDigit c || c == '-' || c == '_'

def isControl (c : Char) : Bool := (c.toNat < 32 && c != '\t') || c.toNat == 127

def skipBlank (cs : List Char) : Rest := cs.dropWhile isBlank

def skipComment : List Char → Option Rest
  | '#' :: rest => if (rest.takeWhile (· != '\n')).any isControl then none else some (rest.dropWhile (· != '\n'))
  | cs => some cs

def hexValue? (c : Char) : Option Nat :=
  if isDigit c then some (c.toNat - 48)
  else if 'a' ≤ c && c ≤ 'f' then some (c.toNat - 87)
  else if 'A' ≤ c && c ≤ 'F' then some (c.toNat - 55)
  else none

def digitsValue (base : Nat) (ds : List Char) : Nat := ds.foldl (fun n d => base * n + (hexValue? d).getD 0) 0

def hexChar (count : Nat) (cs : List Char) : Option (Char × Rest) :=
  let ds := cs.take count
  let n := digitsValue 16 ds
  if ds.length = count && ds.all (fun d => (hexValue? d).isSome) && (n < 0xD800 || (0xE000 ≤ n && n < 0x110000)) then
    some (Char.ofNat n, cs.drop count)
  else none

def escape : List Char → Option (Char × Rest)
  | 'b' :: rest => some ('\x08', rest)
  | 't' :: rest => some ('\t', rest)
  | 'n' :: rest => some ('\n', rest)
  | 'f' :: rest => some ('\x0c', rest)
  | 'r' :: rest => some ('\r', rest)
  | '"' :: rest => some ('"', rest)
  | '\\' :: rest => some ('\\', rest)
  | 'u' :: rest => hexChar 4 rest
  | 'U' :: rest => hexChar 8 rest
  | _ => none

def basicTail : Nat → List Char → Option (List Char × Rest)
  | 0, _ => none
  | _, [] => none
  | n + 1, c :: rest =>
    if c == '"' then some ([], rest)
    else if c == '\\' then do
      let (e, rest) ← escape rest
      let (text, rest) ← basicTail n rest
      return (e :: text, rest)
    else if isControl c then none
    else do
      let (text, rest) ← basicTail n rest
      return (c :: text, rest)

def isBlankOrLine (c : Char) : Bool := isBlank c || c == '\n'

/-- What is left after a backslash at the end of a line, if only blanks stand behind it. -/
def lineJoin? (cs : List Char) : Option Rest :=
  match skipBlank cs with
  | '\n' :: rest => some (rest.dropWhile isBlankOrLine)
  | _ => none

def basicBlock : Nat → List Char → Option (List Char × Rest)
  | 0, _ => none
  | _, [] => none
  | n + 1, c :: rest =>
    if c == '"' && rest.take 2 == ['"', '"'] then some ([], rest.drop 2)
    else if c == '\\' then
      match lineJoin? rest with
      | some rest => basicBlock n rest
      | none => do
        let (e, rest) ← escape rest
        let (text, rest) ← basicBlock n rest
        return (e :: text, rest)
    else if isControl c && c != '\n' then none
    else do
      let (text, rest) ← basicBlock n rest
      return (c :: text, rest)

def literalTail (cs : List Char) : Option (List Char × Rest) :=
  let text := cs.takeWhile (· != '\'')
  match cs.dropWhile (· != '\'') with
  | [] => none
  | _ :: rest => if text.any isControl then none else some (text, rest)

def literalBlock : List Char → Option (List Char × Rest)
  | [] => none
  | c :: rest =>
    if c == '\'' && rest.take 2 == ['\'', '\''] then some ([], rest.drop 2)
    else if isControl c && c != '\n' then none
    else (literalBlock rest).map fun (text, r) => (c :: text, r)

/-- Up to two quotes that stand right behind the end of a string in three quotes belong to it. -/
def extraQuotes (quote : Char) (text : List Char) (cs : List Char) : List Char × Rest :=
  let extra := (cs.take 2).takeWhile (· == quote)
  (text ++ extra, cs.drop extra.length)

/-- A line feed right behind the opening quotes does not count. -/
def afterOpening : List Char → Rest
  | '\n' :: rest => rest
  | cs => cs

def string : List Char → Option (String × Rest)
  | '"' :: '"' :: '"' :: rest => do
    let (text, rest) ← basicBlock (rest.length + 1) (afterOpening rest)
    let (text, rest) := extraQuotes '"' text rest
    return (String.ofList text, rest)
  | '\'' :: '\'' :: '\'' :: rest => do
    let (text, rest) ← literalBlock (afterOpening rest)
    let (text, rest) := extraQuotes '\'' text rest
    return (String.ofList text, rest)
  | '"' :: rest => (basicTail (rest.length + 1) rest).map fun (text, r) => (String.ofList text, r)
  | '\'' :: rest => (literalTail rest).map fun (text, r) => (String.ofList text, r)
  | _ => none

def keyPart : List Char → Option (String × Rest)
  | '"' :: rest => (basicTail (rest.length + 1) rest).map fun (text, r) => (String.ofList text, r)
  | '\'' :: rest => (literalTail rest).map fun (text, r) => (String.ofList text, r)
  | cs =>
    let bare := cs.takeWhile isBareKey
    if bare.isEmpty then none else some (String.ofList bare, cs.dropWhile isBareKey)

def key : Nat → List Char → Option (List String × Rest)
  | 0, _ => none
  | n + 1, cs => do
    let (part, rest) ← keyPart cs
    match skipBlank rest with
    | '.' :: more =>
      let (others, rest) ← key n (skipBlank more)
      return (part :: others, rest)
    | rest => return ([part], rest)

/-- Further digits of a class, each with at most one underscore in front. -/
def moreDigits (isOne : Char → Bool) : List Char → List Char × Rest
  | '_' :: c :: rest =>
    if isOne c then
      let (ds, r) := moreDigits isOne rest
      (c :: ds, r)
    else ([], '_' :: c :: rest)
  | c :: rest =>
    if isOne c then
      let (ds, r) := moreDigits isOne rest
      (c :: ds, r)
    else ([], c :: rest)
  | [] => ([], [])

def someDigits (isOne : Char → Bool) : List Char → Option (List Char × Rest)
  | c :: rest =>
    if isOne c then
      let (ds, r) := moreDigits isOne rest
      some (c :: ds, r)
    else none
  | [] => none

def radixInteger : List Char → Option (Datum × Rest)
  | '0' :: 'x' :: rest => (someDigits (fun c => (hexValue? c).isSome) rest).map fun (ds, r) =>
      (.int (digitsValue 16 ds), r)
  | '0' :: 'b' :: rest => (someDigits (fun c => c == '0' || c == '1') rest).map fun (ds, r) =>
      (.int (digitsValue 2 ds), r)
  | '0' :: 'o' :: rest => (someDigits (fun c => '0' ≤ c && c ≤ '7') rest).map fun (ds, r) =>
      (.int (digitsValue 8 ds), r)
  | _ => none

def wholePart : List Char → Option (List Char × Rest)
  | '0' :: rest => some (['0'], rest)
  | cs => someDigits isDigit cs

def sign : List Char → Bool × Rest
  | '-' :: rest => (true, rest)
  | '+' :: rest => (false, rest)
  | cs => (false, cs)

def fractionPart : List Char → Option (List Char × Rest)
  | '.' :: rest => someDigits isDigit rest
  | _ => none

def exponentPart : List Char → Option (Int × Rest)
  | c :: rest =>
    if c == 'e' || c == 'E' then
      let (negative, rest) := sign rest
      (someDigits isDigit rest).map fun (ds, r) =>
        (if negative then -(digitsValue 10 ds : Int) else digitsValue 10 ds, r)
    else none
  | [] => none

def decimalNumber (cs : List Char) : Option (Datum × Rest) := do
  let (negative, rest) := sign cs
  let (whole, rest) ← wholePart rest
  let signed (n : Nat) : Int := if negative then -(n : Int) else n
  let (part, rest, hasPart) := match fractionPart rest with
    | some (ds, r) => (ds, r, true)
    | none => ([], rest, false)
  let (power, rest, hasPower) := match exponentPart rest with
    | some (n, r) => (n, r, true)
    | none => (0, rest, false)
  if hasPart || hasPower then
    return (.real ⟨signed (digitsValue 10 (whole ++ part)), power - part.length⟩, rest)
  else return (.int (signed (digitsValue 10 whole)), rest)

def twoDigits (low high : Nat) : List Char → Option (Nat × Rest)
  | a :: b :: rest =>
    let n := digitsValue 10 [a, b]
    if isDigit a && isDigit b && low ≤ n && n ≤ high then some (n, rest) else none
  | _ => none

def expect (c : Char) : List Char → Option Rest
  | d :: rest => if c == d then some rest else none
  | [] => none

def timeOfDay (cs : List Char) : Option Rest := do
  let (_, rest) ← twoDigits 0 23 cs
  let (_, rest) ← twoDigits 0 59 (← expect ':' rest)
  let (_, rest) ← twoDigits 0 59 (← expect ':' rest)
  match rest with
  | '.' :: more => if (more.takeWhile isDigit).isEmpty then return rest else return more.dropWhile isDigit
  | _ => return rest

def timeOffset (cs : List Char) : Rest :=
  match cs with
  | 'Z' :: rest => rest
  | 'z' :: rest => rest
  | c :: rest =>
    if c == '+' || c == '-' then
      (do
        let (_, rest) ← twoDigits 0 23 rest
        let (_, rest) ← twoDigits 0 59 (← expect ':' rest)
        return rest).getD cs
    else cs
  | [] => []

def isLeapYear (y : Nat) : Bool := y % 4 == 0 && (y % 100 != 0 || y % 400 == 0)

def daysInMonth (y m : Nat) : Nat :=
  if m == 2 then (if isLeapYear y then 29 else 28)
  else if m == 4 || m == 6 || m == 9 || m == 11 then 30 else 31

def date (cs : List Char) : Option ((Nat × Nat × Nat) × Rest) := do
  let year := cs.take 4
  if year.length = 4 && year.all isDigit then
    let (m, rest) ← twoDigits 1 12 (← expect '-' (cs.drop 4))
    let (d, rest) ← twoDigits 1 31 (← expect '-' rest)
    return ((digitsValue 10 year, m, d), rest)
  else none

def dateTail (cs : List Char) : Rest :=
  match cs with
  | c :: rest =>
    if c == 'T' || c == 't' || c == ' ' then
      match timeOfDay rest with
      | some after => timeOffset after
      | none => cs
    else cs
  | [] => []

def moment (cs : List Char) : Option (Option Rest) :=
  match date cs with
  | some ((y, m, d), rest) => some (if y ≥ 1 && d ≤ daysInMonth y m then some (dateTail rest) else none)
  | none => (timeOfDay cs).map some

def plainValue (cs : List Char) : Option (Datum × Rest) :=
  match moment cs with
  | some found => found.map fun rest => (.moment, rest)
  | none =>
    match radixInteger cs with
    | some found => some found
    | none =>
      match decimalNumber cs with
      | some found => some found
      | none =>
        let word := (sign cs).2.take 3
        if word == ['i', 'n', 'f'] || word == ['n', 'a', 'n'] then some (.unreal, (sign cs).2.drop 3) else none

end SharedState.Toml
