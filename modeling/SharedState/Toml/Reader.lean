import SharedState.Toml.Scalar
import SharedState.Bindings

/-! Project files: keys with values, tables, and arrays of tables. No key is given a value twice, and no table is declared
twice. -/
namespace SharedState.Toml

abbrev Fields := List (String × Datum)

/-- Changes the table at a path, which is made if it is not there. A path may lead through the last of several tables
if `lists` is set. -/
def modifyAt (lists : Bool) : List String → (Fields → Option Fields) → Fields → Option Fields
  | [], f, t => f t
  | k :: ks, f, t =>
    match valueOf? k t with
    | none => (modifyAt lists ks f []).map fun inner => bindKey k (.table inner) t
    | some (.table inner) => (modifyAt lists ks f inner).map fun inner => bindKey k (.table inner) t
    | some (.list items) =>
      match lists, items.getLast? with
      | true, some (.table inner) =>
        (modifyAt lists ks f inner).map fun inner => bindKey k (.list (items.dropLast ++ [.table inner])) t
      | _, _ => none
    | some _ => none

def addNew (k : String) (d : Datum) (t : Fields) : Option Fields :=
  if (valueOf? k t).isSome then none else some (t ++ [(k, d)])

def addTable (k : String) (t : Fields) : Option Fields :=
  match valueOf? k t with
  | none => some (t ++ [(k, .list [.table []])])
  | some (.list items) => some (bindKey k (.list (items ++ [.table []])) t)
  | some _ => none

/-- What may no longer be done at a path: a declared table is not declared again, a frozen value and all below it is not
changed. -/
inductive Mark where
  | declared (path : List String)
  | frozen (path : List String)
  deriving DecidableEq, Repr

namespace Mark

def path : Mark → List String
  | declared p => p
  | frozen p => p

end Mark

def isDeclared (marks : List Mark) (path : List String) : Bool := !path.isEmpty && marks.contains (.declared path)

def isFrozen (marks : List Mark) (path : List String) : Bool :=
  marks.any fun m =>
    match m with
    | .frozen p => !p.isEmpty && p.isPrefixOf path
    | _ => false

def isCompound : Datum → Bool
  | .table _ => true
  | .list _ => true
  | _ => false

def skipLines : Nat → List Char → Option Rest
  | 0, cs => some cs
  | n + 1, cs =>
    match cs.dropWhile isBlankOrLine with
    | '#' :: rest =>
      match skipComment ('#' :: rest) with
      | some rest => skipLines n rest
      | none => none
    | rest => some rest

def arrayItems (value : List Char → Option (Datum × Rest)) : Nat → List Char → Option (List Datum × Rest)
  | 0, _ => none
  | n + 1, cs => do
    match ← skipLines cs.length cs with
    | ']' :: rest => return ([], rest)
    | cs =>
      let (first, rest) ← value cs
      match ← skipLines rest.length rest with
      | ']' :: rest => return ([first], rest)
      | ',' :: rest =>
        let (others, rest) ← arrayItems value n rest
        return (first :: others, rest)
      | _ => none

def keyValue (value : List Char → Option (Datum × Rest)) (cs : List Char) :
    Option ((List String × Datum) × Rest) := do
  let (path, rest) ← key (cs.length + 1) cs
  match rest with
  | '=' :: more =>
    let (d, rest) ← value (skipBlank more)
    return ((path, d), rest)
  | _ => none

def inlinePairs (value : List Char → Option (Datum × Rest)) :
    Nat → Fields → List Mark → List Char → Option (Fields × Rest)
  | 0, _, _, _ => none
  | n + 1, table, marks, cs => do
    let ((path, d), rest) ← keyValue value cs
    if isFrozen marks path then none
    else
      let table ← modifyAt false path.dropLast (addNew (path.getLast?.getD "") d) table
      match skipBlank rest with
      | '\x7d' :: rest => return (table, rest)
      | ',' :: rest => inlinePairs value n table (if isCompound d then .frozen path :: marks else marks) (skipBlank rest)
      | _ => none

def value : Nat → List Char → Option (Datum × Rest)
  | 0, _ => none
  | n + 1, cs =>
    match cs with
    | [] => none
    | '"' :: _ => (string cs).map fun (s, r) => (.text s, r)
    | '\'' :: _ => (string cs).map fun (s, r) => (.text s, r)
    | 't' :: 'r' :: 'u' :: 'e' :: rest => some (.bool true, rest)
    | 'f' :: 'a' :: 'l' :: 's' :: 'e' :: rest => some (.bool false, rest)
    | '[' :: rest => (arrayItems (value n) (rest.length + 1) rest).map fun (items, r) => (.list items, r)
    | '\x7b' :: rest =>
      match skipBlank rest with
      | '\x7d' :: rest => some (.table [], rest)
      | rest => (inlinePairs (value n) (rest.length + 1) [] [] rest).map fun (t, r) => (.table t, r)
    | _ => plainValue cs

/-- A document while it is read: what it holds, the table that is being filled, and the marks. `pending` are tables made by
dotted keys, which count as declared from the next header on. -/
structure Reading where
  table : Fields := []
  header : List String := []
  marks : List Mark := []
  pending : List Mark := []

def addPair (s : Reading) (path : List String) (d : Datum) : Option Reading :=
  let inner := (List.range (path.length - 1)).map fun n => s.header ++ path.take (n + 1)
  let parent := s.header ++ path.dropLast
  if inner.any (isDeclared s.marks) || isFrozen s.marks parent then none
  else
    (modifyAt true parent (addNew (path.getLast?.getD "") d) s.table).map fun table =>
      { s with
        table
        marks := if isCompound d then .frozen (s.header ++ path) :: s.marks else s.marks
        pending := s.pending ++ inner.map .declared }

def tableHeader (s : Reading) (cs : List Char) : Option (Reading × Rest) := do
  let (path, rest) ← key (cs.length + 1) (skipBlank cs)
  if isDeclared s.marks path || isFrozen s.marks path then none
  else
    let table ← modifyAt true path some s.table
    match rest with
    | ']' :: rest => return ({ s with table, header := path, marks := .declared path :: s.marks }, rest)
    | _ => none

def arrayHeader (s : Reading) (cs : List Char) : Option (Reading × Rest) := do
  let (path, rest) ← key (cs.length + 1) (skipBlank cs)
  if isFrozen s.marks path then none
  else
    -- A new table is opened, for which no marks hold yet.
    let marks := .declared path :: s.marks.filter fun m => !path.isPrefixOf m.path
    let table ← modifyAt true path.dropLast (addTable (path.getLast?.getD "")) s.table
    match rest with
    | ']' :: ']' :: rest => return ({ s with table, header := path, marks }, rest)
    | _ => none

def statement (s : Reading) (cs : List Char) : Option (Reading × Rest) :=
  match cs with
  | '[' :: rest =>
    let s := { s with marks := s.pending ++ s.marks, pending := [] }
    match rest with
    | '[' :: rest => arrayHeader s rest
    | _ => tableHeader s rest
  | '#' :: _ => some (s, cs)
  | c :: _ =>
    if isBareKey c || c == '"' || c == '\'' then do
      let ((path, d), rest) ← keyValue (value (cs.length + 1)) cs
      return (← addPair s path d, rest)
    else none
  | [] => some (s, [])

/-- All lines of a document. Every line takes a character, so the first argument is only a bound. -/
def lines : Nat → Reading → List Char → Option Reading
  | 0, _, _ => none
  | n + 1, s, cs =>
    match skipBlank cs with
    | [] => some s
    | '\n' :: rest => lines n s rest
    | cs => do
      let (s, rest) ← statement s cs
      match ← skipComment (skipBlank rest) with
      | [] => return s
      | '\n' :: rest => lines n s rest
      | _ => none

def joinLineEnds : List Char → List Char
  | '\r' :: '\n' :: rest => '\n' :: joinLineEnds rest
  | c :: rest => c :: joinLineEnds rest
  | [] => []

def read (text : String) : Option Fields :=
  let cs := joinLineEnds text.toList
  (lines (cs.length + 1) {} cs).map (·.table)

end SharedState.Toml
