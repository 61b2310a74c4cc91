import SharedState.Settings.Schema
import SharedState.Toml.Reader
import SharedState.Files.Tree

/-! Settings from the nearest project file, with values that take precedence over it. -/
namespace SharedState

open SharedState.Text

inductive LoadError where
  | undecodable (f : DecodeFault)
  | toolNotTable
  | notPairs
  | badPair (index length : Nat)
  | invalid (issues : List Issue)
  deriving DecidableEq, Repr

namespace LoadError

def message : LoadError → String
  | undecodable f => f.message
  | toolNotTable => "tool settings are not a table"
  | notPairs => "settings are not a table"
  | badPair index length =>
    "dictionary update sequence element #" ++ toString index ++ " has length " ++ toString length ++ "; 2 is required"
  | invalid _ => "Invalid reentrancy_guard configuration"

/-- Whether some value is at fault, and not the shape of the whole. -/
def isBadValue : LoadError → Bool
  | toolNotTable | notPairs => false
  | _ => true

end LoadError

namespace Settings

def projectFile : String := "pyproject.toml"

def toolSection : String := "reentrancy_guard"

-- Unlike a path that is followed, it takes no notice of what is there.
def normalized (here : List String) : List String → List String
  | [] => here
  | ".." :: rest => normalized here.dropLast rest
  | name :: rest => normalized (here ++ [name]) rest

def nearestFile (t : FileTree) : Nat → List String → Option ByteArray
  | n, path =>
    match t.find { start := .root, parts := path ++ [projectFile] } with
    | .file content => some content
    | _ =>
      match n with
      | 0 => none
      | k + 1 => nearestFile t k path.dropLast

/-- An entry of a list as a key and a value: two characters, two items, or the two keys of a table. -/
def pairOf (index : Nat) (d : Datum) : Except LoadError (Datum × Datum) :=
  let two (items : List Datum) : Except LoadError (Datum × Datum) :=
    match items with
    | [k, v] => .ok (k, v)
    | _ => .error (.badPair index items.length)
  match d with
  | .text s => two (s.toList.map fun c => .text (String.singleton c))
  | .list items => two items
  | .table fields => two (fields.map fun f => .text f.1)
  | _ => .error .notPairs

def addPair (fields : Schema.Fields) (entry : Datum × Nat) : Except LoadError Schema.Fields := do
  let (k, v) ← pairOf entry.2 entry.1
  match k with
  | .text key => return bindKey key v fields
  | .list _ | .table _ => .error .notPairs
  -- A key that is no text names no field.
  | _ => return fields

def sectionFields : Datum → Except LoadError Schema.Fields
  | .table fields => .ok fields
  -- A text counts as the list of its characters, of which the first one is no pair.
  | .text s => if s.isEmpty then .ok [] else .error (.badPair 0 1)
  | .list items => items.zipIdx.foldlM addPair []
  | _ => .error .notPairs

def fileSection (content : ByteArray) : Except LoadError Datum :=
  match decoded content with
  | .error f => .error (.undecodable f)
  | .ok text =>
    match Toml.read text with
    -- A file that is not well formed has no settings.
    | none => .ok (.table [])
    | some fields =>
      match valueOf? "tool" fields with
      | none => .ok (.table [])
      | some (.table tools) => .ok ((valueOf? toolSection tools).getD (.table []))
      | some _ => .error .toolNotTable

def load (t : FileTree) (search : Option FilePath) (overrides : Schema.Fields) : Except LoadError Settings := do
  let start := normalized [] (t.fromRoot (search.getD { parts := [] }))
  let found ← match nearestFile t start.length start with
    | some content => fileSection content
    | none => .ok (.table [])
  let fields ← sectionFields found
  match ofFields (overrides.foldl (fun t f => bindKey f.1 f.2 t) fields) with
  | .ok s => return s
  | .error issues => .error (.invalid issues)

end Settings
end SharedState
