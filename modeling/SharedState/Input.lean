import SharedState.Files.Discovery
import SharedState.Document.Graph

/-! The inputs of a run: Python sources, or graph documents that are merged into one. -/
namespace SharedState

open SharedState.Source SharedState.Text

variable [CharacterNames]

inductive InputError where
  | notFound (paths : List String)
  | mixed
  | unreadable (path : String) (e : FileError)
  | undecodable (f : DecodeFault)
  | invalidDocument (issues : List Issue)
  | document (e : DocumentError)
  | source (e : SourceError)
  deriving DecidableEq, Repr

namespace InputError

def message : InputError → String
  | notFound paths => "Path not found: " ++ ", ".intercalate paths
  | mixed => "Cannot mix JSON graph documents with Python sources"
  | unreadable path e => "Failed to read " ++ path ++ ": " ++ e.message
  | undecodable f => f.message
  | invalidDocument _ => "Invalid graph document"
  | document e => e.message
  | source e => e.message

def literal? : InputError → Option LiteralError
  | document (.literal e) => some e
  | source (.program (.literal e)) => some e
  | _ => none

/-- Whether the input was looked at and refused. Bytes that are no text and literals without a value are no such
verdict. -/
def isRefusal (e : InputError) : Bool :=
  match e with
  | undecodable _ => false
  | _ => e.literal?.isNone

def isBadValue (e : InputError) : Bool :=
  match e with
  | undecodable _ => true
  | _ =>
    match e.literal? with
    | some (.surrogate _ _) => true
    | some _ => false
    | none => true

end InputError

namespace Document

/-- Adds a document to another. An alias that both have takes the value of the second. -/
def merge (a b : Document) : Document :=
  { classes := a.classes ++ b.classes
    aliases := b.aliases.foldl (fun t f => bindKey f.1 f.2 t) a.aliases
    staticOwners := a.staticOwners ++ b.staticOwners }

end Document

namespace FileTree

def document (t : FileTree) (path : FilePath) : Except InputError Document :=
  match t.readText path with
  | .error (.undecodable f) => .error (.undecodable f)
  | .error e => .error (.unreadable path.text e)
  | .ok text =>
    match Document.parse text with
    | .ok doc => .ok doc
    | .error issues => .error (.invalidDocument issues)

def documentGraph (doc : Document) : Except InputError Graph :=
  match doc.toGraph with
  | .ok g => .ok g
  | .error e => .error (.document e)

def fileGraph (t : FileTree) (path : FilePath) : Except InputError Graph := do
  documentGraph (← t.document path)

def isDocument (t : FileTree) (p : FilePath) : Bool := t.isFile p && p.extension == ".json"

def inputGraph (t : FileTree) (s : Settings) (paths : List FilePath) : Except InputError Graph :=
  let missing := paths.filter fun p => !t.exists? p
  let documents := paths.filter t.isDocument
  if !missing.isEmpty then .error (.notFound (missing.map (·.text)))
  else if documents.isEmpty then
    match Program.graphOfPaths t s paths with
    | .ok g => .ok g
    | .error e => .error (.source e)
  else if documents.length ≠ paths.length then .error .mixed
  else do
    documentGraph (← documents.foldlM (fun merged p => do return merged.merge (← t.document p)) {})

/-- Where the search for settings starts: at the first input, or the directory it is in. -/
def searchPath (t : FileTree) : List FilePath → Option FilePath
  | [] => none
  | p :: _ => some (if t.isDirectory p then p else p.parent)

end FileTree
end SharedState
