import SharedState.Files.FilePath
import SharedState.Text.Utf8

/-! Trees of files, and reading and writing them. -/
namespace SharedState

open SharedState.Text

/-- Directories and files under the root, and the place of the working directory; a directory has no content. -/
structure FileTree where
  entries : List (List String × Option ByteArray) := []
  working : List String := []

inductive Found where
  | file (content : ByteArray)
  | directory (path : List String)
  | missing
  | throughFile

inductive FileError where
  | missing (path : String)
  | throughFile (path : String)
  | isDirectory (path : String)
  | undecodable (f : DecodeFault)
  deriving DecidableEq, Repr

namespace FileError

def message : FileError → String
  | missing path => "[Errno 2] No such file or directory: " ++ shown path
  | throughFile path => "[Errno 20] Not a directory: " ++ shown path
  | isDirectory path => "[Errno 21] Is a directory: " ++ shown path
  | undecodable f => f.message

end FileError

def plainLineEnds : List Char → List Char
  | '\r' :: '\n' :: rest => '\n' :: plainLineEnds rest
  | '\r' :: rest => '\n' :: plainLineEnds rest
  | c :: rest => c :: plainLineEnds rest
  | [] => []

namespace FileTree

def entry? (t : FileTree) (path : List String) : Option (Option ByteArray) :=
  (t.entries.find? fun e => e.1 == path).map (·.2)

def addDirectory (t : FileTree) (path : List String) : FileTree :=
  ((List.range path.length).map fun n => path.take (n + 1)).foldl
    (fun t p => if (t.entry? p).isSome then t else { t with entries := t.entries ++ [(p, none)] }) t

def addFile (t : FileTree) (path : List String) (content : ByteArray) : FileTree :=
  { t with entries := (t.addDirectory path.dropLast).entries ++ [(path, some content)] }

def fromRoot (t : FileTree) (p : FilePath) : List String :=
  match p.start with
  | .working => t.working ++ p.parts
  | .root | .doubleRoot => p.parts

def follow (t : FileTree) (here : List String) : List String → Found
  | [] => .directory here
  -- Above the root is the root again.
  | ".." :: rest => t.follow here.dropLast rest
  | name :: rest =>
    match t.entry? (here ++ [name]) with
    | none => .missing
    | some none => t.follow (here ++ [name]) rest
    | some (some content) => if rest.isEmpty then .file content else .throughFile

def find (t : FileTree) (p : FilePath) : Found := t.follow [] (t.fromRoot p)

def exists? (t : FileTree) (p : FilePath) : Bool :=
  match t.find p with
  | .file _ | .directory _ => true
  | _ => false

def isFile (t : FileTree) (p : FilePath) : Bool :=
  match t.find p with
  | .file _ => true
  | _ => false

def isDirectory (t : FileTree) (p : FilePath) : Bool :=
  match t.find p with
  | .directory _ => true
  | _ => false

def readBytes (t : FileTree) (p : FilePath) : Except FileError ByteArray :=
  match t.find p with
  | .file content => .ok content
  | .directory _ => .error (.isDirectory p.text)
  | .missing => .error (.missing p.text)
  | .throughFile => .error (.throughFile p.text)

def readText (t : FileTree) (p : FilePath) : Except FileError String := do
  match decoded (← t.readBytes p) with
  | .ok text => return String.ofList (plainLineEnds text.toList)
  | .error f => .error (.undecodable f)

def put (t : FileTree) (path : List String) (content : ByteArray) : FileTree :=
  if (t.entry? path).isSome then
    { t with entries := t.entries.map fun e => if e.1 == path then (path, some content) else e }
  else t.addFile path content

/-- Where a file is that can be written: its directory has to be there, and it must be none itself. -/
def writable (t : FileTree) (p : FilePath) : Except FileError (List String) :=
  match t.find p with
  | .directory _ => .error (.isDirectory p.text)
  | .throughFile => .error (.throughFile p.text)
  | .file _ | .missing =>
    match t.find p.parent with
    | .directory path => .ok (path ++ [p.name])
    | .file _ | .throughFile => .error (.throughFile p.text)
    | .missing => .error (.missing p.text)

def write (t : FileTree) (p : FilePath) (text : String) : Except FileError FileTree := do
  return t.put (← t.writable p) text.toUTF8

def pathLe : List String → List String → Bool
  | [], _ => true
  | _ :: _, [] => false
  | a :: as, b :: bs => if a = b then pathLe as bs else a < b

def descendants (t : FileTree) (p : FilePath) : List (List String) :=
  match t.find p with
  | .directory path =>
    let under := t.entries.filterMap fun e =>
      if path.isPrefixOf e.1 && path.length < e.1.length then some (e.1.drop path.length) else none
    under.mergeSort pathLe
  | _ => []

end FileTree
end SharedState
