import SharedState.Files.Tree
import SharedState.Text.Glob
import SharedState.Program.Build

/-! The Python files of a program, and the names of their modules. -/
namespace SharedState

open SharedState.Text

variable [CharacterNames]

inductive ModuleNameError where
  | notBelow
  | noName
  deriving DecidableEq, Repr

namespace FileTree

def moduleName (t : FileTree) (path root : FilePath) : Except ModuleNameError String :=
  if path.start ≠ root.start || !root.parts.isPrefixOf path.parts then .error .notBelow
  else
    let rel : FilePath := { parts := path.parts.drop root.parts.length }
    if rel.parts.isEmpty then .error .noName
    else
      let parts := rel.parts.dropLast ++ [rel.stem]
      let parts := if parts.getLast? = some "__init__" then parts.dropLast else parts
      -- A root that is a package itself is part of the name.
      let parts := if t.exists? (root.append ["__init__.py"]) then root.name :: parts else parts
      let name := dotted parts
      .ok (if name.isEmpty then root.name else name)

def pythonFilesAt (t : FileTree) (base : FilePath) : List (FilePath × String) :=
  if t.isFile base then [(base, base.stem)]
  else
    let found := (t.descendants base).filter fun rel => (rel.getLast?.getD "").endsWith ".py"
    found.filterMap fun rel =>
      match t.moduleName (base.append rel) base with
      | .ok module => some (base.append rel, module)
      | .error _ => none

def pythonFiles (t : FileTree) (paths : List FilePath) (exclude : List String) : List (FilePath × String) :=
  (paths.flatMap t.pythonFilesAt).filter fun f => !exclude.any fun pattern => globMatches pattern f.1.text

end FileTree

inductive SourceError where
  | unreadable (path : String) (e : FileError)
  | program (e : ProgramError)
  deriving DecidableEq, Repr

namespace SourceError

def message : SourceError → String
  | unreadable path e => "Failed to read " ++ path ++ ": " ++ e.message
  | program e => e.message

end SourceError

namespace Program

/-- Adds a file. Without a name the module is called after the file, or the directory of a package. -/
def addFile (p : Program) (t : FileTree) (path : FilePath) (module : Option String) : Except SourceError Program :=
  match t.readText path with
  | .error e => .error (.unreadable path.text e)
  | .ok code =>
    let isPackage := path.stem == "__init__"
    let own := if isPackage then path.parent.name else path.stem
    let name := match module with
      | some m => if m.isEmpty then own else m
      | none => own
    match p.add code name (some path.text) isPackage with
    | .ok p => .ok p
    | .error e => .error (.program e)

def graphOfPaths (t : FileTree) (s : Settings) (paths : List FilePath) : Except SourceError Graph := do
  let p ← (t.pythonFiles paths s.exclude).foldlM (fun (p : Program) (path, module) => p.addFile t path (some module))
    (ofSettings s)
  match p.build.2 with
  | .ok g => return g
  | .error e => .error (.program e)

end Program
end SharedState
