import SharedState.Command.Drawing

/-! The command line. Files are read before a command runs, and what it does is carried out afterwards. -/
namespace SharedState.Command

/-- The paths that a request names: inputs, which are read with everything below them, and files to be written. -/
def Request.places : Request → List FilePath × List FilePath
  | .command (.check paths _ _ _) => (paths, [])
  | .command (.graph paths mermaid) => (paths, mermaid.toList)
  | .command (.save paths out) => (paths, [out])
  | _ => ([], [])

/-- Every place on the way along a path, without steps up. -/
def waypoints (t : FileTree) (p : FilePath) : List (List String) :=
  let steps := t.fromRoot p
  (List.range steps.length).map fun n => Settings.normalized [] (steps.take (n + 1))

partial def addPlace (deep : Bool) (t : FileTree) (path : List String) : IO FileTree := do
  let place := path.foldl (· / ·) (← IO.FS.realPath "/")
  if ← place.isDir then
    let t := t.addDirectory path
    if deep then (← place.readDir).foldlM (fun t entry => addPlace true t (path ++ [entry.fileName])) t
    else return t
  else if (← place.pathExists) && (t.entry? path).isNone then return t.addFile path (← IO.FS.readBinFile place)
  else return t

def addProjectFiles (t : FileTree) (path : List String) : IO FileTree :=
  ((List.range (path.length + 1)).map fun n => path.take n ++ [Settings.projectFile]).foldlM (addPlace false) t

def loadFiles (r : Request) : IO FileTree := do
  let (inputs, outputs) := r.places
  let working := (← IO.currentDir).components.filter fun c => !c.isEmpty
  let t := ({ working } : FileTree).addDirectory working
  let t ← ((inputs ++ outputs).flatMap (waypoints t)).foldlM (addPlace false) t
  let t ← (inputs.map fun p => Settings.normalized [] (t.fromRoot p)).foldlM (addPlace true) t
  addProjectFiles t (Settings.normalized [] (t.fromRoot ((t.searchPath inputs).getD { parts := [] })))

def putLines (lines : List (List Char)) : IO Unit := lines.forM fun l => IO.println (String.ofList l)

def Effect.perform : Effect → IO Unit
  | .log r => putLines (Entry.lines 0 ({} : Screen).width (.record r))
  | .display s => putLines (s.lines ({} : Screen).width)
  | .output text => IO.print text
  | .complaint text => IO.eprint text
  | .write path text => IO.FS.writeFile path.text text

end SharedState.Command

open SharedState.Command in
def main (args : List String) : IO UInt32 := do
  let request := Request.ofTexts args
  let outcome := request.outcome (← loadFiles request)
  outcome.effects.forM Effect.perform
  match outcome.ending with
  | .ok code => return UInt32.ofNat code
  | .error e =>
    IO.eprintln e.message
    return 1
