import SharedState.Command.Request
import SharedState.Input
import SharedState.Check
import SharedState.Log
import SharedState.Settings.Load
import SharedState.Diagram.Outline
import SharedState.Diagram.Mermaid
import SharedState.Json.Writer

/-! What commands do, as data: what they tell and write, in order, and how they end. -/
namespace SharedState.Command

variable [CharacterNames]

/-- Something that is shown on the console. Texts are markup. -/
inductive Shown where
  | line (text : String)
  | outline (o : Outline)
  | table (title : String) (columns : List String) (rows : List (List String))
  deriving Repr

inductive Effect where
  | log (r : LogRecord)
  | display (s : Shown)
  | output (text : String)
  | complaint (text : String)
  | write (path : FilePath) (text : String)
  deriving Repr

inductive CommandError where
  | settings (e : LoadError)
  | input (e : InputError)
  | check (e : CheckError)
  | dump (e : DumpError)
  | file (e : FileError)
  deriving DecidableEq, Repr

namespace CommandError

def message : CommandError → String
  | settings e => e.message
  | input e => e.message
  | check e => e.message
  | dump .typeWithoutText => CheckError.typeWithoutText.message
  | dump (.issues _) => "the graph has no document"
  | file e => e.message

end CommandError

structure Outcome where
  effects : List Effect := []
  ending : Except CommandError Nat := .ok 0

namespace Outcome

def refuse (message : String) : Outcome :=
  { effects := [.log (.error (Text.escapeMarkup message))], ending := .ok 1 }

def breakOff (e : CommandError) : Outcome := { ending := .error e }

def after (before : List Effect) (o : Outcome) : Outcome := { o with effects := before ++ o.effects }

end Outcome

def diagnosticDatum (d : Diagnostic) : Datum :=
  let text (s : Option String) : Datum := match s with
    | some s => .text s
    | none => .null
  .table [("severity", .text d.severity.tag), ("location", text (d.location.map (·.text))), ("message", .text d.message),
    ("symbol", .text d.symbol), ("declared_type", text d.declaredType)]

def diagnosticsText (ds : List Diagnostic) : String := Json.indented (.list (ds.map diagnosticDatum)) ++ "\n"

def diagnosticRow (d : Diagnostic) : List String :=
  let type := match d.declaredType with
    | some t => if t.isEmpty then "?" else t
    | none => "?"
  let place := (d.location.map (·.text)).getD "-"
  [Text.escapeMarkup d.symbol, Text.escapeMarkup type, Text.escapeMarkup place, d.severity.tag]

def findingsTable (ds : List Diagnostic) : Shown :=
  .table "Reachable Mutable State" ["Symbol", "Type", "Location", "Severity"] (ds.map diagnosticRow)

def summary (r : CheckResult) : List Shown :=
  [.line "[bold]Reentrancy Summary[/bold]",
   .line ("Singletons:        " ++ toString r.roots.length),
   .line ("Classes scanned:   " ++ toString r.visitedClasses.length),
   .line ("Violations:        [red]" ++ toString r.diagnostics.length ++ "[/red]")]

def eventEffects (json : Bool) (events : List Event) : List Effect :=
  -- With JSON output findings are not logged, but trace lines are.
  (events.filter fun e => !json || e.diagnostic?.isNone).map fun e => .log e.logRecord

def exitCode (r : CheckResult) : Nat := if r.success then 0 else 1

def resultEffects (json : Bool) (r : CheckResult) : List Effect :=
  if json then [.output (diagnosticsText r.diagnostics)]
  else
    (if r.hasViolations then [.display (findingsTable r.diagnostics)] else []) ++ (summary r).map .display ++
      (if r.success then [.log (.success "No error-level reachable mutable state found.")] else [])

def checkGraph (s : Settings) (json : Bool) (g : Graph) : Outcome :=
  if !s.checkReentrant then
    { effects := if json then [.output "[]\n"]
        else [.log (.warning "Reentrancy check disabled by configuration (check_reentrant = false).")] }
  else
    let opening := if json then [] else [.log (.info ("Checking " ++ toString g.size ++ " classes from " ++
      toString g.staticOwners.length ++ " singletons..."))]
    match g.check s with
    | .error e => (Outcome.breakOff (.check e)).after opening
    | .ok run =>
      { effects := opening ++ eventEffects json run.events ++ resultEffects json run.result
        ending := .ok (exitCode run.result) }

def overrides (trace : Option Bool) (severity : Option String) : Schema.Fields :=
  (trace.map fun b => ("trace", .bool b)).toList ++ (severity.map fun v => ("severity", .text v)).toList

def runCheck (t : FileTree) (paths : List FilePath) (trace : Option Bool) (severity : Option String) (json : Bool) : Outcome :=
  match Settings.load t (t.searchPath paths) (overrides trace severity) with
  | .error e => if e.isBadValue then .refuse e.message else .breakOff (.settings e)
  | .ok s =>
    match t.inputGraph s paths with
    | .error e => if e.isRefusal then .refuse e.message else .breakOff (.input e)
    | .ok g => checkGraph s json g

def withGraph (t : FileTree) (paths : List FilePath) (next : Graph → Outcome) : Outcome :=
  match Settings.load t (t.searchPath paths) [] with
  | .error e => if e.isBadValue then .refuse e.message else .breakOff (.settings e)
  | .ok s =>
    match t.inputGraph s paths with
    -- Bytes that are no text, where a check breaks off, are reported here.
    | .error e => if e.isBadValue then .refuse e.message else .breakOff (.input e)
    | .ok g => next g

def writeFile (t : FileTree) (path : FilePath) (text report : String) : Outcome :=
  match t.write path text with
  | .error e => .breakOff (.file e)
  | .ok _ =>
    { effects := [.write path text,
        .log (.success (report ++ "[path]" ++ Text.escapeMarkup path.text ++ "[/path]"))] }

def runGraph (t : FileTree) (paths : List FilePath) (mermaid : Option FilePath) : Outcome :=
  withGraph t paths fun g =>
    match Outline.ofGraph? g with
    | none => .breakOff (.dump .typeWithoutText)
    | some o =>
      let diagram := match mermaid with
        | some path => writeFile t path (Mermaid.ofGraph g).text "Mermaid diagram written to "
        | none => {}
      diagram.after [.display (.outline o)]

def runSave (t : FileTree) (paths : List FilePath) (out : FilePath) : Outcome :=
  withGraph t paths fun g =>
    match g.dump with
    | .error e => .breakOff (.dump e)
    | .ok text => writeFile t out (text ++ "\n") ("Exported " ++ toString g.size ++ " classes to ")

namespace Invocation

def outcome (t : FileTree) : Invocation → Outcome
  | .check paths trace severity json => runCheck t paths (if trace then some true else none) (severity.map (·.tag)) json
  | .graph paths mermaid => runGraph t paths mermaid
  | .save paths out => runSave t paths out

end Invocation

namespace Request

def outcome (t : FileTree) : Request → Outcome
  | .command i => i.outcome t
  | .help verb => { effects := [.output (helpText verb)] }
  | .version => { effects := [.output (programName ++ " " ++ programVersion ++ "\n")] }
  | .misuse verb m => { effects := [.complaint (misuseText verb m)], ending := .ok 2 }

end Request
end SharedState.Command
