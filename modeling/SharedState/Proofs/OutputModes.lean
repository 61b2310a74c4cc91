import SharedState.Proofs.CheckEndings
import SharedState.Proofs.JsonText

/-! The two ways in which the check of inputs tells what it finds: an array of JSON objects, or records of the log and a table. Both
tell the same, and both end with the same exit code. -/
namespace SharedState

theorem Settings.loadSeverity {t : FileTree} {search : Option FilePath} {trace : Option Bool} {severity : Option String}
    {s : Settings} (loaded : load t search (Command.overrides trace severity) = .ok s) :
    ∃ fields, sectionOf t search = .ok fields ∧ effectiveSeverity? severity fields = some s.severity := by
  obtain ⟨fields, found, made⟩ := loadChecked loaded
  have effective := severityChecked made
  refine ⟨fields, found, ?_⟩
  unfold effectiveSeverity? at effective ⊢
  cases trace <;> cases severity <;> simpa [Command.overrides, valueOfBind] using effective

namespace Diagnostic

def record (d : Diagnostic) : LogRecord := .finding d.severity d.location d.message

theorem memberSeverity {severity : Severity} {m : Symbol} {d : Diagnostic} (made : ofMember? severity m = some d) :
    d.severity = severity := by
  obtain ⟨t, _, rfl⟩ := Option.map_eq_some_iff.1 made
  rfl

end Diagnostic

namespace Command

/-! Exit codes. -/

theorem exitCodeFails (r : CheckResult) : exitCode r = 1 ↔ ∃ d ∈ r.diagnostics, d.severity = .error := by
  simp [exitCode, CheckResult.success]

theorem checkFails {s : Settings} {g : Graph} {run : CheckRun} (done : g.check s = .ok run) :
    exitCode run.result = 1 ↔ s.checkReentrant = true ∧ s.severity = .error ∧
      ∃ c m, (s.scanner g).Reached g.staticOwners c ∧ (s.scanner g).Exposed c m := by
  rw [exitCodeFails]
  cases on : s.checkReentrant with
  | false =>
    have off := Graph.checkOff g on g.staticOwners
    cases Except.ok.inj (off.symm.trans done)
    simp
  | true =>
    obtain ⟨w, scanned⟩ := Graph.checkDone on done
    cases Except.ok.inj ((Graph.checkOn on scanned).symm.trans done)
    have exact := Scanner.scanExact scanned
    have told : w.diagnostics.map some = w.flagged.map (Diagnostic.ofMember? s.severity) := exact.told
    constructor
    · rintro ⟨d, found, isError⟩
      have listed : some d ∈ w.diagnostics.map some := List.mem_map_of_mem found
      rw [told] at listed
      obtain ⟨m, flagged, made⟩ := List.mem_map.1 listed
      obtain ⟨c, reached, exposed⟩ := (exact.flagged m).1 flagged
      have same : d.severity = s.severity := Diagnostic.memberSeverity made
      exact ⟨rfl, same ▸ isError, c, m, reached, exposed⟩
    · rintro ⟨_, isError, c, m, reached, exposed⟩
      have flagged := (exact.flagged m).2 ⟨c, reached, exposed⟩
      have listed := List.mem_map_of_mem (f := Diagnostic.ofMember? s.severity) flagged
      rw [← told] at listed
      obtain ⟨d, found, made⟩ := List.mem_map.1 listed
      exact ⟨d, found, (Diagnostic.memberSeverity made.symm).trans isError⟩

/-! What is told. -/

namespace Effect

def record? : Effect → Option LogRecord
  | log r => some r
  | _ => none

def output? : Effect → Option String
  | output text => some text
  | _ => none

def rows? : Effect → Option (List (List String))
  | display (.table _ _ rows) => some rows
  | _ => none

end Effect

/-- What is logged, the trace apart. -/
def recordsOf (effects : List Effect) : List LogRecord := (effects.filterMap Effect.record?).filter fun r => r.level ≠ .debug

/-- The findings that one outcome prints as a JSON array are those that another one logs and shows in a table. -/
structure Tells (ds : List Diagnostic) (json text : Outcome) : Prop where
  array : ∃ s, json.effects.filterMap Effect.output? = [s] ∧ Json.read s = some (.list (ds.map diagnosticDatum))
  lines : ∃ opening closing, recordsOf text.effects = opening :: (ds.map (·.record) ++ closing) ∧
    (closing = [] ∨ closing = [.success "No error-level reachable mutable state found."])
  rows : text.effects.filterMap Effect.rows? = if ds.isEmpty then [] else [ds.map diagnosticRow]

theorem readsOptional (depth level : Nat) (s : Option String) :
    Json.Reads depth level (match s with
      | some s => .text s
      | none => .null) := by
  cases s with
  | none => exact Json.readsNull _ _
  | some s => exact Json.readsText _ _ s

theorem readsDiagnostic (depth level : Nat) (d : Diagnostic) : Json.Reads (depth + 1) level (diagnosticDatum d) := by
  have keys : (["severity", "location", "message", "symbol", "declared_type"] : List String).Nodup := by decide
  refine Json.readsTable keys fun f listed => ?_
  simp only [List.mem_cons, List.not_mem_nil, or_false] at listed
  rcases listed with rfl | rfl | rfl | rfl | rfl
  · exact Json.readsText _ _ _
  · exact readsOptional _ _ _
  · exact Json.readsText _ _ _
  · exact Json.readsText _ _ _
  · exact readsOptional _ _ _

theorem diagnosticsRead (ds : List Diagnostic) : Json.read (diagnosticsText ds) = some (.list (ds.map diagnosticDatum)) := by
  refine Json.readLine (Json.readsList fun d listed => ?_)
  obtain ⟨x, _, rfl⟩ := List.mem_map.1 listed
  exact readsDiagnostic _ _ x

theorem recordsLog (r : LogRecord) (effects : List Effect) :
    recordsOf (.log r :: effects) = if r.level = .debug then recordsOf effects else r :: recordsOf effects := by
  by_cases traced : r.level = .debug <;> simp [recordsOf, Effect.record?, traced]

theorem recordsAppend (first second : List Effect) : recordsOf (first ++ second) = recordsOf first ++ recordsOf second := by
  simp [recordsOf]

theorem findingLevel (d : Diagnostic) : d.record.level ≠ .debug := by
  unfold Diagnostic.record LogRecord.finding LogLevel.ofSeverity
  cases d.severity <;> simp

theorem eventRecords (events : List Event) :
    recordsOf (eventEffects false events) = (events.filterMap Event.diagnostic?).map (·.record) := by
  induction events with
  | nil => rfl
  | cons e events ih =>
    have first : eventEffects false (e :: events) = .log e.logRecord :: eventEffects false events := rfl
    rw [first, recordsLog, ih]
    cases e with
    | scanning c depth => rfl
    | finding d => exact if_neg (findingLevel d)

theorem eventOutputs (json : Bool) (events : List Event) : (eventEffects json events).filterMap Effect.output? = [] := by
  simp [eventEffects, Effect.output?]

theorem eventRows (json : Bool) (events : List Event) : (eventEffects json events).filterMap Effect.rows? = [] := by
  simp [eventEffects, Effect.rows?]

theorem resultRecords (r : CheckResult) :
    recordsOf (resultEffects false r) =
      if r.success then [.success "No error-level reachable mutable state found."] else [] := by
  have displays : recordsOf ((summary r).map .display) = [] := rfl
  have effects : resultEffects false r = (if r.hasViolations then [.display (findingsTable r.diagnostics)] else []) ++
      (summary r).map .display ++
      (if r.success then [.log (.success "No error-level reachable mutable state found.")] else []) := rfl
  rw [effects, recordsAppend, recordsAppend, displays]
  cases r.hasViolations <;> cases r.success <;> rfl

theorem resultRows (r : CheckResult) :
    (resultEffects false r).filterMap Effect.rows? = if r.diagnostics.isEmpty then [] else [r.diagnostics.map diagnosticRow] := by
  cases none : r.diagnostics.isEmpty <;> cases passed : r.success <;>
    simp [resultEffects, CheckResult.hasViolations, none, passed, summary, findingsTable, Effect.rows?]

theorem effectsOff (g : Graph) {s : Settings} (off : s.checkReentrant = false) :
    ∃ opening : LogRecord, opening.level ≠ .debug ∧ ∀ json, (checkGraph s json g).effects =
      if json then [.output (diagnosticsText [])] else [.log opening] := by
  have empty : diagnosticsText [] = "[]\n" := rfl
  refine ⟨.warning "Reentrancy check disabled by configuration (check_reentrant = false).", ?_, fun json => ?_⟩
  · simp [LogRecord.warning]
  · simp [checkGraph, off, empty]

theorem effectsOn {g : Graph} {s : Settings} {run : CheckRun} (on : s.checkReentrant = true) (done : g.check s = .ok run) :
    ∃ opening : LogRecord, opening.level ≠ .debug ∧ ∀ json, (checkGraph s json g).effects =
      (if json then [] else [.log opening]) ++ eventEffects json run.events ++ resultEffects json run.result := by
  refine ⟨.info ("Checking " ++ toString g.size ++ " classes from " ++ toString g.staticOwners.length ++ " singletons..."), ?_,
    fun json => ?_⟩
  · simp [LogRecord.info]
  · simp [checkGraph, on, done]

theorem checkGraphTells {s : Settings} {g : Graph} {run : CheckRun} (done : g.check s = .ok run) :
    Tells run.result.diagnostics (checkGraph s true g) (checkGraph s false g) := by
  cases on : s.checkReentrant with
  | false =>
    have off := Graph.checkOff g on g.staticOwners
    cases Except.ok.inj (off.symm.trans done)
    obtain ⟨opening, level, effects⟩ := effectsOff g on
    refine ⟨⟨diagnosticsText [], ?_, diagnosticsRead []⟩, ⟨opening, [], ?_, .inl rfl⟩, ?_⟩
    · rw [effects]
      rfl
    · rw [effects, if_neg (by decide), recordsLog, if_neg level]
      rfl
    · rw [effects]
      rfl
  | true =>
    obtain ⟨opening, level, effects⟩ := effectsOn on done
    obtain ⟨w, scanned⟩ := Graph.checkDone on done
    have told : run.result.diagnostics = run.events.filterMap Event.diagnostic? := by
      cases Except.ok.inj ((Graph.checkOn on scanned).symm.trans done)
      rfl
    refine ⟨⟨diagnosticsText run.result.diagnostics, ?_, diagnosticsRead _⟩,
      ⟨opening, recordsOf (resultEffects false run.result), ?_, ?_⟩, ?_⟩
    · rw [effects, List.filterMap_append, List.filterMap_append, eventOutputs]
      rfl
    · rw [effects, if_neg (by decide), List.append_assoc, List.singleton_append, recordsLog, if_neg level, recordsAppend, eventRecords,
        ← told]
    · rw [resultRecords]
      split
      · exact .inr rfl
      · exact .inl rfl
    · rw [effects, List.filterMap_append, List.filterMap_append, eventRows, resultRows]
      rfl

theorem refusedOrChecked [CharacterNames] {t : FileTree} {paths : List FilePath} {trace : Option Bool} {severity : Option String}
    (settings : ∀ e, Settings.load t (t.searchPath paths) (overrides trace severity) = .error e → e.isBadValue = true)
    (inputs : ∀ s e, Settings.load t (t.searchPath paths) (overrides trace severity) = .ok s → t.inputGraph s paths = .error e →
      e.isRefusal = true) :
    (∃ message, (∀ json, runCheck t paths trace severity json = .refuse message) ∧
      ((∃ e, Settings.load t (t.searchPath paths) (overrides trace severity) = .error e) ∨
        ∃ s e, Settings.load t (t.searchPath paths) (overrides trace severity) = .ok s ∧ t.inputGraph s paths = .error e)) ∨
    ∃ s g run, Settings.load t (t.searchPath paths) (overrides trace severity) = .ok s ∧ t.inputGraph s paths = .ok g ∧
      g.check s = .ok run ∧ ∀ json, runCheck t paths trace severity json = checkGraph s json g := by
  cases runCheckCourse t paths trace severity with
  | misshapen failed broken =>
    rw [settings _ failed] at broken
    cases broken
  | badSettings failed _ ends => exact .inl ⟨_, ends, .inl ⟨_, failed⟩⟩
  | stumbled found failed broken =>
    rw [inputs _ _ found failed] at broken
    cases broken
  | refused found failed _ ends => exact .inl ⟨_, ends, .inr ⟨_, _, found, failed⟩⟩
  | checked found made done ends => exact .inr ⟨_, _, _, found, made, done, ends⟩

/-- Where settings and inputs are accepted or refused, the check of inputs ends with the same exit code in both modes: with 1 if they
are refused, or if the check is on, findings are errors, and a mutable member is reachable; with 0 otherwise. The severity of
findings is the one given with the command, else that of the project file, else error. In the two modes the findings of the one
check are told in the same order; without a graph both tell the same. -/
theorem modesAgree [CharacterNames] (t : FileTree) (paths : List FilePath) (trace : Option Bool) (severity : Option String)
    (settings : ∀ e, Settings.load t (t.searchPath paths) (overrides trace severity) = .error e → e.isBadValue = true)
    (inputs : ∀ s e, Settings.load t (t.searchPath paths) (overrides trace severity) = .ok s → t.inputGraph s paths = .error e →
      e.isRefusal = true) :
    let o := runCheck t paths trace severity
    let loaded := Settings.load t (t.searchPath paths) (overrides trace severity)
    (∃ code, (o true).ending = .ok code ∧ (o false).ending = .ok code ∧ (code = 0 ∨ code = 1) ∧
      (code = 1 ↔ (∃ e, loaded = .error e) ∨ ∃ s, loaded = .ok s ∧ ((∃ e, t.inputGraph s paths = .error e) ∨
        ∃ g, t.inputGraph s paths = .ok g ∧ s.checkReentrant = true ∧ s.severity = .error ∧
          ∃ c m, (s.scanner g).Reached g.staticOwners c ∧ (s.scanner g).Exposed c m))) ∧
    (∀ s, loaded = .ok s → ∃ fields, Settings.sectionOf t (t.searchPath paths) = .ok fields ∧
      Settings.effectiveSeverity? severity fields = some s.severity) ∧
    (∀ s g, loaded = .ok s → t.inputGraph s paths = .ok g →
      ∃ run, g.check s = .ok run ∧ Tells run.result.diagnostics (o true) (o false)) ∧
    ((∀ s g, loaded = .ok s → t.inputGraph s paths ≠ .ok g) →
      (o true).effects = (o false).effects ∧ ∃ message, (o false).effects = [.log (.error message)]) := by
  intro o loaded
  refine ⟨?_, fun s found => Settings.loadSeverity found, ?_, ?_⟩
  · rcases refusedOrChecked settings inputs with ⟨message, ends, cause⟩ | ⟨s, g, run, found, made, done, ends⟩
    · refine ⟨1, by simp only [o, ends, Outcome.refuse], by simp only [o, ends, Outcome.refuse], .inr rfl, iff_of_true rfl ?_⟩
      rcases cause with failed | ⟨s, e, found, failed⟩
      · exact .inl failed
      · exact .inr ⟨s, found, .inl ⟨e, failed⟩⟩
    · refine ⟨exitCode run.result, ?_, ?_, exitCodes _, ?_⟩
      · simp only [o, ends, checkGraphEnds done]
      · simp only [o, ends, checkGraphEnds done]
      · rw [checkFails done]
        simp [loaded, found, made]
  · intro s g found made
    simp only [loaded] at found
    obtain ⟨run, done⟩ := FileTree.inputChecks made s
    have same (json : Bool) : o json = checkGraph s json g := by simp only [o, runCheck, found, made]
    rw [same, same]
    exact ⟨run, done, checkGraphTells done⟩
  · intro none
    rcases refusedOrChecked settings inputs with ⟨message, ends, _⟩ | ⟨s, g, _, found, made, _⟩
    · simp [o, ends, Outcome.refuse]
    · exact absurd made (none s g found)

/-- A module with an instance whose class has a list, in a project in which findings are warnings. -/
def listOwner : FileTree :=
  { entries := [(["m.py"], some "class A:\n    x = []\n\na = A()\n".toUTF8),
      (["pyproject.toml"], some "[tool.reentrancy_guard]\nseverity = \"warning\"\n".toUTF8)] }

/- The severity of the command wins: the finding is an error. -/
theorem listOwnerAgrees :
    let o := runCheck listOwner [.ofText "m.py"] none (some "error")
    (o true).ending = .ok 1 ∧ (o false).ending = .ok 1 ∧ ∃ ds, ds.length = 1 ∧ Tells ds (o true) (o false) := by
  intro o
  have loads : Settings.load listOwner (listOwner.searchPath [.ofText "m.py"]) (overrides none (some "error")) = .ok {} := by
    decide +kernel
  have counted : ((listOwner.inputGraph {} [.ofText "m.py"]).toOption.bind fun g => (g.check {}).toOption.map fun run =>
      (run.result.diagnostics.length, exitCode run.result)) = some (1, 1) := by decide +kernel
  cases made : listOwner.inputGraph {} [.ofText "m.py"] with
  | error e =>
    rw [made] at counted
    cases counted
  | ok g =>
    obtain ⟨⟨code, json, text, _⟩, _, tells, _⟩ := modesAgree listOwner [.ofText "m.py"] none (some "error")
      (fun e failed => by rw [loads] at failed; cases failed)
      (fun s e found failed => by
        rw [loads] at found
        cases found
        rw [made] at failed
        cases failed)
    obtain ⟨run, done, told⟩ := tells {} g loads made
    have course : o true = checkGraph {} true g := by simp only [o, runCheck, loads, made]
    have ends : (o true).ending = .ok (exitCode run.result) := by rw [course, checkGraphEnds done]
    cases Except.ok.inj (ends.symm.trans json)
    rw [made] at counted
    simp only [Except.toOption, Option.bind_some, done, Option.map_some, Option.some.injEq, Prod.mk.injEq] at counted
    rw [counted.2] at json text
    exact ⟨json, text, _, counted.1, told⟩

end Command
end SharedState
