import SharedState.Console
import SharedState.Proofs.Observers
import SharedState.Proofs.OutputModes

/-! What the check of inputs tells with JSON output: one array at the end, and before it the trace. Findings are not logged then, but
a trace that is asked for is, and it goes to the same place as the array. -/
namespace SharedState

namespace Settings

/-- Whether there is a trace: as is given first, else as the section says, else there is none. -/
def effectiveTrace? (given : Option Bool) (fields : Schema.Fields) : Option Bool :=
  match given with
  | some b => some b
  | none =>
    match valueOf? "trace" fields with
    | some d => (Schema.bool d).toOption
    | none => some false

theorem traceChecked {fields : Schema.Fields} {s : Settings} (done : ofFields fields = .ok s) :
    effectiveTrace? none fields = some s.trace := by
  simp only [ofFields, Checked.andThenOk, Checked.andOk] at done
  obtain ⟨parts, ⟨_, trace, _⟩, distinct⟩ := done
  unfold distinctMarkers at distinct
  split at distinct
  · simp at distinct
  · cases Except.ok.inj distinct
    unfold Schema.field at trace
    unfold effectiveTrace?
    cases found : valueOf? "trace" fields with
    | none =>
      rw [found] at trace
      exact congrArg some (Except.ok.inj trace)
    | some d =>
      rw [found] at trace
      simp only [Checked.underOk] at trace
      simp only [trace, Except.toOption]

theorem loadTrace {t : FileTree} {search : Option FilePath} {trace : Option Bool} {severity : Option String} {s : Settings}
    (loaded : load t search (Command.overrides trace severity) = .ok s) :
    ∃ fields, sectionOf t search = .ok fields ∧ effectiveTrace? trace fields = some s.trace := by
  obtain ⟨fields, found, made⟩ := loadChecked loaded
  have effective := traceChecked made
  refine ⟨fields, found, ?_⟩
  unfold effectiveTrace? at effective ⊢
  cases trace <;> cases severity <;> simpa [Command.overrides, valueOfBind, Schema.bool, Except.toOption] using effective

end Settings

namespace Scanner

variable {sc : Scanner} {roots : List Symbol}

theorem enterKeeps (s : Symbol) (w : Walk) : ∀ e ∈ w.events, e ∈ (sc.enter s w).events := by
  intro e told
  unfold enter
  split
  · exact List.mem_append_left _ told
  · exact told

theorem flagKeeps (c m : Symbol) (w : Walk) : ∀ e ∈ w.events, e ∈ (sc.flag c m w).events := by
  intro e told
  by_cases old : m ∈ w.flagged
  · rw [flagOld old]
    exact told
  · rw [flagNew old]
    unfold report
    split
    · exact told
    · exact List.mem_append_left _ told

theorem visitedTold (tracing : sc.reporter.tracing = true) {w : Walk} (moves : Moves sc roots {} w) :
    ∀ c ∈ w.visited, ∃ depth, .scanning c depth ∈ w.events := by
  induction moves with
  | refl => simp
  | @tail v w _ last ih =>
    intro c inside
    cases last with
    | visit d =>
      rcases List.mem_append.mp inside with before | new
      · obtain ⟨depth, told⟩ := ih c before
        exact ⟨depth, enterKeeps d { v with visited := v.visited ++ [d] } _ told⟩
      · cases List.mem_singleton.mp new
        exact ⟨v.depth, by simp [enter, tracing]⟩
    | follow m =>
      obtain ⟨depth, told⟩ := ih c inside
      exact ⟨depth, enterKeeps m v _ told⟩
    | leave => exact ih c inside
    | flag d m =>
      rw [flagVisited] at inside
      obtain ⟨depth, told⟩ := ih c inside
      exact ⟨depth, flagKeeps d m v _ told⟩

theorem scanExempt {rs : List Symbol} (exempt : ∀ r ∈ rs, sc.exemption.covers r = true) {w w' : Walk}
    (done : rs.foldlM sc.scan w = .ok w') : w' = w := by
  induction rs with
  | nil => exact (Except.ok.inj done).symm
  | cons r rest ih =>
    rw [List.foldlM_cons] at done
    obtain ⟨v, step, done⟩ := bindOk done
    obtain ⟨_, rfl, _⟩ := scanStep step
    have idle : sc.walk r w = w := visitClassIdle (.inr (exempt r (by simp)))
    rw [idle] at done
    exact ih (fun x member => exempt x (by simp [member])) done

end Scanner

def CheckRun.traceRecords (run : CheckRun) : List LogRecord := (run.events.filterMap Event.traceLine?).map .trace

namespace Graph

variable {g : Graph} {s : Settings} {run : CheckRun}

theorem lineScanned {events : List Event} : events.filterMap Event.traceLine? = [] ↔ ∀ c depth, .scanning c depth ∉ events := by
  rw [List.filterMap_eq_nil_iff]
  constructor
  · intro none c depth told
    cases none _ told
  · intro none e told
    cases e with
    | scanning c depth => exact absurd told (none c depth)
    | finding d => rfl

theorem untraced (done : g.check s = .ok run) :
    run.traceRecords = [] ↔
      s.checkReentrant = false ∨ s.trace = false ∨ ∀ c ∈ g.staticOwners, s.exemption.covers c = true := by
  rw [CheckRun.traceRecords, List.map_eq_nil_iff]
  cases on : s.checkReentrant with
  | false =>
    have off := checkOff g on g.staticOwners
    cases Except.ok.inj (off.symm.trans done)
    simp
  | true =>
    obtain ⟨w, scanned⟩ := checkDone on done
    cases Except.ok.inj ((checkOn on scanned).symm.trans done)
    obtain ⟨moves, _, _, started⟩ := Scanner.scanEnded g.staticOwners (fun _ h => h) rfl scanned
    rw [lineScanned]
    constructor
    · intro silent
      cases tracing : s.trace with
      | false => exact .inr (.inl rfl)
      | true =>
        refine .inr (.inr fun c owner => (started c owner).resolve_right fun visited => ?_)
        obtain ⟨depth, told⟩ := Scanner.visitedTold tracing moves c visited
        exact silent c depth told
    · rintro (impossible | off | exempt) c depth told
      · cases impossible
      · have tracing : s.trace = true := Scanner.movesTell moves _ told
        rw [off] at tracing
        cases tracing
      · rw [Scanner.scanExempt exempt scanned] at told
        cases told

/- Trace records have the level that trace lines are let through at, if there is a trace at all. -/
theorem tracePasses (done : g.check s = .ok run) :
    ∀ r ∈ run.traceRecords, ∀ c : Console, r.level = (c.setTracing s.trace).traceLevel := by
  intro r listed c
  have asked : s.trace = true := by
    by_contra off
    rw [(untraced done).mpr (.inr (.inl (by simpa using off)))] at listed
    cases listed
  obtain ⟨line, _, rfl⟩ := List.mem_map.mp listed
  simp [LogRecord.trace, Console.setTracing, Console.traceLevel, asked]

end Graph

namespace Command

theorem eventTrace (events : List Event) :
    eventEffects true events = ((events.filterMap Event.traceLine?).map .trace).map .log := by
  induction events with
  | nil => rfl
  | cons e events ih =>
    cases e with
    | scanning c depth => exact congrArg (_ :: ·) ih
    | finding d => exact ih

theorem jsonEffects {s : Settings} {g : Graph} {run : CheckRun} (done : g.check s = .ok run) :
    (checkGraph s true g).effects = run.traceRecords.map .log ++ [.output (diagnosticsText run.result.diagnostics)] := by
  cases on : s.checkReentrant with
  | false =>
    have off := Graph.checkOff g on g.staticOwners
    cases Except.ok.inj (off.symm.trans done)
    obtain ⟨_, _, effects⟩ := effectsOff g on
    exact effects true
  | true =>
    obtain ⟨_, _, effects⟩ := effectsOn on done
    rw [effects, eventTrace]
    rfl

/-- With JSON output the check of inputs prints one array, of all that it finds, and what it logs is the trace and nothing else. So
nothing is logged if and only if the check is off, there is no trace, or no owner of a singleton is scanned. The trace is the one that
the command asks for, else that of the project file, and its records are let through. -/
theorem jsonBesideTrace [CharacterNames] (t : FileTree) (paths : List FilePath) (trace : Option Bool) (severity : Option String)
    {s : Settings} {g : Graph} (loaded : Settings.load t (t.searchPath paths) (overrides trace severity) = .ok s)
    (made : t.inputGraph s paths = .ok g) :
    ∃ run text, g.check s = .ok run ∧
      (runCheck t paths trace severity true).effects = run.traceRecords.map .log ++ [.output text] ∧
      Json.read text = some (.list (run.result.diagnostics.map diagnosticDatum)) ∧
      (run.traceRecords = [] ↔
        s.checkReentrant = false ∨ s.trace = false ∨ ∀ c ∈ g.staticOwners, s.exemption.covers c = true) ∧
      (∀ r ∈ run.traceRecords, ∀ c : Console, r.level = (c.setTracing s.trace).traceLevel) ∧
      ∃ fields, Settings.sectionOf t (t.searchPath paths) = .ok fields ∧ Settings.effectiveTrace? trace fields = some s.trace := by
  obtain ⟨run, done⟩ := FileTree.inputChecks made s
  have course : runCheck t paths trace severity true = checkGraph s true g := by simp only [runCheck, loaded, made]
  refine ⟨run, diagnosticsText run.result.diagnostics, done, ?_, diagnosticsRead _, Graph.untraced done, Graph.tracePasses done,
    Settings.loadTrace loaded⟩
  rw [course, jsonEffects done]

/-- A module with an instance whose class has a list. -/
def tracedOwner (project : String) : FileTree :=
  { entries := [(["m.py"], some "class A:\n    x = []\n\na = A()\n".toUTF8), (["pyproject.toml"], some project.toUTF8)] }

theorem tracedOwnerTold : ∃ (run : CheckRun) (text : String),
    (runCheck (tracedOwner "[tool.reentrancy_guard]\ntrace = true\n") [.ofText "m.py"] none none true).effects =
      run.traceRecords.map .log ++ [.output text] ∧
    run.traceRecords.map (·.message) = ["scanning class m.A"] ∧
    Json.read text = some (.list (run.result.diagnostics.map diagnosticDatum)) ∧ run.result.diagnostics.length = 1 := by
  let t := tracedOwner "[tool.reentrancy_guard]\ntrace = true\n"
  have loads : Settings.load t (t.searchPath [.ofText "m.py"]) (overrides none none) = .ok { trace := true } := by decide +kernel
  have counted : ((t.inputGraph { trace := true } [.ofText "m.py"]).toOption.bind fun g => (g.check { trace := true }).toOption.map
      fun run => (run.traceRecords.map (·.message), run.result.diagnostics.length)) = some (["scanning class m.A"], 1) := by
    decide +kernel
  cases made : t.inputGraph { trace := true } [.ofText "m.py"] with
  | error e =>
    rw [made] at counted
    cases counted
  | ok g =>
    obtain ⟨run, text, done, effects, read, _⟩ := jsonBesideTrace t [.ofText "m.py"] none none loads made
    rw [made] at counted
    simp only [Except.toOption, Option.bind_some, done, Option.map_some, Option.some.injEq, Prod.mk.injEq] at counted
    exact ⟨run, text, effects, counted.1, read, counted.2⟩

/- The trace is asked for by the command, then by the project file. -/
theorem jsonNotAlone :
    let told (trace : Option Bool) (project : String) :=
      let o := runCheck (tracedOwner project) [.ofText "m.py"] trace none true
      (o.effects.map fun e => (e.record?.map (·.message), e.output?.isSome), o.ending)
    told (some true) "" = ([(some "scanning class m.A", false), (none, true)], .ok 1) ∧
    told none "[tool.reentrancy_guard]\ntrace = true\n" = ([(some "scanning class m.A", false), (none, true)], .ok 1) := by
  decide +kernel

end Command
end SharedState
