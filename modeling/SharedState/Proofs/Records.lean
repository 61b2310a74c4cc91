import SharedState.Proofs.Observers

/-! The three records of a run: the ledger, the diagnostics, and the calls of a sink. Each is written at a place of its own, and
they stay in step: the same findings in the same order, and each symbol once. -/
namespace SharedState

def Outlet.recording : Outlet (List SinkCall) := { sink := some fun c calls => calls ++ [c] }

def Event.sinkCall? : Event → Option SinkCall
  | scanning _ _ => none
  | finding d => some ⟨d.severity, d.location, d.message⟩

namespace Violation

structure Told (severity : Severity) (v : Violation) (d : Diagnostic) (c : SinkCall) : Prop where
  symbol : d.symbol = v.symbol.qualifiedName
  location : d.location = v.symbol.location
  declared : v.declaredType = v.symbol.declaredType
  type : Diagnostic.typeText? v.declaredType = some d.declaredType
  message : d.message = Diagnostic.wording v.symbol d.declaredType
  rated : d.severity = severity
  call : c = ⟨severity, v.symbol.location, d.message⟩

structure AllTold (severity : Severity) (vs : List Violation) (ds : List Diagnostic) (cs : List SinkCall) : Prop where
  diagnostics : ds.length = vs.length
  calls : cs.length = vs.length
  each : ∀ (i : Nat) (v : Violation) d c, vs[i]? = some v → ds[i]? = some d → cs[i]? = some c → v.Told severity d c

end Violation

namespace Walk

/-- The findings that could be told. A walk halts at the first one that could not. -/
def settled (w : Walk) : List Violation := if w.halted then w.ledger.entries.dropLast else w.ledger.entries

structure InStep (severity : Severity) (w : Walk) : Prop where
  declared : ∀ v ∈ w.ledger.entries, v.declaredType = v.symbol.declaredType
  told : w.diagnostics.map some = w.settled.map (Diagnostic.ofViolation? severity)
  untold : w.halted = true → ∃ v, w.ledger.entries.getLast? = some v ∧ Diagnostic.typeText? v.declaredType = none

end Walk

namespace Scanner

/-- What every operation of a walk keeps. Nothing is flagged once the walk has halted. -/
structure Kept (sc : Scanner) (P : Walk → Prop) : Prop where
  entering : ∀ s w, P w → P (sc.enter s w)
  leaving : ∀ w, P w → P (leave w)
  marking : ∀ c w, P w → P { w with visited := w.visited ++ [c] }
  flagging : ∀ c m w, w.halted = false → P w → P (sc.flag c m w)

variable {sc : Scanner} {P : Walk → Prop}

theorem visitMemberKept (kept : Kept sc P) {visit : Walk → Symbol → Walk} (each : ∀ w d, P w → P (visit w d)) (c : Symbol) (w : Walk)
    (m : Symbol) (holds : P w) : P (sc.visitMember visit c w m) := by
  unfold visitMember
  split
  · exact holds
  · rename_i goes
    have running : w.halted = false := by
      simp only [Bool.or_eq_true, not_or, Bool.not_eq_true] at goes
      exact goes.1.1
    split
    · exact kept.flagging c m w running holds
    · split
      · exact kept.leaving _ (List.foldlRecOn _ _ (kept.entering m w holds) fun v before d _ => each v d before)
      · exact holds

theorem visitClassKept (kept : Kept sc P) (n : Nat) (w : Walk) (c : Symbol) (holds : P w) : P (sc.visitClass n w c) := by
  induction n generalizing w c with
  | zero => exact holds
  | succ n ih =>
    unfold visitClass
    split
    · exact holds
    · have members := List.foldlRecOn (sc.graph.members c) (sc.visitMember (sc.visitClass n) c)
        (kept.entering c _ (kept.marking c w holds)) fun v before m _ => visitMemberKept kept ih c v m before
      exact kept.leaving _ (List.foldlRecOn (sc.graph.parentClasses c) _ members fun v before d _ => ih v d before)

theorem walkAllKept (kept : Kept sc P) (roots : List Symbol) (start : P {}) : P (sc.walkAll roots) :=
  List.foldlRecOn roots _ start fun w before r _ => visitClassKept kept _ w r before

theorem flagInStep {w : Walk} (running : w.halted = false) (before : w.InStep sc.reporter.severity) (c m : Symbol) :
    (sc.flag c m w).InStep sc.reporter.severity := by
  by_cases old : m ∈ w.flagged
  · rwa [flagOld old]
  · have told := before.told
    simp only [Walk.settled, running, Bool.false_eq_true, if_false, Walk.diagnostics] at told
    rw [flagNew old]
    unfold report
    cases text : Diagnostic.ofViolation? sc.reporter.severity ⟨c, m, m.declaredType⟩ with
    | none =>
      -- the ledger has the finding already when its text turns out to be missing
      refine ⟨?_, ?_, fun _ => ⟨⟨c, m, m.declaredType⟩, by simp, ?_⟩⟩
      · simpa [or_imp, forall_and] using before.declared
      · simpa [Walk.settled, Walk.diagnostics] using told
      · simpa [Diagnostic.ofViolation?] using text
    | some d =>
      refine ⟨?_, ?_, fun halted => by simp [running] at halted⟩
      · simpa [or_imp, forall_and] using before.declared
      · simp [Walk.settled, running, Walk.diagnostics, Event.diagnostic?, told, text]

theorem inStepKept (sc : Scanner) : Kept sc (Walk.InStep sc.reporter.severity) where
  entering s w before := by
    refine ⟨before.declared, ?_, before.untold⟩
    rw [enterDiagnostics]
    exact before.told
  leaving w before := ⟨before.declared, before.told, before.untold⟩
  marking c w before := ⟨before.declared, before.told, before.untold⟩
  flagging c m w running before := flagInStep running before c m

end Scanner

theorem Outlet.recordingHears (es : List Event) (calls : List SinkCall) :
    es.foldl Outlet.recording.hear calls = calls ++ es.filterMap Event.sinkCall? := by
  induction es generalizing calls with
  | nil => simp
  | cons e es ih =>
    rw [List.foldl_cons, ih]
    cases e <;> simp [Outlet.hear, Outlet.call, Outlet.recording, Event.sinkCall?, List.filterMap_cons]

theorem Event.callsOfDiagnostics (es : List Event) : es.filterMap Event.sinkCall? =
    (es.filterMap Event.diagnostic?).map fun d => ⟨d.severity, d.location, d.message⟩ := by
  rw [List.map_filterMap]
  refine congrArg (es.filterMap ·) (funext fun e => ?_)
  cases e <;> rfl

theorem Walk.inStepStart {severity : Severity} : Walk.InStep severity {} :=
  ⟨by simp, by simp [settled, diagnostics], by simp⟩

theorem Walk.inStepTold {severity : Severity} {w : Walk} (inStep : w.InStep severity) :
    Violation.AllTold severity w.settled w.diagnostics (w.events.filterMap Event.sinkCall?) := by
  have length : w.diagnostics.length = w.settled.length := by simpa using congrArg List.length inStep.told
  have calls := Event.callsOfDiagnostics w.events
  refine ⟨length, by rw [calls, List.length_map]; exact length, fun i v d c violation diagnostic call => ?_⟩
  have rendered : Diagnostic.ofViolation? severity v = some d := by
    have place := congrArg (·[i]?) inStep.told
    simpa [violation, diagnostic, eq_comm] using place
  have listed : v ∈ w.ledger.entries := by
    have inside := List.mem_of_getElem? violation
    unfold settled at inside
    split at inside
    · exact List.dropLast_subset _ inside
    · exact inside
  have called : c = ⟨d.severity, d.location, d.message⟩ := by
    have place := congrArg (·[i]?) calls
    simp only [List.getElem?_map] at place
    rw [call] at place
    unfold diagnostics at diagnostic
    rw [diagnostic] at place
    exact Option.some.inj place
  obtain ⟨text, shown, rfl⟩ := Option.map_eq_some_iff.mp rendered
  exact ⟨rfl, rfl, inStep.declared v listed, shown, rfl, rfl, called⟩

namespace Observer

variable {σ : Type} {o : Observer σ} {g : Graph} {x : Exemption}

theorem flagAgain {t : Tour σ} {m : Symbol} (known : m ∈ t.ledger.entries.map (·.symbol)) (c : Symbol) : o.flag c m t = t := by
  have flags : t.ledger.flags m = true := by simpa [Ledger.flags] using known
  simp [flag, Ledger.record, flags]

theorem visitMemberAgain {t : Tour σ} {m : Symbol} (known : m ∈ t.ledger.entries.map (·.symbol)) (mutable : m.mutable = true)
    (visit : Tour σ → Symbol → Tour σ) (c : Symbol) : o.visitMember g x visit c t m = t := by
  simp [visitMember, mutable, flagAgain known]

theorem scanCovered {t : Tour σ} {r : Symbol} (isClass : r.isClass = true) (covered : x.covers r = true ∨ r ∈ t.visited) :
    o.scan g x t r = t := by
  have idle : (t.failed.isSome || t.visited.contains r || x.covers r) = true := by
    rcases covered with exempt | visited
    · simp [exempt]
    · simp [visited]
  simp only [scan, isClass, Bool.not_true, Bool.false_eq_true, if_false, visitClass, idle, if_true]
  exact ite_self t

end Observer

namespace Graph

variable {σ : Type}

theorem walkedInStep (g : Graph) (s : Settings) (roots : List Symbol) : (g.walked s roots).InStep s.severity :=
  Scanner.walkAllKept (Scanner.inStepKept (s.scanner g)) _ Walk.inStepStart

theorem walkedOnce (g : Graph) (s : Settings) (roots : List Symbol) : (g.walked s roots).flagged.Nodup :=
  (Scanner.movesSound (Scanner.walksMove (roots.takeWhile (·.isClass)) (fun _ h => h) {}) Scanner.soundStart).flaggedOnce

theorem faultText {w : Walk} {roots : List Symbol} : w.fault roots = some .typeWithoutText ↔ w.halted = true := by
  unfold Walk.fault
  cases w.halted <;> simp

theorem doneWalked {g : Graph} {s : Settings} {roots : List Symbol} {w : Walk} (done : roots.foldlM (s.scanner g).scan {} = .ok w) :
    g.walked s roots = w := by
  rw [walkedFault] at done
  split at done
  · cases done
  · exact Except.ok.inj done

theorem watchAppend (g : Graph) {s : Settings} (on : s.checkReentrant = true) (out : Outlet σ) (roots more : List Symbol) (world : σ) :
    g.watch s out (roots ++ more) world =
      more.foldl ((s.reporter.observer out).scan g s.exemption) (g.watch s out roots world) := by
  simp [watch, on]

theorem watchFailed (g : Graph) (s : Settings) (out : Outlet σ) {roots : List Symbol} {world : σ}
    (failed : (g.watch s out roots world).failed.isSome = true) (more : List Symbol) :
    g.watch s out (roots ++ more) world = g.watch s out roots world := by
  cases on : s.checkReentrant with
  | false => simp [watch, on]
  | true => rw [watchAppend g on, Scanner.scanIdle _ _ _ failed]

theorem watchCovered (g : Graph) (s : Settings) (out : Outlet σ) {roots more : List Symbol} {world : σ}
    (classes : ∀ r ∈ more, r.isClass = true)
    (covered : ∀ r ∈ more, s.exemption.covers r = true ∨ r ∈ (g.watch s out roots world).visited) :
    g.watch s out (roots ++ more) world = g.watch s out roots world := by
  cases on : s.checkReentrant with
  | false => simp [watch, on]
  | true =>
    rw [watchAppend g on]
    refine List.foldlRecOn (motive := (· = g.watch s out roots world)) more _ rfl fun t same r listed => ?_
    rw [same]
    exact Observer.scanCovered (classes r listed) (covered r listed)

/- A run that came to an end has visited its roots or left them out for good; one that broke off stays where it is. -/
theorem watchAgain (g : Graph) (s : Settings) (out : Outlet σ) {roots again : List Symbol} (among : again ⊆ roots) (world : σ) :
    g.watch s out (roots ++ again) world = g.watch s out roots world := by
  cases on : s.checkReentrant with
  | false => simp [watch, on]
  | true =>
    cases fault : (g.walked s roots).fault roots with
    | some e => exact watchFailed g s out (by simp [watchSeen g on, fault]) again
    | none =>
      have scanned : roots.foldlM (s.scanner g).scan {} = .ok (g.walked s roots) := by rw [walkedFault, fault]
      obtain ⟨_, _, running, covered⟩ := Scanner.scanEnded roots (fun _ h => h) rfl scanned
      have classes : ∀ r ∈ roots, r.isClass = true := by simpa [Walk.fault, running] using fault
      refine watchCovered g s out (fun r listed => classes r (among listed)) fun r listed => ?_
      rw [watchSeen g on]
      exact covered r (among listed)

theorem recordsRead (g : Graph) (s : Settings) (roots : List Symbol) :
    let t := g.watch s .recording roots []
    ∃ w : Walk, w.InStep s.severity ∧ w.flagged.Nodup ∧ t.ledger = w.ledger ∧ t.told.diagnostics = w.diagnostics ∧
      t.told.world = w.events.filterMap Event.sinkCall? ∧ (t.failed = some .typeWithoutText ↔ w.halted = true) := by
  intro t
  cases on : s.checkReentrant with
  | false =>
    have idle : t = { told := { world := [] } } := by simp [t, watch, on]
    rw [idle]
    exact ⟨{}, Walk.inStepStart, List.nodup_nil, rfl, rfl, rfl, by simp⟩
  | true =>
    have seen : t = _ := watchSeen g on .recording roots []
    rw [seen]
    exact ⟨g.walked s roots, walkedInStep g s roots, walkedOnce g s roots, rfl, rfl, Outlet.recordingHears _ [], faultText⟩

theorem checkRecords (g : Graph) {s : Settings} {roots : List Symbol} {run : CheckRun} (ends : g.checkFrom s roots = .ok run) :
    let t := g.watch s .recording roots []
    t.failed = none ∧ run.result.diagnostics = t.told.diagnostics ∧ run.events.filterMap Event.sinkCall? = t.told.world := by
  intro t
  cases on : s.checkReentrant with
  | false =>
    have idle : t = { told := { world := [] } } := by simp [t, watch, on]
    rw [checkOff g on] at ends
    cases Except.ok.inj ends
    rw [idle]
    exact ⟨rfl, rfl, rfl⟩
  | true =>
    have seen : t = _ := watchSeen g on .recording roots []
    rw [checkWalked g on] at ends
    cases fault : (g.walked s roots).fault roots with
    | some e => rw [fault] at ends; cases ends
    | none =>
      rw [fault] at ends seen
      cases Except.ok.inj ends
      rw [seen]
      exact ⟨rfl, rfl, (Outlet.recordingHears _ []).symm⟩

/-- The ledger has no symbol twice, and the ledger, the diagnostics and the calls of a sink agree place by place, however the run
ends: only where it breaks off at a finding that cannot be told does the ledger have this one finding more. These are the
diagnostics and the findings of the check. A symbol that is flagged, and a root that is given again, add to none of the three. -/
theorem recordsAgree (g : Graph) (s : Settings) (roots : List Symbol) :
    let t := g.watch s .recording roots []
    (t.ledger.entries.map (·.symbol)).Nodup ∧
    (t.failed ≠ some .typeWithoutText → Violation.AllTold s.severity t.ledger.entries t.told.diagnostics t.told.world) ∧
    (t.failed = some .typeWithoutText →
      Violation.AllTold s.severity t.ledger.entries.dropLast t.told.diagnostics t.told.world ∧
      ∃ v, t.ledger.entries.getLast? = some v ∧ Diagnostic.typeText? v.declaredType = none) ∧
    (∀ w, s.checkReentrant = true → roots.foldlM (s.scanner g).scan {} = .ok w → t.ledger = w.ledger) ∧
    (∀ run, g.checkFrom s roots = .ok run → t.failed = none ∧ run.result.diagnostics = t.told.diagnostics ∧
      run.events.filterMap Event.sinkCall? = t.told.world) ∧
    (∀ (u : Tour (Desk (List SinkCall))) visit c m, m ∈ u.ledger.entries.map (·.symbol) → m.mutable = true →
      (s.reporter.observer .recording).visitMember g s.exemption visit c u m = u) ∧
    ∀ again ⊆ roots, g.watch s .recording (roots ++ again) [] = t := by
  intro t
  obtain ⟨w, inStep, once, ledger, diagnostics, calls, broken⟩ : ∃ w : Walk, _ := recordsRead g s roots
  have told := Walk.inStepTold inStep
  refine ⟨?_, fun ends => ?_, fun breaks => ?_, fun w on done => ?_, fun run ends => checkRecords g ends,
    fun u visit c m known mutable => Observer.visitMemberAgain known mutable visit c,
    fun again among => watchAgain g s _ among []⟩
  · rw [ledger]
    exact once
  · have running : w.halted = false := by simpa using mt broken.mpr ends
    rw [ledger, diagnostics, calls]
    simpa only [Walk.settled, running, Bool.false_eq_true, if_false] using told
  · have halted := broken.mp breaks
    rw [ledger, diagnostics, calls]
    refine ⟨?_, inStep.untold halted⟩
    simpa only [Walk.settled, halted, if_true] using told
  · have seen : t = _ := watchSeen g on .recording roots []
    rw [seen, ← doneWalked done]
    rfl

/-- Two classes that list one and the same symbol; the second one is reached from the first. -/
def sharedCell : Graph :=
  let cell : Symbol := { serial := 0, name := "cell", kind := .field, declaredType := some (.named "list"), mutable := true }
  let next : Symbol := { serial := 1, name := "next", kind := .field, declaredType := some (.named "B") }
  let a : Symbol := { serial := 2, name := "A", kind := .plainClass }
  let b : Symbol := { serial := 3, name := "B", kind := .plainClass }
  { entries := [⟨a, [cell, next], []⟩, ⟨b, [cell], []⟩], staticOwners := [a, b] }

theorem sharedCellRecorded :
    let t := sharedCell.watch {} .recording sharedCell.staticOwners []
    t.visited.length = 2 ∧ t.ledger.entries.length = 1 ∧
      Violation.AllTold .error t.ledger.entries t.told.diagnostics t.told.world ∧
      sharedCell.watch {} .recording (sharedCell.staticOwners ++ sharedCell.staticOwners) [] = t := by
  obtain ⟨_, told, _, _, _, _, again⟩ := recordsAgree sharedCell {} sharedCell.staticOwners
  exact ⟨by decide +kernel, by decide +kernel, told (by decide +kernel), again _ (fun _ h => h)⟩

end Graph
end SharedState
