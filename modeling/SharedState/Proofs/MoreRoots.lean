import SharedState.Proofs.Records
import Mathlib.Data.List.Infix

/-! More roots. All roots of a run share the visited classes, the ledger and the depth. A walk that has come back leaves these in a
state to which later walks only append, so a run from more roots begins with the run from the first ones. -/
namespace SharedState

namespace Walk

structure Continues (w w' : Walk) : Prop where
  visited : w.visited <+: w'.visited
  ledger : w.ledger.entries <+: w'.ledger.entries
  events : w.events <+: w'.events

theorem continuesSame (w : Walk) : w.Continues w :=
  ⟨List.prefix_rfl, List.prefix_rfl, List.prefix_rfl⟩

end Walk

namespace Scanner

variable {sc : Scanner}

theorem flagContinues (sc : Scanner) (c m : Symbol) (w : Walk) : w.Continues (sc.flag c m w) := by
  by_cases old : m ∈ w.flagged
  · rw [flagOld old]
    exact w.continuesSame
  · rw [flagNew old]
    refine ⟨by simp, by simp, ?_⟩
    unfold report
    split
    · exact List.prefix_rfl
    · exact List.prefix_append _ _

theorem continuesKept (sc : Scanner) (start : Walk) : Kept sc start.Continues where
  entering s w before := by
    refine ⟨before.visited, before.ledger, before.events.trans ?_⟩
    unfold enter
    cases sc.reporter.tracing
    · exact List.prefix_rfl
    · exact List.prefix_append _ _
  leaving w before := ⟨before.visited, before.ledger, before.events⟩
  marking c w before := ⟨before.visited.trans (List.prefix_append _ _), before.ledger, before.events⟩
  flagging c m w _ before := by
    have step := flagContinues sc c m w
    exact ⟨before.visited.trans step.visited, before.ledger.trans step.ledger, before.events.trans step.events⟩

theorem walksContinue (sc : Scanner) (roots : List Symbol) (w : Walk) : w.Continues (roots.foldl (fun w r => sc.walk r w) w) :=
  List.foldlRecOn roots _ w.continuesSame fun v before r _ => visitClassKept (continuesKept sc w) _ v r before

end Scanner

/-- An outlet that keeps the calls of the sink and the lines of the log. -/
def Outlet.transcript : Outlet (List SinkCall × List String) where
  sink := some fun c kept => (kept.1 ++ [c], kept.2)
  log line kept := (kept.1, kept.2 ++ [line])

theorem Outlet.transcriptHears (es : List Event) (kept : List SinkCall × List String) :
    es.foldl Outlet.transcript.hear kept =
      (kept.1 ++ es.filterMap Event.sinkCall?, kept.2 ++ es.filterMap Event.traceLine?) := by
  induction es generalizing kept with
  | nil => simp
  | cons e es ih =>
    rw [List.foldl_cons, ih]
    cases e <;>
      simp [Outlet.hear, Outlet.call, Outlet.transcript, Symbol.scanLine, Event.sinkCall?, Event.traceLine?, List.filterMap_cons]

/-- What the first run has done and told is the beginning of what the second one has. -/
structure Tour.Begins (t t' : Tour (Desk (List SinkCall × List String))) : Prop where
  visited : t.visited <+: t'.visited
  ledger : t.ledger.entries <+: t'.ledger.entries
  diagnostics : t.told.diagnostics <+: t'.told.diagnostics
  calls : t.told.world.1 <+: t'.told.world.1
  lines : t.told.world.2 <+: t'.told.world.2

namespace Graph

theorem walkedContinues (g : Graph) (s : Settings) (roots more : List Symbol) :
    (g.walked s roots).Continues (g.walked s (roots ++ more)) := by
  unfold walked
  rw [List.takeWhile_append]
  split
  · rename_i whole
    rw [(List.takeWhile_sublist _).eq_of_length whole, Scanner.walkAll, Scanner.walkAll, List.foldl_append]
    exact Scanner.walksContinue _ _ _
  · exact Walk.continuesSame _

theorem transcriptSeen {s : Settings} (on : s.checkReentrant = true) (g : Graph) (roots : List Symbol) :
    (g.watch s .transcript roots ([], [])).told.world =
      ((g.walked s roots).events.filterMap Event.sinkCall?, (g.walked s roots).events.filterMap Event.traceLine?) := by
  rw [watchSeen g on]
  exact Outlet.transcriptHears _ _

theorem watchBegins (g : Graph) (s : Settings) (roots more : List Symbol) :
    (g.watch s .transcript roots ([], [])).Begins (g.watch s .transcript (roots ++ more) ([], [])) := by
  cases on : s.checkReentrant with
  | false =>
    have same : g.watch s .transcript (roots ++ more) ([], []) = g.watch s .transcript roots ([], []) := by simp [watch, on]
    rw [same]
    exact ⟨List.prefix_rfl, List.prefix_rfl, List.prefix_rfl, List.prefix_rfl, List.prefix_rfl⟩
  | true =>
    have continues := walkedContinues g s roots more
    refine ⟨?_, ?_, ?_, ?_, ?_⟩
    · rw [watchSeen g on, watchSeen g on]
      exact continues.visited
    · rw [watchSeen g on, watchSeen g on]
      exact continues.ledger
    · rw [watchSeen g on, watchSeen g on]
      exact continues.events.filterMap _
    · rw [transcriptSeen on, transcriptSeen on]
      exact continues.events.filterMap _
    · rw [transcriptSeen on, transcriptSeen on]
      exact continues.events.filterMap _

theorem transcriptTold (g : Graph) {s : Settings} {roots : List Symbol} {run : CheckRun} (ends : g.checkFrom s roots = .ok run) :
    (g.watch s .transcript roots ([], [])).told.world =
      (run.events.filterMap Event.sinkCall?, run.events.filterMap Event.traceLine?) := by
  cases on : s.checkReentrant with
  | false =>
    rw [checkOff g on] at ends
    cases Except.ok.inj ends
    simp [watch, on]
  | true =>
    rw [checkWalked g on] at ends
    rw [transcriptSeen on]
    split at ends
    · cases ends
    · cases Except.ok.inj ends
      rfl

/-- A run from more classes begins with the run from the first ones: the same classes, findings, calls of a sink and trace lines, and
then the others. Where the first run breaks off, the longer one breaks off with it. If the further roots are exempt or visited by
then, they add nothing at all. What is watched here is what the check of the two lists of roots gives. -/
theorem moreRootsExtend (g : Graph) (s : Settings) (roots more : List Symbol)
    (classes : ∀ r ∈ roots ++ more, r.isClass = true) :
    let t := g.watch s .transcript roots ([], [])
    let t' := g.watch s .transcript (roots ++ more) ([], [])
    t.Begins t' ∧ (t.failed.isSome = true → t' = t) ∧
    ((∀ r ∈ more, s.exemption.covers r = true ∨ r ∈ t.visited) → t' = t) ∧
    t.result s roots = (g.checkFrom s roots).map (·.result) ∧
    t'.result s (roots ++ more) = (g.checkFrom s (roots ++ more)).map (·.result) ∧
    (∀ run, g.checkFrom s roots = .ok run →
      t.told.world = (run.events.filterMap Event.sinkCall?, run.events.filterMap Event.traceLine?)) ∧
    ∀ run, g.checkFrom s (roots ++ more) = .ok run →
      t'.told.world = (run.events.filterMap Event.sinkCall?, run.events.filterMap Event.traceLine?) := by
  intro t t'
  have later : ∀ r ∈ more, r.isClass = true := fun r listed => classes r (List.mem_append_right _ listed)
  exact ⟨watchBegins g s roots more, fun failed => watchFailed g s _ failed more, fun covered => watchCovered g s _ later covered,
    watchResult g s _ roots _, watchResult g s _ (roots ++ more) _, fun _ ends => transcriptTold g ends,
    fun _ ends => transcriptTold g ends⟩

/- The second class is visited on the way from the first, the third one is exempt; only the fourth adds anything. -/
theorem mutualParentsExtended :
    let classes := mutualParents.entries.map (·.symbol)
    let run (roots : List Symbol) := mutualParents.watch { trace := true } .transcript roots ([], [])
    (run (classes.take 1)).visited.length = 2 ∧ (run (classes.take 1 ++ classes.drop 1)).visited.length = 3 ∧
      (run (classes.take 1)).Begins (run (classes.take 1 ++ classes.drop 1)) ∧
      run (classes.take 1 ++ (classes.drop 1).take 2) = run (classes.take 1) := by
  intro classes run
  have extended := moreRootsExtend mutualParents { trace := true } (classes.take 1) (classes.drop 1) (by decide)
  have same := moreRootsExtend mutualParents { trace := true } (classes.take 1) ((classes.drop 1).take 2) (by decide)
  exact ⟨by decide +kernel, by decide +kernel, extended.1, same.2.2.1 (by decide +kernel)⟩

end Graph
end SharedState
