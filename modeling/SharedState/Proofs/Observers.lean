import SharedState.Proofs.Trace

/-! Those who look on. A walk tells an observer which symbols it scans and what it finds; the observer has a state of its own and
may keep and pass on whatever it likes. A reporter is such an observer: it keeps diagnostics, calls a sink if it has one, and
writes trace lines if it is asked to. Where the walk goes and what it finds does not depend on any of this. -/
namespace SharedState

structure SinkCall where
  severity : Severity
  location : Option Location
  message : String
  deriving DecidableEq, Repr

/-- An observer need not be able to tell a finding; then the walk breaks off. -/
structure Observer (σ : Type) where
  scanning : Symbol → Nat → σ → σ
  found : Violation → σ → Option σ

structure Tour (σ : Type) where
  visited : List Symbol := []
  ledger : Ledger := {}
  depth : Nat := 0
  told : σ
  failed : Option CheckError := none

namespace Observer

variable {σ : Type}

def enter (o : Observer σ) (s : Symbol) (t : Tour σ) : Tour σ :=
  { t with depth := t.depth + 1, told := o.scanning s t.depth t.told }

def leave (t : Tour σ) : Tour σ := { t with depth := t.depth - 1 }

def flag (o : Observer σ) (cls member : Symbol) (t : Tour σ) : Tour σ :=
  match t.ledger.record { owner := cls, symbol := member, declaredType := member.declaredType } with
  | (none, _) => t
  | (some v, ledger) =>
    match o.found v t.told with
    | none => { t with ledger, failed := some .typeWithoutText }
    | some told => { t with ledger, told }

def visitMember (o : Observer σ) (g : Graph) (x : Exemption) (visit : Tour σ → Symbol → Tour σ) (cls : Symbol) (t : Tour σ)
    (member : Symbol) : Tour σ :=
  if t.failed.isSome || Scanner.skipped member.kind || x.covers member then t
  else if member.mutable then o.flag cls member t
  else if Scanner.followed member.kind then
    leave ((g.typeClasses member.declaredType).foldl visit (o.enter member t))
  else t

def visitClass (o : Observer σ) (g : Graph) (x : Exemption) : Nat → Tour σ → Symbol → Tour σ
  | 0, t, _ => t
  | n + 1, t, cls =>
    if t.failed.isSome || t.visited.contains cls || x.covers cls then t
    else
      let entered := o.enter cls { t with visited := t.visited ++ [cls] }
      let withMembers := (g.members cls).foldl (o.visitMember g x (o.visitClass g x n) cls) entered
      leave ((g.parentClasses cls).foldl (o.visitClass g x n) withMembers)

def scan (o : Observer σ) (g : Graph) (x : Exemption) (t : Tour σ) (root : Symbol) : Tour σ :=
  if t.failed.isSome then t
  else if !root.isClass then { t with failed := some (.rootNotAClass root) }
  else o.visitClass g x (g.size + 1) t root

end Observer

/-! What observers make of the events of a walk. -/

def Walk.seen {σ : Type} (read : List Event → σ) (w : Walk) : Tour σ where
  visited := w.visited
  ledger := w.ledger
  depth := w.depth
  told := read w.events
  failed := if w.halted then some .typeWithoutText else none

/-- The state of an observer can be read off the events of a walk with this reporter. -/
structure Reporter.ReadBy {σ : Type} (p : Reporter) (o : Observer σ) (read : List Event → σ) : Prop where
  scanning : ∀ s depth es, o.scanning s depth (read es) = read (if p.tracing then es ++ [.scanning s depth] else es)
  found : ∀ v es, o.found v (read es) = (Diagnostic.ofViolation? p.severity v).map fun d => read (es ++ [.finding d])

def Walk.fault (w : Walk) (roots : List Symbol) : Option CheckError :=
  if w.halted then some .typeWithoutText else (roots.find? fun r => !r.isClass).map .rootNotAClass

namespace Scanner

variable {σ : Type} {sc : Scanner} {o : Observer σ} {read : List Event → σ}

@[simp] theorem seenFailed (read : List Event → σ) (w : Walk) : (w.seen read).failed.isSome = w.halted := by
  cases halted : w.halted <;> simp [Walk.seen, halted]

theorem enterSeen (reads : sc.reporter.ReadBy o read) (s : Symbol) (w : Walk) :
    o.enter s (w.seen read) = (sc.enter s w).seen read := by
  have told := reads.scanning s w.depth w.events
  simp only [Observer.enter, Walk.seen, told]
  rfl

theorem flagSeen (reads : sc.reporter.ReadBy o read) (c m : Symbol) (w : Walk) :
    o.flag c m (w.seen read) = (sc.flag c m w).seen read := by
  unfold Observer.flag flag
  change (match w.ledger.record _ with | (none, _) => _ | (some v, ledger) => _) = _
  cases w.ledger.record { owner := c, symbol := m, declaredType := m.declaredType } with
  | mk new ledger =>
    cases new with
    | none => rfl
    | some v =>
      have found := reads.found v w.events
      simp only [report]
      cases told : Diagnostic.ofViolation? sc.reporter.severity v with
      | none =>
        rw [told] at found
        simp [Walk.seen, found]
      | some d =>
        rw [told] at found
        simp [Walk.seen, found]

theorem visitMemberSeen (reads : sc.reporter.ReadBy o read) {visit : Walk → Symbol → Walk} {visit' : Tour σ → Symbol → Tour σ}
    (each : ∀ w d, visit' (w.seen read) d = (visit w d).seen read) (c : Symbol) (w : Walk) (m : Symbol) :
    o.visitMember sc.graph sc.exemption visit' c (w.seen read) m = (sc.visitMember visit c w m).seen read := by
  -- all branches are read alike, so the case distinctions can stay unopened
  unfold Observer.visitMember visitMember
  rw [seenFailed, enterSeen reads, flagSeen reads, List.foldl_hom (Walk.seen read) each, apply_ite (Walk.seen read),
    apply_ite (Walk.seen read), apply_ite (Walk.seen read)]
  rfl

theorem visitClassSeen (sc : Scanner) (reads : sc.reporter.ReadBy o read) (n : Nat) (w : Walk) (c : Symbol) :
    o.visitClass sc.graph sc.exemption n (w.seen read) c = (sc.visitClass n w c).seen read := by
  induction n generalizing w c with
  | zero => rfl
  | succ n ih =>
    unfold Observer.visitClass visitClass
    have marked : { w.seen read with visited := (w.seen read).visited ++ [c] } =
        ({ w with visited := w.visited ++ [c] } : Walk).seen read := rfl
    simp only [seenFailed, marked, enterSeen reads]
    rw [List.foldl_hom (Walk.seen read) (visitMemberSeen reads ih c), List.foldl_hom (Walk.seen read) ih,
      apply_ite (Walk.seen read)]
    rfl

theorem scanIdle (o : Observer σ) (g : Graph) (x : Exemption) {t : Tour σ} (failed : t.failed.isSome = true) (rs : List Symbol) :
    rs.foldl (o.scan g x) t = t := by
  induction rs with
  | nil => rfl
  | cons r rest ih =>
    rw [List.foldl_cons, Observer.scan, if_pos failed]
    exact ih

theorem faultCons {r : Symbol} (isClass : r.isClass = true) (w : Walk) (rest : List Symbol) :
    w.fault (r :: rest) = w.fault rest := by
  simp [Walk.fault, isClass]

/- The walk goes as far as the first root that is no class. -/
theorem scansSeen (sc : Scanner) (reads : sc.reporter.ReadBy o read) (rs : List Symbol) (w : Walk) :
    rs.foldl (o.scan sc.graph sc.exemption) (w.seen read) =
      { ((rs.takeWhile (·.isClass)).foldl (fun w r => sc.walk r w) w).seen read with
        failed := ((rs.takeWhile (·.isClass)).foldl (fun w r => sc.walk r w) w).fault rs } := by
  induction rs generalizing w with
  | nil => rfl
  | cons r rest ih =>
    cases halted : w.halted with
    | true =>
      -- both sides stand still from here on
      rw [scanIdle _ _ _ (by simp [halted]), foldStops (fun _ _ => walkStops) _ halted]
      simp [Walk.seen, Walk.fault, halted]
    | false =>
      rw [List.foldl_cons, Observer.scan, seenFailed, halted]
      cases isClass : r.isClass with
      | false =>
        simp only [Bool.false_eq_true, if_false, Bool.not_false, if_true, List.takeWhile_cons, isClass, List.foldl_nil]
        rw [scanIdle _ _ _ rfl]
        simp [Walk.seen, Walk.fault, halted, isClass]
      | true =>
        simp only [Bool.false_eq_true, if_false, Bool.not_true, visitClassSeen sc reads, List.takeWhile_cons, isClass, if_true,
          List.foldl_cons]
        rw [faultCons isClass]
        exact ih (sc.walk r w)

theorem scanFault (sc : Scanner) (rs : List Symbol) {w : Walk} (running : w.halted = false) :
    rs.foldlM sc.scan w = match ((rs.takeWhile (·.isClass)).foldl (fun w r => sc.walk r w) w).fault rs with
      | some e => .error e
      | none => .ok ((rs.takeWhile (·.isClass)).foldl (fun w r => sc.walk r w) w) := by
  induction rs generalizing w with
  | nil => simp [Walk.fault, running, pure, Except.pure]
  | cons r rest ih =>
    rw [List.foldlM_cons, scan, List.takeWhile_cons]
    cases isClass : r.isClass with
    | false => simp [Walk.fault, running, isClass, bind, Except.bind]
    | true =>
      simp only [Bool.not_true, Bool.false_eq_true, if_false, if_true, List.foldl_cons, faultCons isClass]
      cases halts : (sc.walk r w).halted with
      | true =>
        rw [foldStops (fun _ _ => walkStops) _ halts]
        simp [Walk.fault, halts, bind, Except.bind]
      | false => exact ih halts

end Scanner

/-! The reporter as an observer. -/

/-- Where a reporter passes things on to. What is there has a state, which a sink and a log may change. -/
structure Outlet (σ : Type) where
  sink : Option (SinkCall → σ → σ) := none
  log : String → σ → σ := fun _ world => world

structure Desk (σ : Type) where
  diagnostics : List Diagnostic := []
  world : σ

def Symbol.scanLine (s : Symbol) (depth : Nat) : String := (Event.traceLine? (.scanning s depth)).getD ""

namespace Outlet

variable {σ : Type}

def call (out : Outlet σ) (c : SinkCall) (world : σ) : σ :=
  match out.sink with
  | none => world
  | some receive => receive c world

def hear (out : Outlet σ) (world : σ) : Event → σ
  | .scanning s depth => out.log (s.scanLine depth) world
  | .finding d => out.call ⟨d.severity, d.location, d.message⟩ world

def desk (out : Outlet σ) (world : σ) (es : List Event) : Desk σ :=
  { diagnostics := es.filterMap Event.diagnostic?, world := es.foldl out.hear world }

end Outlet

def Diagnostic.unrated (d : Diagnostic) : Diagnostic := { d with severity := .error }

def CheckResult.unrated (r : CheckResult) : CheckResult := { r with diagnostics := r.diagnostics.map (·.unrated) }

namespace Reporter

variable {σ : Type}

def observer (p : Reporter) (out : Outlet σ) : Observer (Desk σ) where
  scanning s depth desk := if p.tracing then { desk with world := out.log (s.scanLine depth) desk.world } else desk
  found v desk := (Diagnostic.ofViolation? p.severity v).map fun d =>
    { diagnostics := desk.diagnostics ++ [d]
      world := out.call ⟨p.severity, v.symbol.location, d.message⟩ desk.world }

theorem observerReads (p : Reporter) (out : Outlet σ) (world : σ) : p.ReadBy (p.observer out) (out.desk world) where
  scanning s depth es := by
    cases tracing : p.tracing <;> simp [observer, tracing, Outlet.desk, Event.diagnostic?, Outlet.hear]
  found v es := by
    cases text : Diagnostic.typeText? v.declaredType <;>
      simp [observer, Diagnostic.ofViolation?, text, Outlet.desk, Event.diagnostic?, Outlet.hear]

/-- An observer that keeps diagnostics only, and these without their severity. -/
def verdicts : Observer (List Diagnostic) where
  scanning _ _ ds := ds
  found v ds := (Diagnostic.ofViolation? .error v).map fun d => ds ++ [d]

theorem verdictsRead (p : Reporter) :
    p.ReadBy verdicts fun es => (es.filterMap Event.diagnostic?).map Diagnostic.unrated where
  scanning s depth es := by cases tracing : p.tracing <;> simp [verdicts, Event.diagnostic?]
  found v es := by
    cases text : Diagnostic.typeText? v.declaredType <;>
      simp [verdicts, Diagnostic.ofViolation?, text, Event.diagnostic?, Diagnostic.unrated]

def Tells (p : Reporter) : Event → Prop
  | .scanning _ _ => p.tracing = true
  | .finding d => d.severity = p.severity

end Reporter

theorem Scanner.movesTell {sc : Scanner} {roots : List Symbol} {w : Walk} (moves : Moves sc roots {} w) :
    ∀ e ∈ w.events, sc.reporter.Tells e := by
  have entering (s : Symbol) {w : Walk} (before : ∀ e ∈ w.events, sc.reporter.Tells e) :
      ∀ e ∈ (sc.enter s w).events, sc.reporter.Tells e := by
    unfold enter
    cases tracing : sc.reporter.tracing with
    | false => exact before
    | true => simpa [or_imp, forall_and, Reporter.Tells, tracing] using before
  induction moves with
  | refl => simp
  | @tail v w _ last ih =>
    cases last with
    | visit c => exact entering c ih
    | follow m => exact entering m ih
    | leave => exact ih
    | flag c m =>
      by_cases old : m ∈ v.flagged
      · rw [flagOld old]
        exact ih
      · rw [flagNew old]
        unfold report
        split
        · exact ih
        · rename_i d told
          obtain ⟨text, _, rfl⟩ := Option.map_eq_some_iff.mp told
          simpa [or_imp, forall_and, Reporter.Tells] using ih

namespace Graph

variable {σ τ : Type}

/-- A run with everybody who looks on. It may break off at any point. -/
def watch (g : Graph) (s : Settings) (out : Outlet σ) (roots : List Symbol) (world : σ) : Tour (Desk σ) :=
  if s.checkReentrant then roots.foldl ((s.reporter.observer out).scan g s.exemption) { told := { world } }
  else { told := { world } }

def walked (g : Graph) (s : Settings) (roots : List Symbol) : Walk := (s.scanner g).walkAll (roots.takeWhile (·.isClass))

end Graph

def Tour.result {σ : Type} (t : Tour (Desk σ)) (s : Settings) (roots : List Symbol) : Except CheckError CheckResult :=
  match t.failed with
  | some e => .error e
  | none => .ok (if s.checkReentrant then
      { roots := roots.map (·.qualifiedName), visitedClasses := t.visited.map (·.qualifiedName),
        diagnostics := t.told.diagnostics }
      else { enabled := false })

namespace Graph

variable {σ τ : Type}

theorem watchSeen (g : Graph) {s : Settings} (on : s.checkReentrant = true) (out : Outlet σ) (roots : List Symbol) (world : σ) :
    g.watch s out roots world =
      { (g.walked s roots).seen (out.desk world) with failed := (g.walked s roots).fault roots } := by
  rw [watch, if_pos on]
  exact Scanner.scansSeen (s.scanner g) (Reporter.observerReads s.reporter out world) roots {}

theorem walkedFault (g : Graph) (s : Settings) (roots : List Symbol) : roots.foldlM (s.scanner g).scan {} =
    match (g.walked s roots).fault roots with
    | some e => .error e
    | none => .ok (g.walked s roots) :=
  Scanner.scanFault (s.scanner g) roots rfl

theorem checkWalked (g : Graph) {s : Settings} (on : s.checkReentrant = true) (roots : List Symbol) :
    g.checkFrom s roots = match (g.walked s roots).fault roots with
      | some e => .error e
      | none => .ok
        { result := { roots := roots.map (·.qualifiedName), visitedClasses := (g.walked s roots).visited.map (·.qualifiedName),
                      diagnostics := (g.walked s roots).diagnostics }
          events := (g.walked s roots).events } := by
  have scanned := walkedFault g s roots
  cases fault : (g.walked s roots).fault roots with
  | some e =>
    rw [fault] at scanned
    simp [checkFrom, on, scanned, bind, Except.bind]
  | none =>
    rw [fault] at scanned
    exact checkOn on scanned

theorem watchResult (g : Graph) (s : Settings) (out : Outlet σ) (roots : List Symbol) (world : σ) :
    (g.watch s out roots world).result s roots = (g.checkFrom s roots).map (·.result) := by
  cases on : s.checkReentrant with
  | false => simp [watch, checkOff g on, Tour.result, on, Except.map]
  | true =>
    rw [watchSeen g on, checkWalked g on, Tour.result]
    cases (g.walked s roots).fault roots with
    | some e => rfl
    | none => simp [on, Except.map, Walk.seen, Outlet.desk, Walk.diagnostics]

theorem walkedTells (g : Graph) (s : Settings) (roots : List Symbol) : ∀ e ∈ (g.walked s roots).events, s.reporter.Tells e :=
  Scanner.movesTell (Scanner.walksMove (roots.takeWhile (·.isClass)) (fun _ h => h) {})

/- Both walks are read by one observer, which does not ask for severity and trace. -/
theorem walkedAlike (g : Graph) (s : Settings) (trace : Bool) (severity : Severity) (roots : List Symbol) :
    (g.walked { s with trace, severity } roots).visited = (g.walked s roots).visited ∧
    (g.walked { s with trace, severity } roots).diagnostics.map (·.unrated) = (g.walked s roots).diagnostics.map (·.unrated) ∧
    (g.walked { s with trace, severity } roots).fault roots = (g.walked s roots).fault roots := by
  have one := Scanner.scansSeen (s.scanner g) (Reporter.verdictsRead s.reporter) roots {}
  have two := Scanner.scansSeen (Settings.scanner { s with trace, severity } g) (Reporter.verdictsRead _) roots {}
  have same := two.symm.trans one
  exact ⟨congrArg Tour.visited same, congrArg Tour.told same, congrArg Tour.failed same⟩

theorem diagnosticsRated (g : Graph) (s : Settings) (out : Outlet σ) (roots : List Symbol) (world : σ) :
    ∀ d ∈ (g.watch s out roots world).told.diagnostics, d.severity = s.severity := by
  cases on : s.checkReentrant with
  | false => simp [watch, on]
  | true =>
    rw [watchSeen g on]
    intro d listed
    obtain ⟨e, told, found⟩ := List.mem_filterMap.mp listed
    have tells := walkedTells g s roots e told
    cases e with
    | scanning => cases found
    | finding d' =>
      cases Option.some.inj found
      exact tells

theorem untracedSilent (g : Graph) {s : Settings} (off : s.trace = false) (out : Outlet σ) (log : String → σ → σ)
    (roots : List Symbol) (world : σ) : g.watch s { out with log } roots world = g.watch s out roots world := by
  cases on : s.checkReentrant with
  | false => simp [watch, on]
  | true =>
    have same : (g.walked s roots).events.foldl (Outlet.hear { out with log }) world =
        (g.walked s roots).events.foldl out.hear world := by
      refine List.foldl_ext _ _ _ fun world e told => ?_
      cases e with
      | scanning s' depth =>
        have tracing : s.trace = true := walkedTells g s roots _ told
        rw [off] at tracing
        cases tracing
      | finding d => rfl
    rw [watchSeen g on, watchSeen g on]
    simp only [Walk.seen, Outlet.desk, same]

theorem checkUnrated (g : Graph) (s : Settings) (trace : Bool) (severity : Severity) (roots : List Symbol) :
    ((g.checkFrom { s with trace, severity } roots).map (·.result)).map (·.unrated) =
      ((g.checkFrom s roots).map (·.result)).map (·.unrated) := by
  by_cases on : s.checkReentrant = true
  · obtain ⟨visited, diagnostics, fault⟩ := walkedAlike g s trace severity roots
    rw [checkWalked g on, checkWalked (s := { s with trace, severity }) g on, fault]
    cases (g.walked s roots).fault roots with
    | some e => rfl
    | none => simp only [Except.map, CheckResult.unrated, visited, diagnostics]
  · rw [Bool.not_eq_true] at on
    rw [checkOff g on, checkOff (s := { s with trace, severity }) g on]

/-- Whatever severity is set, whether there is a trace, and whoever looks on: a run has the same outcome, with the same classes
and the same findings in the same order. Each finding has the severity that is set, and without a trace nothing is logged. -/
theorem observersIrrelevant (g : Graph) (roots : List Symbol) (s : Settings) (trace : Bool) (severity : Severity)
    (out : Outlet σ) (out' : Outlet τ) (world : σ) (world' : τ) :
    let s' := { s with trace, severity }
    let t := g.watch s out roots world
    let t' := g.watch s' out' roots world'
    t.result s roots = (g.checkFrom s roots).map (·.result) ∧ t'.result s' roots = (g.checkFrom s' roots).map (·.result) ∧
    (t'.result s' roots).map (·.unrated) = (t.result s roots).map (·.unrated) ∧
    (∀ d ∈ t.told.diagnostics, d.severity = s.severity) ∧ (∀ d ∈ t'.told.diagnostics, d.severity = severity) ∧
    (s.trace = false → ∀ log, g.watch s { out with log } roots world = t) ∧
    (trace = false → ∀ log, g.watch s' { out' with log } roots world' = t') := by
  intro s' t t'
  have first : t.result s roots = _ := watchResult g s out roots world
  have second : t'.result s' roots = _ := watchResult g s' out' roots world'
  refine ⟨first, second, ?_, diagnosticsRated g s out roots world, diagnosticsRated g s' out' roots world', ?_, ?_⟩
  · rw [first, second]
    exact checkUnrated g s trace severity roots
  · exact fun off log => untracedSilent g off out log roots world
  · exact fun off log => untracedSilent (s := s') g off out' log roots world'

end Graph
end SharedState
