import SharedState.Proofs.Trace
import SharedState.Proofs.WideningSteps

/-! The recursion of a walk without its bound. What is still to be done stands on a stack; a step takes the first task from it and may
put others in its place, and nothing limits the number of steps. Widening and walking come to an end all the same, and the bounds that
the functions carry are never what stops them. -/
namespace SharedState

namespace Scanner

inductive Task where
  | visit (c : Symbol)
  | look (c m : Symbol)
  | leave

/-- A class whose body is entered, or a member that is followed, with the depth of its trace line. -/
structure Entered where
  symbol : Symbol
  depth : Nat
  asClass : Bool

structure Agenda where
  tasks : List Task
  walk : Walk
  entered : List Entered := []

def step (sc : Scanner) (a : Agenda) : Agenda :=
  match a.tasks with
  | [] => a
  | .leave :: rest => { a with tasks := rest, walk := leave a.walk }
  | .visit c :: rest =>
    if a.walk.halted || a.walk.visited.contains c || sc.exemption.covers c then { a with tasks := rest }
    else
      { tasks := (sc.graph.members c).map (.look c) ++ ((sc.graph.parentClasses c).map .visit ++ .leave :: rest)
        walk := sc.enter c { a.walk with visited := a.walk.visited ++ [c] }
        entered := a.entered ++ [⟨c, a.walk.depth, true⟩] }
  | .look c m :: rest =>
    if a.walk.halted || skipped m.kind || sc.exemption.covers m then { a with tasks := rest }
    else if m.mutable then { a with tasks := rest, walk := sc.flag c m a.walk }
    else if followed m.kind then
      { tasks := (sc.graph.typeClasses m.declaredType).map .visit ++ .leave :: rest
        walk := sc.enter m a.walk
        entered := a.entered ++ [⟨m, a.walk.depth, false⟩] }
    else { a with tasks := rest }

def bodies (es : List Entered) : List Symbol := (es.filter (·.asClass)).map (·.symbol)

@[simp] theorem bodiesNil : bodies [] = [] := rfl
@[simp] theorem bodiesAppend (es fs : List Entered) : bodies (es ++ fs) = bodies es ++ bodies fs := by simp [bodies]
@[simp] theorem bodiesClass (c : Symbol) (depth : Nat) (es : List Entered) : bodies (⟨c, depth, true⟩ :: es) = c :: bodies es := by
  simp [bodies]
@[simp] theorem bodiesMember (m : Symbol) (depth : Nat) (es : List Entered) : bodies (⟨m, depth, false⟩ :: es) = bodies es := by
  simp [bodies]

/-- What is entered on the way from one state to another. Where members are looked at, the depth may be greater by one. -/
structure Enters (sc : Scanner) (slack : Nat) (w w' : Walk) (es : List Entered) : Prop where
  visited : w'.visited = w.visited ++ bodies es
  fresh : ∀ c ∈ bodies es, c ∉ w.visited
  once : (bodies es).Nodup
  depth : w'.depth = w.depth
  bounds : ∀ e ∈ es, w.depth ≤ e.depth ∧ e.depth < w.depth + slack + 2 * (bodies es).length
  lines : sc.reporter.tracing = true → w'.lines = w.lines ++ es.map fun e => (e.symbol, e.depth)

/-- The tasks are done in finitely many steps and lead from one state to another. -/
def Performs (sc : Scanner) (slack : Nat) (tasks : List Task) (w w' : Walk) : Prop :=
  ∃ es, Enters sc slack w w' es ∧
    ∀ rest before, Arrives sc.step ⟨tasks ++ rest, w, before⟩ ⟨rest, w', before ++ es⟩

variable {sc : Scanner}

theorem entersNone {slack : Nat} {w w' : Walk} (visited : w'.visited = w.visited) (depth : w'.depth = w.depth)
    (lines : w'.lines = w.lines) : Enters sc slack w w' [] where
  visited := by simp [visited]
  fresh := by simp
  once := by simp
  depth := depth
  bounds := by simp
  lines _ := by simp [lines]

theorem entersAppend {slack : Nat} {a b c : Walk} {es fs : List Entered} (first : Enters sc slack a b es)
    (second : Enters sc slack b c fs) : Enters sc slack a c (es ++ fs) where
  visited := by rw [second.visited, first.visited, bodiesAppend, List.append_assoc]
  fresh := by
    intro d entered
    rw [bodiesAppend, List.mem_append] at entered
    rcases entered with early | late
    · exact first.fresh d early
    · exact fun before => second.fresh d late (by simp [first.visited, before])
  once := by
    rw [bodiesAppend]
    refine List.nodup_append.mpr ⟨first.once, second.once, ?_⟩
    rintro d early _ late rfl
    exact second.fresh d late (by simp [first.visited, early])
  depth := second.depth.trans first.depth
  bounds := by
    intro e entered
    have early := first.bounds e
    have late := second.bounds e
    rw [first.depth] at late
    rw [bodiesAppend, List.length_append]
    rcases List.mem_append.mp entered with inside | inside
    · have := early inside
      omega
    · have := late inside
      omega
  lines tracing := by simp [second.lines tracing, first.lines tracing]

theorem entersSlack {w w' : Walk} {es : List Entered} (enters : Enters sc 0 w w' es) : Enters sc 1 w w' es :=
  { enters with bounds := fun e entered => by have := enters.bounds e entered; omega }

/- A symbol with all that is entered below it. Below a class the depth may be greater by one than below a member, but the class
itself counts. -/
theorem entersBelow (asClass : Bool) {s : Symbol} {w v u : Walk} {es : List Entered}
    (marked : v.visited = w.visited ++ if asClass then [s] else []) (depth : v.depth = w.depth) (events : v.events = w.events)
    (fresh : asClass = true → s ∉ w.visited) (inner : Enters sc (if asClass then 1 else 0) (sc.enter s v) u es) :
    Enters sc (if asClass then 0 else 1) w (leave u) (⟨s, w.depth, asClass⟩ :: es) := by
  have deeper : (sc.enter s v).depth = w.depth + 1 := by simp [enter, depth]
  have visited : u.visited = w.visited ++ (if asClass then [s] else []) ++ bodies es := by rw [inner.visited, enterVisited, marked]
  have level : (leave u).depth = w.depth := by simp [leave, inner.depth, deeper]
  have told : sc.reporter.tracing = true → (leave u).lines = w.lines ++ (s, w.depth) :: es.map fun e => (e.symbol, e.depth) := by
    intro tracing
    have scanned : (sc.enter s v).lines = w.lines ++ [(s, w.depth)] := by
      simp [Walk.lines, enter, tracing, events, depth, Event.line?]
    change u.lines = _
    rw [inner.lines tracing, scanned, List.append_assoc]
    rfl
  have outside : ∀ c ∈ bodies es, c ∉ w.visited ++ if asClass then [s] else [] := by
    rw [← marked]
    exact inner.fresh
  have bounds := inner.bounds
  rw [deeper] at bounds
  cases asClass with
  | true =>
    refine ⟨by simpa using visited, ?_, ?_, level, ?_, told⟩
    · rw [bodiesClass]
      refine List.forall_mem_cons.mpr ⟨fresh rfl, fun c entered before => outside c entered (by simp [before])⟩
    · rw [bodiesClass]
      exact List.nodup_cons.mpr ⟨fun entered => outside s entered (by simp), inner.once⟩
    · intro e entered
      rw [bodiesClass, List.length_cons]
      rcases List.mem_cons.mp entered with rfl | below
      · simp
      · have := bounds e below
        simp only [if_true] at this ⊢
        omega
  | false =>
    refine ⟨by simpa using visited, by simpa using outside, by simpa using inner.once, level, ?_, told⟩
    intro e entered
    rw [bodiesMember]
    rcases List.mem_cons.mp entered with rfl | below
    · simp
      omega
    · have := bounds e below
      simp only [Bool.false_eq_true, if_false] at this ⊢
      omega

theorem performsIdle {slack : Nat} {task : Task} {w w' : Walk} (visited : w'.visited = w.visited) (depth : w'.depth = w.depth)
    (lines : w'.lines = w.lines) (once : ∀ rest before, sc.step ⟨task :: rest, w, before⟩ = ⟨rest, w', before⟩) :
    Performs sc slack [task] w w' :=
  ⟨[], entersNone visited depth lines, fun rest before => by simpa using Arrives.one (once rest before)⟩

theorem performsNil {slack : Nat} (w : Walk) : Performs sc slack [] w w :=
  ⟨[], entersNone rfl rfl rfl, fun rest before => by rw [List.append_nil]; exact .refl _⟩

theorem performsAppend {slack : Nat} {ts us : List Task} {a b c : Walk} (first : Performs sc slack ts a b)
    (second : Performs sc slack us b c) : Performs sc slack (ts ++ us) a c := by
  obtain ⟨es, enters, run⟩ := first
  obtain ⟨fs, enters', run'⟩ := second
  refine ⟨es ++ fs, entersAppend enters enters', fun rest before => ?_⟩
  rw [List.append_assoc, ← List.append_assoc before]
  exact (run (us ++ rest) before).trans (run' rest (before ++ es))

theorem performsSlack {tasks : List Task} {w w' : Walk} (performs : Performs sc 0 tasks w w') : Performs sc 1 tasks w w' := by
  obtain ⟨es, enters, run⟩ := performs
  exact ⟨es, entersSlack enters, run⟩

theorem performsVisited {slack : Nat} {tasks : List Task} {w w' : Walk} (performs : Performs sc slack tasks w w') :
    w.visited ⊆ w'.visited := by
  obtain ⟨es, enters, _⟩ := performs
  rw [enters.visited]
  exact fun _ => List.mem_append_left _

theorem foldPerforms {slack n : Nat} {task : Symbol → Task} {visit : Walk → Symbol → Walk} (items : List Symbol)
    (each : ∀ a ∈ items, ∀ w, (sc.unvisited w).length ≤ n → Performs sc slack [task a] w (visit w a)) (w : Walk)
    (few : (sc.unvisited w).length ≤ n) : Performs sc slack (items.map task) w (items.foldl visit w) := by
  induction items generalizing w with
  | nil => exact performsNil w
  | cons a rest ih =>
    have first := each a (by simp) w few
    have left := Nat.le_trans (unvisitedFewer (performsVisited first)) few
    exact performsAppend first (ih (fun b listed => each b (by simp [listed])) (visit w a) left)

theorem performsFollow {m c : Symbol} {w u : Walk}
    (goes : ¬(w.halted || skipped m.kind || sc.exemption.covers m) = true) (immutable : ¬m.mutable = true)
    (follows : followed m.kind = true)
    (inner : Performs sc 0 ((sc.graph.typeClasses m.declaredType).map .visit) (sc.enter m w) u) :
    Performs sc 1 [.look c m] w (leave u) := by
  obtain ⟨es, enters, run⟩ := inner
  refine ⟨⟨m, w.depth, false⟩ :: es, entersBelow false (v := w) (by simp) rfl rfl (by simp) enters, fun rest before => ?_⟩
  have steps := run (.leave :: rest) (before ++ [⟨m, w.depth, false⟩])
  rw [List.append_assoc] at steps
  refine .head ?_ (steps.trans (.one rfl))
  simp only [List.cons_append, List.nil_append, step]
  rw [if_neg goes, if_neg immutable, if_pos follows]

theorem performsBody {c : Symbol} {w v u : Walk} (goes : ¬(w.halted || w.visited.contains c || sc.exemption.covers c) = true)
    (members : Performs sc 1 ((sc.graph.members c).map (.look c)) (sc.enter c { w with visited := w.visited ++ [c] }) v)
    (parents : Performs sc 0 ((sc.graph.parentClasses c).map .visit) v u) : Performs sc 0 [.visit c] w (leave u) := by
  obtain ⟨es, enters, run⟩ := performsAppend members (performsSlack parents)
  have fresh : c ∉ w.visited := by
    intro visited
    simp [visited] at goes
  refine ⟨⟨c, w.depth, true⟩ :: es, entersBelow true (v := { w with visited := w.visited ++ [c] }) (by simp) rfl rfl (fun _ => fresh)
    enters, fun rest before => ?_⟩
  have steps := run (.leave :: rest) (before ++ [⟨c, w.depth, true⟩])
  rw [List.append_assoc, List.append_assoc] at steps
  refine .head ?_ (steps.trans (.one rfl))
  simp only [List.cons_append, List.nil_append, step]
  rw [if_neg goes]

theorem lookPerforms {n : Nat} {visit : Walk → Symbol → Walk} {m : Symbol}
    (each : ∀ d ∈ sc.graph.typeClasses m.declaredType, ∀ w, (sc.unvisited w).length ≤ n → Performs sc 0 [.visit d] w (visit w d))
    (c : Symbol) (w : Walk) (few : (sc.unvisited w).length ≤ n) : Performs sc 1 [.look c m] w (sc.visitMember visit c w m) := by
  unfold visitMember
  split
  · rename_i idle
    exact performsIdle rfl rfl rfl fun rest before => by simp [step, idle]
  · rename_i goes
    split
    · rename_i isMutable
      obtain ⟨lines, depth⟩ := flagLines sc c m w
      exact performsIdle (flagVisited c m w) depth lines fun rest before => by simp [step, goes, isMutable]
    · rename_i immutable
      split
      · rename_i follows
        exact performsFollow goes immutable follows (foldPerforms _ each (sc.enter m w) few)
      · rename_i ends
        exact performsIdle rfl rfl rfl fun rest before => by simp [step, goes, immutable, ends]

theorem performsCovered {c : Symbol} {w : Walk} (idle : (w.halted || w.visited.contains c || sc.exemption.covers c) = true) :
    Performs sc 0 [.visit c] w w := by
  refine performsIdle rfl rfl rfl fun rest before => ?_
  simp only [step]
  rw [if_pos idle]

/- With a visitor for what is left after the class itself. -/
theorem visitNextPerforms {n : Nat} (each : ∀ d ∈ sc.graph.entries.map (·.symbol), ∀ w, (sc.unvisited w).length ≤ n →
      Performs sc 0 [.visit d] w (sc.visitClass n w d)) (c : Symbol) (w : Walk)
    (left : c ∉ w.visited → (sc.unvisited { w with visited := w.visited ++ [c] }).length ≤ n) :
    Performs sc 0 [.visit c] w (sc.visitClass (n + 1) w c) := by
  unfold visitClass
  split
  · rename_i idle
    exact performsCovered idle
  · rename_i goes
    have few := left fun visited => by simp [visited] at goes
    have member : ∀ m ∈ sc.graph.members c, ∀ w, (sc.unvisited w).length ≤ n →
        Performs sc 1 [.look c m] w (sc.visitMember (sc.visitClass n) c w m) :=
      fun m _ w few => lookPerforms (fun d target => each d (typeClassesKnown target)) c w few
    have members := foldPerforms (sc.graph.members c) member (sc.enter c { w with visited := w.visited ++ [c] }) few
    have parents := foldPerforms (sc.graph.parentClasses c) (fun d derives => each d (parentClassesKnown derives)) _
      (Nat.le_trans (unvisitedFewer (performsVisited members)) few)
    exact performsBody goes members parents

theorem visitPerforms (n : Nat) (c : Symbol) (known : c ∈ sc.graph.entries.map (·.symbol)) (w : Walk)
    (few : (sc.unvisited w).length ≤ n) : Performs sc 0 [.visit c] w (sc.visitClass n w c) := by
  induction n generalizing c w with
  | zero =>
    have visited := unvisitedNone known few
    exact performsCovered (by simp [visited])
  | succ n ih =>
    refine visitNextPerforms ih c w fun fresh => ?_
    exact Nat.le_of_lt_succ (Nat.lt_of_lt_of_le (unvisitedShrinks known fresh) few)

/- A root need not belong to the graph, but whatever it leads to does. -/
theorem walkPerforms (sc : Scanner) (root : Symbol) (w : Walk) : Performs sc 0 [.visit root] w (sc.walk root w) := by
  refine visitNextPerforms (visitPerforms sc.graph.size) root w fun _ => ?_
  simpa [unvisited, Graph.size] using List.length_filter_le _ (sc.graph.entries.map (·.symbol))

/-- From every state and every root that is a class, whatever cycles there are among parents, types of members and aliases: each
widening ends, and so does the walk, after finitely many steps and where the scan says. The body of a class is entered at most once,
and only if the class was not visited before; these classes are what is visited afterwards in addition. The depth of each symbol that
is entered, counted from where the walk began, is less than twice their number; with the trace on, these are the depths of its
lines. -/
theorem scanFinishes (sc : Scanner) (w : Walk) (root : Symbol) (isClass : root.isClass = true) :
    (∀ t, ∃ n, sc.graph.widenStep^[n] { tasks := [.widen t] } = { tasks := [], found := sc.graph.classSymbols t }) ∧
    ∃ n w' es, sc.step^[n] { tasks := [.visit root], walk := w } = { tasks := [], walk := w', entered := es } ∧
      sc.scan w root = (if w'.halted then .error .typeWithoutText else .ok w') ∧
      w'.visited = w.visited ++ bodies es ∧ (bodies es).Nodup ∧ (∀ c ∈ bodies es, c ∉ w.visited) ∧
      (∀ e ∈ es, w.depth ≤ e.depth ∧ e.depth - w.depth < 2 * (bodies es).length) ∧ w'.depth = w.depth ∧
      (sc.reporter.tracing = true → w'.lines = w.lines ++ es.map fun e => (e.symbol, e.depth)) := by
  obtain ⟨es, enters, run⟩ := walkPerforms sc root w
  obtain ⟨n, ends⟩ := run [] []
  refine ⟨fun t => Graph.wideningEnds sc.graph t, n, sc.walk root w, es, ends, ?_, enters.visited, enters.once, enters.fresh, ?_,
    enters.depth, enters.lines⟩
  · simp [scan, isClass]
  · intro e entered
    have := enters.bounds e entered
    omega

/- The walk starts at a depth of three and after a class that it never comes to. -/
theorem mutualParentsFinished :
    let sc := Settings.scanner { trace := true } Graph.mutualParents
    let start : Walk := { visited := (Graph.mutualParents.entries.map (·.symbol)).drop 3, depth := 3 }
    let root : Symbol := { serial := 0, name := "A", kind := .plainClass }
    Graph.mutualParents.staticOwners = [root] ∧
      ∃ n w' es, sc.step^[n] { tasks := [.visit root], walk := start } = { tasks := [], walk := w', entered := es } ∧
        sc.scan start root = .ok w' ∧ (bodies es).length = 2 ∧ ∀ e ∈ es, 3 ≤ e.depth ∧ e.depth - 3 < 4 := by
  intro sc start root
  have ended : (sc.scan start root).map (fun w => (w.halted, w.visited.length)) = .ok (false, 3) := by decide +kernel
  obtain ⟨_, n, w', es, run, scanned, visited, _, _, bounds, _⟩ := scanFinishes sc start root rfl
  rw [scanned] at ended
  cases halted : w'.halted with
  | true => simp [halted, Except.map] at ended
  | false =>
    have total : w'.visited.length = 3 := by simpa [halted, Except.map] using ended
    have before : start.visited.length = 1 := by decide
    have two : (bodies es).length = 2 := by
      rw [visited, List.length_append, before] at total
      omega
    rw [two] at bounds
    exact ⟨by decide, n, w', es, run, by simp [scanned, halted], two, bounds⟩

end Scanner
end SharedState
