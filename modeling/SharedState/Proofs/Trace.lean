import SharedState.Proofs.Findings

/-! The trace as an account of reachability. The scanned symbols with their depths list an ordered forest: each class stands
over its followed members and then its parents, each member over the classes of its type. -/
namespace SharedState

def Event.line? : Event → Option (Symbol × Nat)
  | scanning s depth => some (s, depth)
  | finding _ => none

def Walk.lines (w : Walk) : List (Symbol × Nat) := w.events.filterMap Event.line?

/-- Ordered trees, side by side: a first tree with what is below its top, and the trees after it. -/
inductive Forest where
  | nil
  | node (top : Symbol) (below after : Forest)

namespace Forest

/-- The symbols in preorder, each with its depth. -/
def lines : Forest → Nat → List (Symbol × Nat)
  | nil, _ => []
  | node s below after, depth => (s, depth) :: (below.lines (depth + 1) ++ after.lines depth)

def tops : Forest → List Symbol
  | nil => []
  | node s _ after => s :: after.tops

def classes : Forest → List Symbol
  | nil => []
  | node s below after => (if s.isClass then [s] else []) ++ (below.classes ++ after.classes)

def append : Forest → Forest → Forest
  | nil, f => f
  | node s below after, f => node s below (after.append f)

/-- What may stand right below a symbol, in this order. -/
inductive Children (g : Graph) (s : Symbol) : List Symbol → Prop where
  | ofClass {members parents : List Symbol} (isClass : s.isClass = true) (declared : members.Sublist (g.members s))
      (inside : ∀ m ∈ members, m.isClass = false) (derives : parents.Sublist (g.parentClasses s))
      (classes : ∀ p ∈ parents, p.isClass = true) : Children g s (members ++ parents)
  | ofMember {targets : List Symbol} (isMember : s.isClass = false)
      (denoted : targets.Sublist (g.typeClasses s.declaredType)) (classes : ∀ c ∈ targets, c.isClass = true) :
      Children g s targets

def Explained (g : Graph) : Forest → Prop
  | nil => True
  | node s below after => Children g s below.tops ∧ below.Explained g ∧ after.Explained g

@[simp] theorem linesAppend (f h : Forest) (depth : Nat) : (f.append h).lines depth = f.lines depth ++ h.lines depth := by
  induction f generalizing depth with
  | nil => rfl
  | node s below after _ ih => simp [append, lines, ih]

@[simp] theorem topsAppend (f h : Forest) : (f.append h).tops = f.tops ++ h.tops := by
  induction f with
  | nil => rfl
  | node s below after _ ih => simp [append, tops, ih]

@[simp] theorem classesAppend (f h : Forest) : (f.append h).classes = f.classes ++ h.classes := by
  induction f with
  | nil => rfl
  | node s below after _ ih => simp [append, classes, ih]

theorem explainedAppend {g : Graph} {f h : Forest} (first : f.Explained g) (second : h.Explained g) :
    (f.append h).Explained g := by
  induction f with
  | nil => exact second
  | node s below after _ ih => exact ⟨first.1, first.2.1, ih first.2.2⟩

theorem linesDeep (f : Forest) (depth : Nat) : ∀ l ∈ f.lines depth, depth ≤ l.2 := by
  induction f generalizing depth with
  | nil => simp [lines]
  | node s below after inner outer =>
    intro l listed
    simp only [lines, List.mem_cons, List.mem_append] at listed
    rcases listed with rfl | lower | later
    · exact Nat.le_refl _
    · exact Nat.le_of_succ_le (inner _ l lower)
    · exact outer _ l later

theorem classLines (f : Forest) (depth : Nat) : ((f.lines depth).filter (·.1.isClass)).map (·.1) = f.classes := by
  induction f generalizing depth with
  | nil => rfl
  | node s below after inner outer =>
    simp only [lines, classes, List.filter_cons, List.filter_append, ← inner (depth + 1), ← outer depth]
    cases s.isClass <;> simp

end Forest

/-- Why a line stands below another one. -/
inductive Graph.Explains (g : Graph) (above s : Symbol) : Prop where
  | member (isClass : above.isClass = true) (isMember : s.isClass = false) (declared : s ∈ g.members above)
  | target (isMember : above.isClass = false) (isClass : s.isClass = true) (denoted : s ∈ g.typeClasses above.declaredType)
  | parent (fromClass : above.isClass = true) (isClass : s.isClass = true) (derives : s ∈ g.parentClasses above)

theorem Forest.childExplained {g : Graph} {s t : Symbol} {children : List Symbol} (order : Children g s children)
    (child : t ∈ children) : g.Explains s t := by
  cases order with
  | ofClass isClass declared inside derives classes =>
    rcases List.mem_append.mp child with member | parent
    · exact .member isClass (inside t member) (declared.subset member)
    · exact .parent isClass (classes t parent) (derives.subset parent)
  | ofMember isMember denoted classes => exact .target isMember (classes t child) (denoted.subset child)

namespace Scanner

/-- The line of a symbol after the lines `before`: it is a root that is not exempt, or the nearest line one level up
explains it and is explained in turn. -/
inductive Traced (sc : Scanner) (roots : List Symbol) : List (Symbol × Nat) → Symbol → Nat → Prop where
  | root {before : List (Symbol × Nat)} {s : Symbol} (start : s ∈ roots) (counts : sc.exemption.covers s = false) :
      Traced sc roots before s 0
  | under {earlier between : List (Symbol × Nat)} {above s : Symbol} {depth : Nat}
      (upwards : Traced sc roots earlier above depth) (nearest : ∀ l ∈ between, depth < l.2)
      (explains : sc.graph.Explains above s) : Traced sc roots (earlier ++ (above, depth) :: between) s (depth + 1)

variable {sc : Scanner} {roots : List Symbol}

/- The induction goes down and to the right in the forest. A top stays explained whatever deeper lines come before it. -/
theorem forestTraced (f : Forest) (explained : f.Explained sc.graph) (before : List (Symbol × Nat)) (depth : Nat)
    (tops : ∀ t ∈ f.tops, ∀ between : List (Symbol × Nat), (∀ l ∈ between, depth ≤ l.2) →
      Traced sc roots (before ++ between) t depth)
    {front back : List (Symbol × Nat)} {s : Symbol} {d : Nat} (split : f.lines depth = front ++ (s, d) :: back) :
    Traced sc roots (before ++ front) s d := by
  induction f generalizing before depth front back with
  | nil => simp [Forest.lines] at split
  | node top lower later inner outer =>
    obtain ⟨children, under, beside⟩ := explained
    have here : Traced sc roots before top depth := by simpa using tops top (by simp [Forest.tops]) [] (by simp)
    rw [Forest.lines] at split
    cases front with
    | nil =>
      obtain ⟨⟨rfl, rfl⟩, _⟩ : (top = s ∧ depth = d) ∧ _ := by simpa using split
      simpa using here
    | cons first front =>
      obtain ⟨rfl, rest⟩ : (top, depth) = first ∧ _ := by simpa using split
      have lowerTops : ∀ t ∈ lower.tops, ∀ between : List (Symbol × Nat), (∀ l ∈ between, depth + 1 ≤ l.2) →
          Traced sc roots ((before ++ [(top, depth)]) ++ between) t (depth + 1) := by
        intro t child between deeper
        rw [List.append_assoc]
        exact .under here deeper (Forest.childExplained children child)
      have laterTops : ∀ t ∈ later.tops, ∀ between : List (Symbol × Nat), (∀ l ∈ between, depth ≤ l.2) →
          Traced sc roots ((before ++ (top, depth) :: lower.lines (depth + 1)) ++ between) t depth := by
        intro t child between deeper
        rw [List.append_assoc]
        refine tops t (by simp [Forest.tops, child]) _ fun l listed => ?_
        rcases List.mem_append.mp listed with own | other
        · rcases List.mem_cons.mp own with rfl | deep
          · exact Nat.le_refl _
          · exact Nat.le_of_succ_le (Forest.linesDeep lower _ l deep)
        · exact deeper l other
      rcases List.append_eq_append_iff.mp rest with ⟨rest, rfl, right⟩ | ⟨rest, left, right⟩
      · simpa using outer beside _ depth laterTops right
      · cases rest with
        | nil =>
          have last : Traced sc roots ((before ++ (top, depth) :: lower.lines (depth + 1)) ++ []) s d :=
            outer beside _ depth laterTops right.symm
          simpa [left] using last
        | cons l rest =>
          obtain ⟨rfl, _⟩ : (s, d) = l ∧ _ := by simpa using right
          simpa using inner under _ _ lowerTops left

/-- What a part of a walk adds: the lines of a forest, and its classes to those visited. -/
structure Grows (sc : Scanner) (f : Forest) (w w' : Walk) : Prop where
  lines : w'.lines = w.lines ++ f.lines w.depth
  visited : w'.visited = w.visited ++ f.classes
  depth : w'.depth = w.depth
  explained : f.Explained sc.graph

/-- A part of a walk whose outermost lines are some of these symbols, in this order and none of them exempt. Either all are
classes or all are members. -/
def Lists (sc : Scanner) (isClass : Bool) (among : List Symbol) (w w' : Walk) : Prop :=
  ∃ f, Grows sc f w w' ∧ f.tops.Sublist among ∧ ∀ t ∈ f.tops, t.isClass = isClass ∧ sc.exemption.covers t = false

theorem growsSame {w w' : Walk} (lines : w'.lines = w.lines) (visited : w'.visited = w.visited)
    (depth : w'.depth = w.depth) : Grows sc .nil w w' := by
  refine ⟨?_, ?_, depth, trivial⟩
  · simpa [Forest.lines] using lines
  · simpa [Forest.classes] using visited

theorem growsAppend {f h : Forest} {a b c : Walk} (first : Grows sc f a b) (second : Grows sc h b c) :
    Grows sc (f.append h) a c where
  lines := by simp [second.lines, first.lines, first.depth]
  visited := by simp [second.visited, first.visited]
  depth := second.depth.trans first.depth
  explained := Forest.explainedAppend first.explained second.explained

theorem listsSame {isClass : Bool} {among : List Symbol} {w w' : Walk} (lines : w'.lines = w.lines)
    (visited : w'.visited = w.visited) (depth : w'.depth = w.depth) : Lists sc isClass among w w' :=
  ⟨.nil, growsSame lines visited depth, List.nil_sublist _, by simp [Forest.tops]⟩

theorem foldLists {isClass : Bool} {visit : Walk → Symbol → Walk} (items : List Symbol)
    (each : ∀ a ∈ items, ∀ w, Lists sc isClass [a] w (visit w a)) (w : Walk) :
    Lists sc isClass items w (items.foldl visit w) := by
  induction items generalizing w with
  | nil => exact listsSame rfl rfl rfl
  | cons a rest ih =>
    obtain ⟨f, first, own, counts⟩ := each a (by simp) w
    obtain ⟨h, later, others, count⟩ := ih (fun b member => each b (by simp [member])) (visit w a)
    refine ⟨f.append h, growsAppend first later, ?_, fun t listed => ?_⟩
    · rw [Forest.topsAppend]
      exact own.append others
    · rw [Forest.topsAppend, List.mem_append] at listed
      exact listed.elim (counts t) (count t)

/- A symbol with all that is met between entering and leaving it. A class counts as visited before it is entered. -/
theorem growsNode (tracing : sc.reporter.tracing = true) {s : Symbol} {f : Forest} {w entered w' : Walk}
    (grows : Grows sc f (sc.enter s entered) w') (order : Forest.Children sc.graph s f.tops)
    (same : entered.events = w.events) (level : entered.depth = w.depth)
    (visited : entered.visited = w.visited ++ if s.isClass then [s] else []) :
    Grows sc (.node s f .nil) w (leave w') where
  lines := by
    have scanned : (sc.enter s entered).lines = w.lines ++ [(s, w.depth)] := by
      simp [Walk.lines, enter, tracing, same, level, Event.line?]
    have deeper : (sc.enter s entered).depth = w.depth + 1 := by simp [enter, level]
    change w'.lines = _
    rw [grows.lines, scanned, deeper]
    simp [Forest.lines]
  visited := by
    rw [leaveVisited, grows.visited, enterVisited, visited]
    simp [Forest.classes]
  depth := by
    have deeper : w'.depth = entered.depth + 1 := grows.depth
    rw [leave, deeper, level, Nat.add_sub_cancel]
  explained := ⟨order, grows.explained, trivial⟩

theorem flagLines (sc : Scanner) (c m : Symbol) (w : Walk) : (sc.flag c m w).lines = w.lines ∧ (sc.flag c m w).depth = w.depth := by
  by_cases old : m ∈ w.flagged
  · rw [flagOld old]
    exact ⟨rfl, rfl⟩
  · rw [flagNew old]
    unfold report
    split <;> simp [Walk.lines, Event.line?]

theorem visitMemberLists (tracing : sc.reporter.tracing = true) {visit : Walk → Symbol → Walk} {m : Symbol}
    (each : ∀ d ∈ sc.graph.typeClasses m.declaredType, ∀ w, Lists sc true [d] w (visit w d)) (c : Symbol) (w : Walk) :
    Lists sc false [m] w (sc.visitMember visit c w m) := by
  unfold visitMember
  split
  · exact listsSame rfl rfl rfl
  · rename_i skip
    simp only [Bool.or_eq_true, not_or, Bool.not_eq_true] at skip
    obtain ⟨_, counts⟩ := skip
    split
    · obtain ⟨lines, depth⟩ := flagLines sc c m w
      exact listsSame lines (flagVisited c m w) depth
    · split
      · rename_i follows
        have isMember : m.isClass = false := by
          revert follows
          cases kind : m.kind <;> simp [followed, Symbol.isClass, kind, Kind.isClass]
        obtain ⟨f, grows, targets, classes⟩ := foldLists _ each (sc.enter m w)
        have order := Forest.Children.ofMember isMember targets fun t top => (classes t top).1
        refine ⟨.node m f .nil, growsNode tracing grows order rfl rfl ?_, ?_, ?_⟩
        · simp [isMember]
        · simp [Forest.tops]
        · simp [Forest.tops, isMember, counts]
      · exact listsSame rfl rfl rfl

theorem visitClassLists (tracing : sc.reporter.tracing = true)
    (kinds : ∀ e ∈ sc.graph.entries, e.symbol.isClass = true) (n : Nat) (c : Symbol) (isClass : c.isClass = true)
    (w : Walk) : Lists sc true [c] w (sc.visitClass n w c) := by
  have known : ∀ d ∈ sc.graph.entries.map (·.symbol), d.isClass = true := by simpa using kinds
  induction n generalizing c w with
  | zero => exact listsSame rfl rfl rfl
  | succ n ih =>
    unfold visitClass
    split
    · exact listsSame rfl rfl rfl
    · rename_i skip
      simp only [Bool.or_eq_true, not_or, Bool.not_eq_true] at skip
      obtain ⟨_, counts⟩ := skip
      have member : ∀ m ∈ sc.graph.members c, ∀ w, Lists sc false [m] w (sc.visitMember (sc.visitClass n) c w m) :=
        fun m _ => visitMemberLists tracing (fun d target => ih d (known d (typeClassesKnown target))) c
      have parent : ∀ d ∈ sc.graph.parentClasses c, ∀ w, Lists sc true [d] w (sc.visitClass n w d) :=
        fun d derives => ih d (known d (parentClassesKnown derives))
      obtain ⟨f, first, declared, inside⟩ := foldLists _ member (sc.enter c { w with visited := w.visited ++ [c] })
      obtain ⟨h, second, derives, classes⟩ := foldLists _ parent _
      have order := Forest.Children.ofClass isClass declared (fun t top => (inside t top).1) derives
        fun t top => (classes t top).1
      rw [← Forest.topsAppend] at order
      refine ⟨.node c (f.append h) .nil, growsNode tracing (growsAppend first second) order rfl rfl ?_, ?_, ?_⟩
      · simp [isClass]
      · simp [Forest.tops]
      · simp [Forest.tops, isClass, counts]

/-- The class of a finding is visited and holds the member. -/
theorem movesOwned {w : Walk} (moves : Moves sc roots {} w) :
    ∀ v ∈ w.ledger.entries, v.owner ∈ w.visited ∧ v.symbol ∈ sc.graph.members v.owner := by
  induction moves with
  | refl => simp
  | @tail u w _ last ih =>
    have grows := (moveGrows last).1
    have before : ∀ v ∈ u.ledger.entries, v.owner ∈ w.visited ∧ v.symbol ∈ sc.graph.members v.owner :=
      fun v listed => ⟨grows (ih v listed).1, (ih v listed).2⟩
    cases last with
    | visit => exact before
    | follow => exact before
    | leave => exact before
    | flag c m inside exposed =>
      by_cases old : m ∈ u.flagged
      · rw [flagOld old] at before ⊢
        exact before
      · intro v listed
        rw [flagNew old, reportLedger] at listed
        rcases List.mem_append.mp listed with earlier | new
        · exact before v earlier
        · cases List.mem_singleton.mp new
          exact ⟨by simpa using inside, exposed.declared⟩

def walkAll (sc : Scanner) (roots : List Symbol) : Walk := roots.foldl (fun w r => sc.walk r w) {}

theorem walkStops {w : Walk} {r : Symbol} (halted : w.halted = true) : sc.walk r w = w := visitClassStops w r halted

theorem scanWalked (sc : Scanner) (rs : List Symbol) (classes : ∀ r ∈ rs, r.isClass = true) (w : Walk) (running : w.halted = false) :
    rs.foldlM sc.scan w =
      if (rs.foldl (fun w r => sc.walk r w) w).halted then .error .typeWithoutText
      else .ok (rs.foldl (fun w r => sc.walk r w) w) := by
  induction rs generalizing w with
  | nil => simp [running, pure, Except.pure]
  | cons r rest ih =>
    have isClass := classes r (by simp)
    rw [List.foldlM_cons, List.foldl_cons]
    cases runs : (sc.walk r w).halted with
    | true =>
      rw [foldStops (fun _ _ => walkStops) rest runs, if_pos runs]
      simp [scan, isClass, runs, bind, Except.bind]
    | false =>
      rw [← ih (fun x member => classes x (by simp [member])) _ runs]
      simp [scan, isClass, runs, bind, Except.bind]

theorem walksMove (rs : List Symbol) (among : rs ⊆ roots) (w : Walk) :
    Moves sc roots w (rs.foldl (fun w r => sc.walk r w) w) := by
  induction rs generalizing w with
  | nil => exact .refl
  | cons r rest ih =>
    exact (walkMoves (among (by simp)) w).trans (ih (fun x member => among (by simp [member])) _)

/-- How the lines of a walk account for what it has found. -/
structure Accounts (sc : Scanner) (roots : List Symbol) (w : Walk) : Prop where
  forest : ∃ f : Forest, w.lines = f.lines 0 ∧ f.Explained sc.graph ∧ f.tops.Sublist roots
  traced : ∀ before s depth after, w.lines = before ++ (s, depth) :: after → Traced sc roots before s depth
  visited : (w.lines.filter (·.1.isClass)).map (·.1) = w.visited
  flagged : ∀ v ∈ w.ledger.entries, v.symbol ∈ sc.graph.members v.owner ∧
    ∃ before depth after, w.lines = before ++ (v.owner, depth) :: after ∧ Traced sc roots before v.owner depth

theorem walkAllAccounts (tracing : sc.reporter.tracing = true) (kinds : ∀ e ∈ sc.graph.entries, e.symbol.isClass = true)
    (classes : ∀ r ∈ roots, r.isClass = true) : Accounts sc roots (sc.walkAll roots) := by
  have root : ∀ r ∈ roots, ∀ w, Lists sc true [r] w (sc.walk r w) :=
    fun r start => visitClassLists tracing kinds _ r (classes r start)
  obtain ⟨f, grows, starts, counts⟩ : Lists sc true roots {} (sc.walkAll roots) := foldLists roots root {}
  have lines : (sc.walkAll roots).lines = f.lines 0 := grows.lines
  have visited : (sc.walkAll roots).visited = f.classes := grows.visited
  have classLines : ((sc.walkAll roots).lines.filter (·.1.isClass)).map (·.1) = (sc.walkAll roots).visited := by
    rw [lines, visited, Forest.classLines]
  have traced : ∀ before s depth after, (sc.walkAll roots).lines = before ++ (s, depth) :: after →
      Traced sc roots before s depth := by
    intro before s depth after split
    refine forestTraced f grows.explained [] 0 (fun t top between _ => ?_) (lines.symm.trans split)
    exact .root (starts.subset top) (counts t top).2
  refine ⟨⟨f, lines, grows.explained, starts⟩, traced, classLines, fun v listed => ?_⟩
  have moves : Moves sc roots {} (sc.walkAll roots) := walksMove roots (fun _ h => h) {}
  obtain ⟨inside, declared⟩ := movesOwned moves v listed
  rw [← classLines] at inside
  obtain ⟨⟨owner, depth⟩, line, rfl⟩ := List.mem_map.mp inside
  obtain ⟨before, after, split⟩ := List.append_of_mem (List.mem_filter.mp line).1
  exact ⟨declared, before, depth, after, split, traced _ _ _ _ split⟩

end Scanner

namespace Graph

/-- With the trace on, the lines of a run from classes account for all that it visits and flags, also if the run breaks off;
and every walk ends on the level where it began. -/
theorem traceAccounts (g : Graph) (s : Settings) (roots : List Symbol) (on : s.checkReentrant = true)
    (tracing : s.trace = true) (kinds : ∀ e ∈ g.entries, e.symbol.isClass = true)
    (classes : ∀ r ∈ roots, r.isClass = true) :
    ∃ w, w = (s.scanner g).walkAll roots ∧ (s.scanner g).Accounts roots w ∧
      g.checkFrom s roots = (if w.halted then .error .typeWithoutText else .ok
        { result := { roots := roots.map (·.qualifiedName), visitedClasses := w.visited.map (·.qualifiedName),
                      diagnostics := w.diagnostics }
          events := w.events }) ∧
      ∀ v, ∀ r ∈ roots, ((s.scanner g).walk r v).depth = v.depth := by
  have scanned := Scanner.scanWalked (s.scanner g) roots classes {} rfl
  refine ⟨_, rfl, Scanner.walkAllAccounts tracing kinds classes, ?_, fun v r start => ?_⟩
  · rw [Scanner.walkAll]
    split
    · rename_i halted
      rw [if_pos halted] at scanned
      simp [checkFrom, on, scanned, bind, Except.bind]
    · rename_i runs
      rw [if_neg runs] at scanned
      exact checkOn on scanned
  · obtain ⟨f, grows, _⟩ : (s.scanner g).Lists true [r] v ((s.scanner g).walk r v) :=
      Scanner.visitClassLists tracing kinds _ r (classes r start) v
    exact grows.depth

theorem mutualParentsTraced :
    ∃ w, w = (Settings.scanner { trace := true } mutualParents).walkAll mutualParents.staticOwners ∧
      w.lines.map (fun l => (l.1.name, l.2)) = [("A", 0), ("next", 1), ("B", 2)] ∧
      (Settings.scanner { trace := true } mutualParents).Accounts mutualParents.staticOwners w := by
  obtain ⟨w, same, accounts, _⟩ := traceAccounts mutualParents { trace := true } mutualParents.staticOwners rfl rfl
    (by decide) (by decide)
  exact ⟨w, same, by rw [same]; decide +kernel, accounts⟩

end Graph
end SharedState
