import SharedState.Proofs.Reachability

/-! Graphs that differ only in how their types are written. If each type keeps the names at which widening looks and its
text, the check tells the same, line by line. -/
namespace SharedState

namespace Event

def shown (e : Event) : Option String × Option Diagnostic := (e.traceLine?, e.diagnostic?)

end Event

namespace CheckRun

/-- The result of a run, and all that was told on the way to it, in order. -/
def shown (r : CheckRun) : CheckResult × List (Option String × Option Diagnostic) :=
  (r.result, r.events.map Event.shown)

end CheckRun

namespace Symbol

def retyped (f : TypeRef → TypeRef) (s : Symbol) : Symbol := { s with declaredType := s.declaredType.map f }

end Symbol

namespace ClassEntry

def retyped (f : TypeRef → TypeRef) (e : ClassEntry) : ClassEntry :=
  { symbol := e.symbol, members := e.members.map (·.retyped f), parents := e.parents.map f }

end ClassEntry

namespace Graph

def memberSymbols (g : Graph) : List Symbol := g.entries.flatMap (·.members)

/-- The second graph is the first with other types, which are told and followed in the same way. -/
structure Retyping (f : TypeRef → TypeRef) (g g' : Graph) : Prop where
  entries : g'.entries = g.entries.map (·.retyped f)
  owners : g'.staticOwners = g.staticOwners
  classes : ∀ t, g'.classSymbols t = g.classSymbols t
  members : ∀ m ∈ g.memberSymbols, ∀ t ∈ m.declaredType, (f t).heads = t.heads ∧ (f t).text? = t.text?
  parents : ∀ e ∈ g.entries, ∀ t ∈ e.parents, (f t).heads = t.heads
  distinct : ∀ m ∈ g.memberSymbols, ∀ n ∈ g.memberSymbols, m.retyped f = n.retyped f → m = n

theorem classSymbolsHeads {g : Graph} {t u : TypeRef} (h : u.heads = t.heads) : g.classSymbols u = g.classSymbols t := by
  rw [classSymbols, classSymbols, h]

/-- The names at which widening looks when it expands an alias. -/
def aliasHeads (g : Graph) (name : String) : List String :=
  match valueOf? name g.aliases with
  | none => []
  | some t => t.heads

theorem expandHeads (g : Graph) (n : Nat) (path : List String) (name : String) :
    g.expand (n + 1) path name = match g.lookup name with
      | some s => [s]
      | none => if name ∈ path then [] else (g.aliasHeads name).flatMap (g.expand n (name :: path)) := by
  rw [expand]
  cases g.lookup name with
  | some s => rfl
  | none => cases bound : valueOf? name g.aliases <;> simp [aliasHeads, bound]

/- What aliases stand for may leave out names that expand to nothing. -/
theorem expandAgrees {g g' : Graph} (lookups : g'.lookup = g.lookup) {keep : String → Bool}
    (heads : ∀ name, g'.aliasHeads name = (g.aliasHeads name).filter keep)
    (idle : ∀ name, ∀ x ∈ g.aliasHeads name, keep x = false → ∀ n path, g.expand n path x = []) (n : Nat)
    (path : List String) : g'.expand n path = g.expand n path := by
  induction n generalizing path with
  | zero =>
    funext name
    simp only [expand, lookups]
  | succ n ih =>
    funext name
    rw [expandHeads, expandHeads, lookups, heads, ih (name :: path)]
    have same : ∀ names : List String, (∀ x ∈ names, x ∈ g.aliasHeads name) →
        (names.filter keep).flatMap (g.expand n (name :: path)) = names.flatMap (g.expand n (name :: path)) := by
      intro names
      induction names with
      | nil => simp
      | cons first rest ihn =>
        intro known
        have others := ihn fun x member => known x (by simp [member])
        cases kept : keep first with
        | true => simp [kept, others]
        | false => simp [kept, others, idle name first (known first (by simp)) kept]
    rw [same _ fun _ member => member]

theorem classesAgree {g g' : Graph} (lookups : g'.lookup = g.lookup) {keep : String → Bool}
    (heads : ∀ name, g'.aliasHeads name = (g.aliasHeads name).filter keep)
    (idle : ∀ name, ∀ x ∈ g.aliasHeads name, keep x = false → ∀ n path, g.expand n path x = []) (t : TypeRef) :
    g'.classSymbols t = g.classSymbols t := by
  have first := (wideningStable g' t g.aliases.length).symm
  have second := wideningStable g t g'.aliases.length
  rw [first, ← second, expandAgrees lookups heads idle, Nat.add_comm]

variable {f : TypeRef → TypeRef} {g g' : Graph}

theorem retypedEntry (r : Retyping f g g') (c : Symbol) : g'.entry? c = (g.entry? c).map (·.retyped f) := by
  unfold entry?
  rw [r.entries, List.find?_map]
  rfl

theorem retypedMembers (r : Retyping f g g') (c : Symbol) : g'.members c = (g.members c).map (·.retyped f) := by
  rw [members, members, retypedEntry r]
  cases g.entry? c <;> rfl

theorem retypedParents (r : Retyping f g g') (c : Symbol) : g'.parentClasses c = g.parentClasses c := by
  rw [parentClasses, parentClasses, retypedEntry r]
  cases found : g.entry? c with
  | none => rfl
  | some e =>
    have each : e.parents.map (fun t => g'.classSymbols (f t)) = e.parents.map g.classSymbols := by
      apply List.map_congr_left
      intro t member
      rw [r.classes, classSymbolsHeads (r.parents e (List.mem_of_find?_eq_some found) t member)]
    have lists : (e.parents.map f).flatMap g'.classSymbols = e.parents.flatMap g.classSymbols := by
      rw [List.flatMap_def, List.flatMap_def, List.map_map]
      exact congrArg List.flatten each
    simp only [Option.map_some, ClassEntry.retyped, lists]

theorem retypedTargets (r : Retyping f g g') {m : Symbol} (known : m ∈ g.memberSymbols) :
    g'.typeClasses (m.retyped f).declaredType = g.typeClasses m.declaredType := by
  cases declared : m.declaredType with
  | none => simp [Symbol.retyped, declared, typeClasses]
  | some t =>
    simp only [Symbol.retyped, declared, Option.map_some, typeClasses]
    rw [r.classes, classSymbolsHeads (r.members m known t declared).1]

theorem membersKnown {c m : Symbol} (h : m ∈ g.members c) : m ∈ g.memberSymbols := by
  obtain ⟨e, entry, member⟩ := membersDeclared h
  exact List.mem_flatMap.mpr ⟨e, entry, member⟩

end Graph

namespace Scanner

open SharedState.Graph (Retyping)

variable {f : TypeRef → TypeRef} {g g' : Graph}

/-- Two states of walks over the two graphs that look the same. -/
structure Twin (f : TypeRef → TypeRef) (g : Graph) (w w' : Walk) : Prop where
  visited : w'.visited = w.visited
  flagged : w'.flagged = w.flagged.map (·.retyped f)
  depth : w'.depth = w.depth
  halted : w'.halted = w.halted
  shown : w'.events.map Event.shown = w.events.map Event.shown
  known : ∀ m ∈ w.flagged, m ∈ g.memberSymbols

theorem twinStart : Twin f g {} {} := ⟨rfl, rfl, rfl, rfl, rfl, by simp [Walk.flagged]⟩

theorem foldTwin {α β : Type} {visit : Walk → α → Walk} {visit' : Walk → β → Walk} (image : α → β) (items : List α)
    (each : ∀ a ∈ items, ∀ w w', Twin f g w w' → Twin f g (visit w a) (visit' w' (image a))) {w w' : Walk}
    (twin : Twin f g w w') : Twin f g (items.foldl visit w) ((items.map image).foldl visit' w') := by
  induction items generalizing w w' with
  | nil => exact twin
  | cons a rest ih => exact ih (fun b h => each b (by simp [h])) (each a (by simp) w w' twin)

theorem enterTwin (g' : Graph) {w w' : Walk} (twin : Twin f g w w') (x : Exemption) (p : Reporter) (s s' : Symbol)
    (same : s'.text = s.text) : Twin f g (enter ⟨g, x, p⟩ s w) (enter ⟨g', x, p⟩ s' w') := by
  refine ⟨twin.visited, twin.flagged, congrArg (· + 1) twin.depth, twin.halted, ?_, twin.known⟩
  have depth := twin.depth
  have shown := twin.shown
  simp only [enter]
  split
  · simp [shown, depth, Event.shown, Event.traceLine?, Event.diagnostic?, same]
  · exact shown

theorem leaveTwin {w w' : Walk} (twin : Twin f g w w') : Twin f g (leave w) (leave w') :=
  ⟨twin.visited, twin.flagged, congrArg (· - 1) twin.depth, twin.halted, twin.shown, twin.known⟩

theorem retypedDiagnostic (r : Retyping f g g') (severity : Severity) (c : Symbol) {m : Symbol}
    (known : m ∈ g.memberSymbols) :
    Diagnostic.ofViolation? severity ⟨c, m.retyped f, (m.retyped f).declaredType⟩ =
      Diagnostic.ofViolation? severity ⟨c, m, m.declaredType⟩ := by
  have text : Diagnostic.typeText? (m.retyped f).declaredType = Diagnostic.typeText? m.declaredType := by
    cases declared : m.declaredType with
    | none => simp [Symbol.retyped, declared]
    | some t => simp [Symbol.retyped, declared, Diagnostic.typeText?, (r.members m known t declared).2]
  simp only [Diagnostic.ofViolation?, text]
  rfl

theorem flagTwin (r : Retyping f g g') {w w' : Walk} (twin : Twin f g w w') (x : Exemption) (p : Reporter)
    (c : Symbol) {m : Symbol} (known : m ∈ g.memberSymbols) :
    Twin f g (flag ⟨g, x, p⟩ c m w) (flag ⟨g', x, p⟩ c (m.retyped f) w') := by
  have flags : m.retyped f ∈ w'.flagged ↔ m ∈ w.flagged := by
    rw [twin.flagged, List.mem_map]
    constructor
    · rintro ⟨n, before, same⟩
      exact r.distinct n (twin.known n before) m known same ▸ before
    · exact fun before => ⟨m, before, rfl⟩
  by_cases old : m ∈ w.flagged
  · rw [flagOld old, flagOld (flags.mpr old)]
    exact twin
  · have flagged := twin.flagged
    simp only [Walk.flagged] at flagged
    have knownAll : ∀ n ∈ w.flagged ++ [m], n ∈ g.memberSymbols := by
      intro n member
      rcases List.mem_append.mp member with before | last
      · exact twin.known n before
      · simpa [List.mem_singleton.mp last] using known
    rw [flagNew old, flagNew (fun h => old (flags.mp h))]
    simp only [report, retypedDiagnostic r p.severity c known]
    split
    · exact ⟨twin.visited, by simp [Walk.flagged, flagged], twin.depth, rfl, twin.shown, by
        simpa [Walk.flagged] using knownAll⟩
    · exact ⟨twin.visited, by simp [Walk.flagged, flagged], twin.depth, twin.halted, by simp [twin.shown], by
        simpa [Walk.flagged] using knownAll⟩

theorem visitMemberTwin (r : Retyping f g g') {visit visit' : Walk → Symbol → Walk}
    (each : ∀ d w w', Twin f g w w' → Twin f g (visit w d) (visit' w' d)) (x : Exemption) (p : Reporter) (c : Symbol)
    {m : Symbol} (known : m ∈ g.memberSymbols) {w w' : Walk} (twin : Twin f g w w') :
    Twin f g (visitMember ⟨g, x, p⟩ visit c w m) (visitMember ⟨g', x, p⟩ visit' c w' (m.retyped f)) := by
  have covers : x.covers (m.retyped f) = x.covers m := rfl
  have kind : (m.retyped f).kind = m.kind := rfl
  have isMutable : (m.retyped f).mutable = m.mutable := rfl
  unfold visitMember
  simp only [twin.halted, covers, kind, isMutable]
  split
  · exact twin
  · split
    · exact flagTwin r twin x p c known
    · split
      · rw [Graph.retypedTargets r known]
        have targets := foldTwin id (g.typeClasses m.declaredType) (fun d _ => each d)
          (enterTwin g' twin x p m (m.retyped f) rfl)
        rw [List.map_id] at targets
        exact leaveTwin targets
      · exact twin

theorem visitClassTwin (r : Retyping f g g') (x : Exemption) (p : Reporter) (n : Nat) (c : Symbol) (w w' : Walk)
    (twin : Twin f g w w') : Twin f g (visitClass ⟨g, x, p⟩ n w c) (visitClass ⟨g', x, p⟩ n w' c) := by
  induction n generalizing c w w' with
  | zero => exact twin
  | succ n ih =>
    unfold visitClass
    simp only [twin.halted, twin.visited]
    split
    · exact twin
    · have marked : Twin f g { w with visited := w.visited ++ [c] }
          { w' with visited := w.visited ++ [c], halted := w.halted } :=
        ⟨rfl, twin.flagged, twin.depth, rfl, twin.shown, twin.known⟩
      have members := foldTwin (·.retyped f) (g.members c)
        (fun m declared w w' => visitMemberTwin r (fun d => ih d) x p c (Graph.membersKnown declared))
        (enterTwin g' marked x p c c rfl)
      have parents := foldTwin id (g.parentClasses c) (fun d _ => ih d) members
      rw [List.map_id, ← Graph.retypedMembers r] at parents
      rw [Graph.retypedParents r]
      exact leaveTwin parents

theorem scanTwin (r : Retyping f g g') (x : Exemption) (p : Reporter) (roots : List Symbol) {w w' : Walk}
    (twin : Twin f g w w') :
    (∃ e, roots.foldlM (scan ⟨g, x, p⟩) w = .error e ∧ roots.foldlM (scan ⟨g', x, p⟩) w' = .error e) ∨
      ∃ v v', roots.foldlM (scan ⟨g, x, p⟩) w = .ok v ∧ roots.foldlM (scan ⟨g', x, p⟩) w' = .ok v' ∧ Twin f g v v' := by
  induction roots generalizing w w' with
  | nil => exact .inr ⟨w, w', rfl, rfl, twin⟩
  | cons root rest ih =>
    have size : g'.size = g.size := by simp [Graph.size, r.entries]
    have next : Twin f g (walk ⟨g, x, p⟩ root w) (walk ⟨g', x, p⟩ root w') := by
      unfold walk
      rw [size]
      exact visitClassTwin r x p _ root w w' twin
    simp only [List.foldlM_cons, scan, next.halted]
    split
    · exact .inl ⟨_, rfl, rfl⟩
    · split
      · exact .inl ⟨_, rfl, rfl⟩
      · exact ih next

end Scanner

namespace Graph

theorem diagnosticsShown {events events' : List Event} (h : events'.map Event.shown = events.map Event.shown) :
    events'.filterMap Event.diagnostic? = events.filterMap Event.diagnostic? := by
  have project : ∀ es : List Event, es.filterMap Event.diagnostic? = (es.map Event.shown).filterMap (·.2) := by
    intro es
    rw [List.filterMap_map]
    rfl
  rw [project, project, h]

/-- A check does not see how types are written. -/
theorem checkRetyped {f : TypeRef → TypeRef} {g g' : Graph} (r : Retyping f g g') (s : Settings) (roots : List Symbol) :
    (g'.checkFrom s roots).map CheckRun.shown = (g.checkFrom s roots).map CheckRun.shown := by
  unfold checkFrom
  split
  · rfl
  · rcases Scanner.scanTwin r s.exemption s.reporter roots Scanner.twinStart with ⟨e, left, right⟩ | ⟨v, v', left, right, twin⟩
    · simp only [Settings.scanner, left, right, bind, Except.bind]
    · simp only [Settings.scanner, left, right]
      simp [bind, Except.bind, Except.map, pure, Except.pure, CheckRun.shown, Walk.diagnostics, twin.visited, twin.shown,
        diagnosticsShown twin.shown]

end Graph
end SharedState
