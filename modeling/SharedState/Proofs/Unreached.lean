import SharedState.Proofs.Records
import SharedState.Proofs.Rearrangement
import SharedState.Proofs.Retyping

/-! Code that a run does not reach. Two graphs with the same classes may differ in every class that the run over the first one
does not visit; the run over the second one is the same step by step. -/
namespace SharedState

namespace Graph

/-- Every type denotes the same classes in both graphs. -/
structure SameNames (g g' : Graph) : Prop where
  names : (g.entries.map (·.symbol.qualifiedName)).Nodup
  names' : (g'.entries.map (·.symbol.qualifiedName)).Nodup
  classes : ∀ c, c ∈ g'.entries.map (·.symbol) ↔ c ∈ g.entries.map (·.symbol)
  aliases : ∀ name, valueOf? name g'.aliases = valueOf? name g.aliases

variable {g g' : Graph}

theorem sameLookup (same : SameNames g g') : g'.lookup = g.lookup := by
  funext name
  ext c
  rw [lookupIff same.names', lookupIff same.names, same.classes]

theorem sameSize (same : SameNames g g') : g'.size = g.size := by
  have distinct {h : Graph} (names : (h.entries.map (·.symbol.qualifiedName)).Nodup) : (h.entries.map (·.symbol)).Nodup :=
    List.Nodup.of_map (·.qualifiedName) (by simpa [Function.comp_def] using names)
  have order := (List.perm_ext_iff_of_nodup (distinct same.names') (distinct same.names)).mpr same.classes
  simpa [size] using order.length_eq

theorem sameClasses (same : SameNames g g') (t : TypeRef) : g'.classSymbols t = g.classSymbols t := by
  have heads : ∀ name, g'.aliasHeads name = (g.aliasHeads name).filter fun _ => true := by simp [aliasHeads, same.aliases]
  exact classesAgree (sameLookup same) heads (by simp) t

theorem sameTargets (same : SameNames g g') : g'.typeClasses = g.typeClasses := by
  funext declared
  cases declared with
  | none => rfl
  | some t => exact sameClasses same t

theorem sameMembers {c : Symbol} (entry : g'.entry? c = g.entry? c) : g'.members c = g.members c := by
  rw [members, members, entry]

theorem sameParents (same : SameNames g g') {c : Symbol} (entry : g'.entry? c = g.entry? c) :
    g'.parentClasses c = g.parentClasses c := by
  have classes : g'.classSymbols = g.classSymbols := funext (sameClasses same)
  rw [parentClasses, parentClasses, entry, classes]

end Graph

namespace Scanner

open SharedState.Graph (SameNames)

variable {sc : Scanner}

theorem visitedKept (sc : Scanner) (start : Walk) : Kept sc fun w => start.visited ⊆ w.visited where
  entering _ _ before := before
  leaving _ before := before
  marking _ _ before := List.Subset.trans before (by simp)
  flagging c m w _ before := by rwa [flagVisited]

theorem visitClassKeeps (sc : Scanner) (n : Nat) (w : Walk) (c : Symbol) : w.visited ⊆ (sc.visitClass n w c).visited :=
  visitClassKept (visitedKept sc w) n w c (List.Subset.refl _)

theorem visitMemberKeeps {visit : Walk → Symbol → Walk} (keeps : ∀ w d, w.visited ⊆ (visit w d).visited) (c : Symbol) (w : Walk)
    (m : Symbol) : w.visited ⊆ (sc.visitMember visit c w m).visited :=
  visitMemberKept (visitedKept sc w) (fun v d before => List.Subset.trans before (keeps v d)) c w m (List.Subset.refl _)

theorem foldKeeps {visit : Walk → Symbol → Walk} (keeps : ∀ w a, w.visited ⊆ (visit w a).visited) (items : List Symbol) (w : Walk) :
    w.visited ⊆ (items.foldl visit w).visited :=
  List.foldlRecOn items visit (motive := fun v => w.visited ⊆ v.visited) (List.Subset.refl _) fun v before a _ =>
    List.Subset.trans before (keeps v a)

/- Two visitors that agree as long as only settled classes are visited. What a fold has visited in the end it may have visited
anywhere before, so it is enough to know that the last state is settled. -/
theorem foldSame {visit visit' : Walk → Symbol → Walk} {settled : Symbol → Prop}
    (keeps : ∀ w a, w.visited ⊆ (visit w a).visited)
    (each : ∀ w a, (∀ d ∈ (visit w a).visited, settled d) → visit' w a = visit w a) (items : List Symbol) (w : Walk)
    (ends : ∀ d ∈ (items.foldl visit w).visited, settled d) : items.foldl visit' w = items.foldl visit w := by
  induction items generalizing w with
  | nil => rfl
  | cons a rest ih =>
    have first : visit' w a = visit w a := each w a fun d seen => ends d (foldKeeps keeps rest _ seen)
    rw [List.foldl_cons, List.foldl_cons, first]
    exact ih (visit w a) ends

variable {g g' : Graph} {x : Exemption} {p : Reporter}

theorem visitMemberSame (same : SameNames g g') {visit visit' : Walk → Symbol → Walk} {settled : Symbol → Prop}
    (keeps : ∀ w d, w.visited ⊆ (visit w d).visited)
    (each : ∀ w d, (∀ e ∈ (visit w d).visited, settled e) → visit' w d = visit w d) (c : Symbol) (w : Walk) (m : Symbol)
    (ends : ∀ e ∈ (visitMember ⟨g, x, p⟩ visit c w m).visited, settled e) :
    visitMember ⟨g', x, p⟩ visit' c w m = visitMember ⟨g, x, p⟩ visit c w m := by
  unfold visitMember at ends ⊢
  simp only [Graph.sameTargets same] at ends ⊢
  revert ends
  split
  · exact fun _ => rfl
  · split
    · exact fun _ => rfl
    · split
      · exact fun ends => congrArg leave (foldSame keeps each _ _ ends)
      · exact fun _ => rfl

theorem visitClassSame (same : SameNames g g') (n : Nat) (w : Walk) (c : Symbol)
    (ends : ∀ d ∈ (visitClass ⟨g, x, p⟩ n w c).visited, g'.entry? d = g.entry? d) :
    visitClass ⟨g', x, p⟩ n w c = visitClass ⟨g, x, p⟩ n w c := by
  induction n generalizing w c with
  | zero => rfl
  | succ n ih =>
    unfold visitClass at ends ⊢
    revert ends
    split
    · exact fun _ => rfl
    · intro ends
      have keeps := visitClassKeeps ⟨g, x, p⟩ n
      -- what the members lead to is visited before the parents, and `c` itself before both
      have early := fun d seen => ends d (foldKeeps keeps (g.parentClasses c) _ seen)
      have own : g'.entry? c = g.entry? c := early c (foldKeeps (visitMemberKeeps keeps c) (g.members c) _ (by simp))
      have members := foldSame (visitMemberKeeps keeps c) (visitMemberSame same keeps ih c) (g.members c) _ early
      have parents := foldSame keeps ih (g.parentClasses c) _ ends
      simp only [Graph.sameMembers own, Graph.sameParents same own]
      exact congrArg leave ((congrArg ((g.parentClasses c).foldl (visitClass ⟨g', x, p⟩ n)) members).trans parents)

theorem walksSame (same : SameNames g g') (roots : List Symbol)
    (ends : ∀ d ∈ (walkAll ⟨g, x, p⟩ roots).visited, g'.entry? d = g.entry? d) :
    walkAll ⟨g', x, p⟩ roots = walkAll ⟨g, x, p⟩ roots := by
  unfold walkAll walk at ends ⊢
  simp only [Graph.sameSize same]
  exact foldSame (visitClassKeeps _ _) (visitClassSame same _) roots _ ends

end Scanner

namespace Graph

/-- Two graphs with the same classes and aliases, in which the classes that a run over the first one visits have the same members
and parents: the run over the second one comes to the same, with the same calls of a sink and the same trace on the way. -/
theorem unreachedIrrelevant {σ : Type} {g g' : Graph} (same : SameNames g g') (s : Settings) (roots : List Symbol)
    (out : Outlet σ) (world : σ)
    (reached : ∀ c ∈ (g.watch s out roots world).visited, g'.entry? c = g.entry? c) :
    g'.watch s out roots world = g.watch s out roots world ∧ g'.checkFrom s roots = g.checkFrom s roots := by
  by_cases on : s.checkReentrant = true
  · rw [watchSeen g on] at reached
    have walks : g'.walked s roots = g.walked s roots := Scanner.walksSame same _ reached
    rw [watchSeen g on, watchSeen g' on, checkWalked g on, checkWalked g' on, walks]
    exact ⟨rfl, rfl⟩
  · rw [Bool.not_eq_true] at on
    simp [watch, checkFrom, on]

/-- `mutualParents` with nothing in the classes that its check does not come to. -/
def mutualParentsEmptied : Graph :=
  { mutualParents with
    entries := mutualParents.entries.map fun e => if e.symbol.name ∈ ["A", "B"] then e else { symbol := e.symbol } }

theorem mutualParentsEmptiedSame : mutualParentsEmptied ≠ mutualParents ∧
    mutualParentsEmptied.watch { trace := true } .recording mutualParents.staticOwners [] =
      mutualParents.watch { trace := true } .recording mutualParents.staticOwners [] ∧
    mutualParentsEmptied.checkFrom { trace := true } mutualParents.staticOwners =
      mutualParents.checkFrom { trace := true } mutualParents.staticOwners := by
  have symbols : mutualParentsEmptied.entries.map (·.symbol) = mutualParents.entries.map (·.symbol) := by decide +kernel
  have same : SameNames mutualParents mutualParentsEmptied :=
    ⟨by decide +kernel, by decide +kernel, fun c => by rw [symbols], fun _ => rfl⟩
  exact ⟨by decide +kernel, unreachedIrrelevant same _ _ _ _ (by decide +kernel)⟩

end Graph
end SharedState
