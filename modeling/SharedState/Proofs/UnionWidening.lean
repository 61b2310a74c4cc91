import SharedState.Proofs.WideningSteps

/-! Widening of unions and intersections. A member contributes the classes that it denotes on its own, wherever it stands; those
met before are left out. So only the leaves of a type count, in their order, and not how they are grouped. The same classes are found
by one pass that shares its state among the members. -/
namespace SharedState

/-! First occurrences. -/

section Firsts

variable {α β : Type} [BEq α] [LawfulBEq α]

theorem firstsFilter (p : α → Bool) (xs : List α) : (xs.filter p).eraseDups = xs.eraseDups.filter p := by
  induction size : xs.length using Nat.strongRecOn generalizing xs with
  | ind n ih =>
    cases xs with
    | nil => rfl
    | cons x rest =>
      have shorter := List.length_filter_le (fun b => !b == x) rest
      have others := ih _ (by simp only [List.length_cons] at size; omega) (rest.filter fun b => !b == x) rfl
      have swapped : (rest.filter p).filter (fun b => !b == x) = (rest.filter fun b => !b == x).filter p := by
        simp only [List.filter_filter, Bool.and_comm]
      cases kept : p x with
      | true => rw [List.filter_cons_of_pos kept, List.eraseDups_cons, List.eraseDups_cons, List.filter_cons_of_pos kept, swapped, others]
      | false =>
        have absent : (rest.filter p).filter (fun b => !b == x) = rest.filter p := by
          refine List.filter_eq_self.2 fun b inside => ?_
          have other : b ≠ x := by
            rintro rfl
            rw [(List.mem_filter.1 inside).2] at kept
            cases kept
          simpa using other
        have unkept : ¬ p x = true := by simp [kept]
        rw [List.filter_cons_of_neg unkept, List.eraseDups_cons, List.filter_cons_of_neg unkept, ← others, ← swapped, absent]

theorem firstsAppend (xs ys : List α) :
    (xs ++ ys).eraseDups = xs.eraseDups ++ ys.eraseDups.filter fun y => !xs.eraseDups.contains y := by
  have same (y : α) : xs.eraseDups.contains y = xs.contains y := by
    rw [Bool.eq_iff_iff, List.contains_iff_mem, List.contains_iff_mem, List.mem_eraseDups]
  simp only [List.eraseDups_append, List.removeAll, firstsFilter, same]

theorem firstsTwice (xs : List α) : xs.eraseDups.eraseDups = xs.eraseDups := by
  induction size : xs.length using Nat.strongRecOn generalizing xs with
  | ind n ih =>
    cases xs with
    | nil => rfl
    | cons x rest =>
      have shorter := List.length_filter_le (fun b => !b == x) rest
      have others := ih _ (by simp only [List.length_cons] at size; omega) (rest.filter fun b => !b == x) rfl
      rw [List.eraseDups_cons, List.eraseDups_cons, ← firstsFilter, List.filter_filter]
      simp only [Bool.and_self, others]

theorem firstsFlatMap (f : β → List α) (xs : List β) :
    (xs.flatMap fun x => (f x).eraseDups).eraseDups = (xs.flatMap f).eraseDups := by
  induction xs with
  | nil => rfl
  | cons x xs ih => rw [List.flatMap_cons, List.flatMap_cons, firstsAppend, firstsAppend, firstsTwice, ih]

end Firsts

namespace TypeRef

theorem headsAllMap (ts : List TypeRef) : headsAll ts = ts.flatMap heads := by
  induction ts with
  | nil => rfl
  | cons t ts ih => rw [headsAll, ih, List.flatMap_cons]

mutual
/-- What unions and intersections in a type are made of, from left to right. -/
def leaves : TypeRef → List TypeRef
  | mk .union _ args => leavesAll args
  | mk .intersection _ args => leavesAll args
  | t => [t]
def leavesAll : List TypeRef → List TypeRef
  | [] => []
  | t :: rest => leaves t ++ leavesAll rest
end

mutual
theorem headsLeaves : (t : TypeRef) → t.leaves.flatMap heads = t.heads
  | mk .union _ args => headsLeavesAll args
  | mk .intersection _ args => headsLeavesAll args
  | mk .named _ _ | mk .applied _ _ | mk .array _ _ => List.append_nil _
theorem headsLeavesAll : (ts : List TypeRef) → (leavesAll ts).flatMap heads = headsAll ts
  | [] => rfl
  | t :: rest => by rw [leavesAll, List.flatMap_append, headsLeaves t, headsLeavesAll rest, headsAll]
end

end TypeRef

namespace Graph

variable {g : Graph}

theorem classSymbolsAll (ts : List TypeRef) :
    ((TypeRef.headsAll ts).flatMap (g.expand g.aliases.length [])).eraseDups = (ts.flatMap g.classSymbols).eraseDups := by
  have parts : ts.flatMap g.classSymbols = ts.flatMap fun t => (t.heads.flatMap (g.expand g.aliases.length [])).eraseDups := rfl
  rw [parts, firstsFlatMap, TypeRef.headsAllMap, List.flatMap_assoc]

theorem classSymbolsUnion (ts : List TypeRef) : g.classSymbols (.union ts) = (ts.flatMap g.classSymbols).eraseDups :=
  classSymbolsAll ts

theorem classSymbolsIntersection (ts : List TypeRef) : g.classSymbols (.intersection ts) = (ts.flatMap g.classSymbols).eraseDups :=
  classSymbolsAll ts

theorem classSymbolsLeaves {t u : TypeRef} (same : t.leaves = u.leaves) : g.classSymbols t = g.classSymbols u := by
  rw [classSymbols, classSymbols, ← TypeRef.headsLeaves t, ← TypeRef.headsLeaves u, same]

/- One more member adds the classes that were not there yet, at the end. -/
theorem classSymbolsMore (ts : List TypeRef) (t : TypeRef) : g.classSymbols (.union (ts ++ [t])) =
    g.classSymbols (.union ts) ++ (g.classSymbols t).filter fun c => !(g.classSymbols (.union ts)).contains c := by
  have once : (g.classSymbols t).eraseDups = g.classSymbols t := firstsTwice _
  rw [classSymbolsUnion, classSymbolsUnion, List.flatMap_append, firstsAppend, List.flatMap_singleton, once]

def parentTypes (g : Graph) (c : Symbol) : List TypeRef := ((g.entry? c).map (·.parents)).getD []

theorem parentClassesUnion (c : Symbol) : g.parentClasses c = g.classSymbols (.union (g.parentTypes c)) := by
  rw [classSymbolsUnion, parentClasses, parentTypes]
  cases g.entry? c <;> rfl

/- Types that are widened one after the other share their state, and each adds what it denotes on its own. -/
theorem widensInTurn (ts : List TypeRef) : g.Widens [] (ts.map .widen) (ts.flatMap g.classSymbols) := by
  intro rest seen
  have run := widensTypes (widensName (g := g) _ [] (pendingLength [])) ts rest seen
  rwa [firstsAppend, classSymbolsAll, ← firstsAppend] at run

/- Members of a union or an intersection contribute independently of each other, although a pass over them shares its state. Parents
are widened as their union, and grouping does not matter. -/
theorem wideningDistributes (g : Graph) :
    (∀ ts, g.classSymbols (.union ts) = (ts.flatMap g.classSymbols).eraseDups ∧
      g.classSymbols (.intersection ts) = (ts.flatMap g.classSymbols).eraseDups) ∧
    (∀ ts t, g.classSymbols (.union (ts ++ [t])) =
      g.classSymbols (.union ts) ++ (g.classSymbols t).filter fun c => !(g.classSymbols (.union ts)).contains c) ∧
    (∀ c, g.parentClasses c = g.classSymbols (.union (g.parentTypes c))) ∧
    (∀ t u, t.leaves = u.leaves → g.classSymbols t = g.classSymbols u) ∧
    ∀ (ts : List TypeRef) rest (seen : List Symbol), ∃ n, g.widenStep^[n] { tasks := ts.map .widen ++ rest, found := seen.eraseDups } =
      { tasks := rest, found := (seen ++ ts.flatMap g.classSymbols).eraseDups } :=
  ⟨fun ts => ⟨classSymbolsUnion ts, classSymbolsIntersection ts⟩, classSymbolsMore, parentClassesUnion,
    fun _ _ => classSymbolsLeaves, widensInTurn⟩

/-- Two classes, and two aliases that stand for each other and for one class each. -/
def crossedGraph : Graph where
  entries := ["A", "B"].map fun n => { symbol := { serial := 0, name := n, kind := .plainClass } }
  aliases := [("X", .union [.named "Y", .named "A"]), ("Y", .union [.named "X", .named "B"])]

/- The alias met first is cut below itself: the order of the classes tells which one it was. -/
theorem crossedLeaves :
    let mixed : TypeRef := .union [.named "X", .intersection [.named "Y", .array (.named "A")]]
    let flat : TypeRef := .intersection [.named "X", .named "Y", .array (.named "A")]
    mixed.leaves = flat.leaves ∧ crossedGraph.classSymbols mixed = crossedGraph.classSymbols flat ∧
    (crossedGraph.classSymbols flat).map (·.name) = ["B", "A"] ∧
    (crossedGraph.classSymbols (.named "Y")).map (·.name) = ["A", "B"] :=
  ⟨rfl, (wideningDistributes crossedGraph).2.2.2.1 _ _ rfl, by decide +kernel, by decide +kernel⟩

end Graph
end SharedState
