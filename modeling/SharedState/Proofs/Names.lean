import SharedState.Proofs.Markers
import SharedState.Proofs.TypeTokens

/-! Dotted names: what their parts are, how they grow, and which expressions spell them. -/
namespace SharedState

open SharedState.Source SharedState.Text

theorem componentsDotted {n : String} (name : DottedName n) : ∃ first others,
    components n = first :: others ∧ OpeningWord first ∧ ∀ w ∈ others, PlainWord w := by
  obtain ⟨first, others, spelled, opening, plain⟩ := name
  have valid : ∀ w ∈ first :: others, isIdentifier w.toList = true := by
    intro w member
    rcases List.mem_cons.1 member with rfl | later
    · exact opening.1
    · exact (plain w later).1
  exact ⟨first, others, componentsWords spelled valid, opening, plain⟩

theorem dottedSpelled (w : String) (words : List String) :
    (dotted (w :: words)).toList = w.toList ++ words.flatMap fun v => '.' :: v.toList := by
  have dot : ".".toList = ['.'] := rfl
  induction words generalizing w with
  | nil => simp [dotted]
  | cons v words ih =>
    have rest := ih v
    simp only [dotted] at rest
    rw [dotted, String.intercalate_cons_cons, String.toList_append, String.toList_append, rest, dot]
    simp

theorem dottedComponents (n : String) : dotted (components n) = n := by
  obtain ⟨first, others, split, joined⟩ := piecesJoin '.' n.toList
  rw [components, split, ← String.toList_inj, List.map_cons, dottedSpelled, ← joined]
  simp [List.flatMap_map]

theorem qualifierInside (n : String) {w : String} (word : PlainWord w) : qualifier (n ++ "." ++ w) = n := by
  have spelled : (n ++ "." ++ w).toList = n.toList ++ '.' :: w.toList := by simp
  rw [qualifier, components, spelled, piecesAppend, piecesWord (noDot word.1), List.map_append, List.map_singleton, List.dropLast_concat]
  exact dottedComponents n

theorem dottedWords {w : String} {words : List String} (opening : OpeningWord w) (plain : ∀ v ∈ words, PlainWord v) :
    DottedName (dotted (w :: words)) :=
  ⟨w, words, dottedSpelled w words, opening, plain⟩

theorem dottedJoin {n : String} (name : DottedName n) {words : List String} (some : words ≠ [])
    (plain : ∀ w ∈ words, PlainWord w) : DottedName (n ++ "." ++ dotted words) := by
  obtain ⟨first, others, spelled, opening, rest⟩ := name
  obtain ⟨w, words, rfl⟩ := List.exists_cons_of_ne_nil some
  have dot : ".".toList = ['.'] := rfl
  refine ⟨first, others ++ w :: words, ?_, opening, fun v member => ?_⟩
  · rw [String.toList_append, String.toList_append, spelled, dottedSpelled, dot]
    simp
  · rcases List.mem_append.1 member with old | new
    · exact rest v old
    · exact plain v new

/-! What an expression spells. -/

theorem constantWord (c : Constant) : OpeningWord c.text := by
  cases c <;> exact ⟨by decide, .inr (by decide)⟩

theorem fullNameDotted (e : Expr) (spelled : e.fullName ≠ "") : DottedName e.fullName := by
  fun_induction Expr.fullName e with
  | case1 id _ => exact dottedWord ⟨id.plain.1, .inl id.plain.2⟩
  | case2 c => exact dottedWord (constantWord c)
  | case3 value attr _ front empty ih => exact absurd rfl spelled
  | case4 value attr _ front filled ih =>
    have nonempty : front ≠ "" := by simpa using filled
    exact dottedAccess (ih nonempty) attr.plain
  | case5 => exact absurd rfl spelled

theorem nameOrNone (e : Expr) : e.fullName = "" ∨ DottedName e.fullName :=
  or_iff_not_imp_left.2 (fullNameDotted e)

/-! Words of which a name is made up are markers as a document keeps them. -/

def MaybeWord (w : String) : Prop := w = "" ∨ isIdentifier w.toList = true

theorem leafWord {n : String} (name : n = "" ∨ DottedName n) : MaybeWord (leaf n) := by
  rcases name with rfl | name
  · exact .inl rfl
  · obtain ⟨first, others, parts, opening, plain⟩ := componentsDotted name
    refine .inr ?_
    rw [leaf, parts]
    cases others with
    | nil => exact opening.1
    | cons w others =>
      have member : (w :: others).getLast (by simp) ∈ w :: others := List.getLast_mem _
      rw [List.getLast?_cons_cons, List.getLast?_eq_some_getLast (by simp)]
      exact (plain _ member).1

theorem settledWord {w : String} (word : MaybeWord w) (filled : w ≠ "") : Settled w := by
  have valid := word.resolve_left filled
  have framed := framedWord valid
  obtain ⟨c, cs, shape, start, _⟩ := framed.first
  have other : c ≠ '@' := by rintro rfl; revert start; decide
  have kept : w.toList.dropWhile (· == '@') = w.toList := by simp [shape, other]
  exact ⟨filled, by rw [Settings.bareMarker, stripFramed framed, dropLeading, kept, String.ofList_toList]⟩

end SharedState
