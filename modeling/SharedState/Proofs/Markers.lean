import Mathlib.Data.List.Basic
import Mathlib.Data.String.Basic
import SharedState.Document.Graph

/-! Markers: sorted sets of names. A document keeps those that are read as they are written. -/
namespace SharedState

open SharedState.Text

/-- A marker that is not changed when a document is read. -/
def Settled (m : String) : Prop := m ≠ "" ∧ Settings.bareMarker m = m

theorem insertLast {m : String} {set : List String} (above : ∀ x ∈ set, x < m) : insertMarker m set = set ++ [m] := by
  induction set with
  | nil => rfl
  | cons x set ih =>
    have greater := above x (by simp)
    rw [insertMarker, if_neg (ne_of_gt greater), if_neg (String.lt_asymm greater), ih fun y member => above y (by simp [member])]
    rfl

theorem markerSetSorted {names : List String} (sorted : names.Pairwise (· < ·)) : markerSet names = names := by
  have grows : ∀ (names set : List String), (set ++ names).Pairwise (· < ·) →
      names.foldl (fun set n => insertMarker n set) set = set ++ names := by
    intro names
    induction names with
    | nil => simp
    | cons n names ih =>
      intro set sorted
      have above : ∀ x ∈ set, x < n := fun x member => (List.pairwise_append.1 sorted).2.2 x member n (by simp)
      rw [List.foldl_cons, insertLast above, ih _ (by simpa using sorted)]
      simp
  exact grows names [] sorted

theorem insertMember {m x : String} {set : List String} (member : x ∈ insertMarker m set) : x = m ∨ x ∈ set := by
  induction set with
  | nil => simpa [insertMarker] using member
  | cons y set ih =>
    rw [insertMarker] at member
    split at member
    · exact .inr member
    · split at member
      · exact List.mem_cons.1 member
      · rcases List.mem_cons.1 member with rfl | later
        · exact .inr (by simp)
        · rcases ih later with new | old
          · exact .inl new
          · exact .inr (by simp [old])

theorem insertSorted (m : String) {set : List String} (sorted : set.Pairwise (· < ·)) :
    (insertMarker m set).Pairwise (· < ·) := by
  induction set with
  | nil => simp [insertMarker]
  | cons y set ih =>
    obtain ⟨first, rest⟩ := List.pairwise_cons.1 sorted
    rw [insertMarker]
    split
    · exact sorted
    · rename_i other
      split
      · rename_i smaller
        refine List.pairwise_cons.2 ⟨fun x member => ?_, sorted⟩
        rcases List.mem_cons.1 member with rfl | later
        · exact smaller
        · exact String.lt_trans smaller (first x later)
      · rename_i notSmaller
        refine List.pairwise_cons.2 ⟨fun x member => ?_, ih rest⟩
        rcases insertMember member with rfl | old
        · exact lt_of_le_of_ne (not_lt.1 notSmaller) (Ne.symm other)
        · exact first x old

theorem insertAllMember {names set : List String} {m : String}
    (member : m ∈ names.foldl (fun set n => insertMarker n set) set) : m ∈ set ∨ m ∈ names := by
  induction names generalizing set with
  | nil => exact .inl member
  | cons n names ih =>
    rcases ih member with old | new
    · rcases insertMember old with rfl | older
      · exact .inr (by simp)
      · exact .inl older
    · exact .inr (by simp [new])

theorem insertKept {m x : String} {set : List String} (known : x = m ∨ x ∈ set) : x ∈ insertMarker m set := by
  induction set with
  | nil => simpa [insertMarker] using known
  | cons y set ih =>
    rw [insertMarker]
    split
    · rename_i same
      rcases known with rfl | old
      · simp [same]
      · exact old
    · split
      · simpa using known
      · rw [List.mem_cons] at known ⊢
        rcases known with new | first | old
        · exact .inr (ih (.inl new))
        · exact .inl first
        · exact .inr (ih (.inr old))

theorem insertAllKept {names set : List String} {m : String} (known : m ∈ set ∨ m ∈ names) :
    m ∈ names.foldl (fun set n => insertMarker n set) set := by
  induction names generalizing set with
  | nil => simpa using known
  | cons n names ih =>
    rw [List.mem_cons] at known
    rcases known with old | new | later
    · exact ih (.inl (insertKept (.inr old)))
    · exact ih (.inl (insertKept (.inl new)))
    · exact ih (.inr later)

theorem insertAllSorted (names : List String) {set : List String} (sorted : set.Pairwise (· < ·)) :
    (names.foldl (fun set n => insertMarker n set) set).Pairwise (· < ·) := by
  induction names generalizing set with
  | nil => exact sorted
  | cons n names ih => exact ih (insertSorted n sorted)

theorem markerSetMade (names : List String) :
    (markerSet names).Pairwise (· < ·) ∧ ∀ m ∈ markerSet names, m ∈ names :=
  ⟨insertAllSorted names .nil, fun _ member => (insertAllMember member).resolve_left (by simp)⟩

theorem documentMarkersKept {names : List String} (sorted : names.Pairwise (· < ·)) (settled : ∀ m ∈ names, Settled m) :
    documentMarkers names = names := by
  have filled : ∀ m ∈ names, (!(strip m).isEmpty) = true := by
    intro m member
    obtain ⟨some, bare⟩ := settled m member
    rw [Bool.not_eq_true', ← Bool.not_eq_true]
    intro blank
    have nothing : strip m = "" := by simpa using blank
    rw [Settings.bareMarker, nothing] at bare
    exact some bare.symm
  have same : names.map Settings.bareMarker = names := by
    simpa using List.map_congr_left (g := id) fun m member => (settled m member).2
  rw [documentMarkers, List.filter_eq_self.2 filled, same]
  exact markerSetSorted sorted

end SharedState
