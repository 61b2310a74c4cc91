import Mathlib.Data.List.Nodup
import SharedState.Bindings

/-! Keys that are bound: a value that is found was bound to its key, and distinct keys are bound one after the other. -/
namespace SharedState

theorem valueOfKey {α β : Type} [DecidableEq α] {key : α} {table : List (α × β)} {v : β}
    (h : valueOf? key table = some v) : (key, v) ∈ table := by
  induction table with
  | nil => simp [valueOf?] at h
  | cons entry rest ih =>
    obtain ⟨k, u⟩ := entry
    rw [valueOf?] at h
    split at h
    · rename_i same
      cases Option.some.inj h
      simp [same]
    · exact List.mem_cons_of_mem _ (ih h)

theorem valueOfBound {α β : Type} [DecidableEq α] {table : List (α × β)} (distinct : (table.map (·.1)).Nodup) {key : α}
    {v : β} (bound : (key, v) ∈ table) : valueOf? key table = some v := by
  induction table with
  | nil => simp at bound
  | cons entry rest ih =>
    obtain ⟨fresh, others⟩ := List.nodup_cons.1 distinct
    rcases List.mem_cons.1 bound with rfl | later
    · simp [valueOf?]
    · have other : entry.1 ≠ key := by
        rintro rfl
        exact fresh (List.mem_map.2 ⟨_, later, rfl⟩)
      rw [valueOf?, if_neg other]
      exact ih others later

theorem valueOfPerm {α β : Type} [DecidableEq α] {table other : List (α × β)} (order : table.Perm other)
    (distinct : (table.map (·.1)).Nodup) (key : α) : valueOf? key table = valueOf? key other := by
  refine Option.ext fun v => ⟨fun found => ?_, fun found => ?_⟩
  · exact valueOfBound ((order.map _).nodup distinct) (order.subset (valueOfKey found))
  · exact valueOfBound distinct (order.symm.subset (valueOfKey found))

theorem bindFresh {α β : Type} [DecidableEq α] (key : α) (b : β) (t : List (α × β)) (fresh : key ∉ t.map (·.1)) :
    bindKey key b t = t ++ [(key, b)] := by
  induction t with
  | nil => rfl
  | cons p t ih =>
    obtain ⟨k, v⟩ := p
    simp only [List.map_cons, List.mem_cons, not_or] at fresh
    simp only [bindKey, if_neg (Ne.symm fresh.1), ih fresh.2, List.cons_append]

theorem bindAllFresh {α β : Type} [DecidableEq α] (fields t : List (α × β))
    (distinct : ((t ++ fields).map (·.1)).Nodup) :
    fields.foldl (fun t f => bindKey f.1 f.2 t) t = t ++ fields := by
  induction fields generalizing t with
  | nil => simp
  | cons f fields ih =>
    have fresh : f.1 ∉ t.map (·.1) := by
      rw [List.map_append, List.nodup_append] at distinct
      intro bound
      exact distinct.2.2 _ bound _ (by simp) rfl
    rw [List.foldl_cons, bindFresh _ _ _ fresh, ih _ (by simpa using distinct)]
    simp

theorem valueOfBind {α β : Type} [DecidableEq α] (key k : α) (b : β) (t : List (α × β)) :
    valueOf? k (bindKey key b t) = if key = k then some b else valueOf? k t := by
  induction t with
  | nil => rfl
  | cons p t ih =>
    obtain ⟨j, v⟩ := p
    by_cases same : j = key
    · subst same
      by_cases here : j = k <;> simp [bindKey, valueOf?, here]
    · by_cases here : j = k
      · subst here
        simp [bindKey, valueOf?, same, Ne.symm same]
      · simp [bindKey, valueOf?, same, here, ih]

/- The value of a key depends on what is bound to this key only. -/
theorem valueOfOwn {α β : Type} [DecidableEq α] (k : α) (fields : List (α × β)) {t t' : List (α × β)}
    (same : valueOf? k t = valueOf? k t') :
    valueOf? k (fields.foldl (fun t f => bindKey f.1 f.2 t) t) =
      valueOf? k ((fields.filter fun f => f.1 = k).foldl (fun t f => bindKey f.1 f.2 t) t') := by
  induction fields generalizing t t' with
  | nil => exact same
  | cons f fields ih =>
    by_cases own : f.1 = k
    · rw [List.filter_cons_of_pos (by simpa using own)]
      exact ih (by rw [valueOfBind, valueOfBind, if_pos own, if_pos own])
    · rw [List.filter_cons_of_neg (by simpa using own)]
      exact ih (by rw [valueOfBind, if_neg own, same])

theorem bindKeyKeys {α β : Type} [DecidableEq α] (key : α) (b : β) (t : List (α × β)) :
    (bindKey key b t).map (·.1) = if key ∈ t.map (·.1) then t.map (·.1) else t.map (·.1) ++ [key] := by
  induction t with
  | nil => simp [bindKey]
  | cons p t ih =>
    by_cases same : p.1 = key
    · simp [bindKey, same]
    · by_cases bound : key ∈ t.map (·.1) <;> simp_all [bindKey, eq_comm]

theorem bindKeyDistinct {α β : Type} [DecidableEq α] (key : α) (b : β) {t : List (α × β)}
    (distinct : (t.map (·.1)).Nodup) : ((bindKey key b t).map (·.1)).Nodup := by
  rw [bindKeyKeys]
  split
  · exact distinct
  · rename_i fresh
    rw [List.nodup_append]
    refine ⟨distinct, by simp, ?_⟩
    rintro a here _ new rfl
    exact fresh (by simpa [List.mem_singleton.1 new] using here)

theorem memBindKey {α β : Type} [DecidableEq α] {key : α} {b : β} {t : List (α × β)} {p : α × β}
    (member : p ∈ bindKey key b t) : p = (key, b) ∨ p ∈ t := by
  induction t with
  | nil => simp_all [bindKey]
  | cons q t ih =>
    unfold bindKey at member
    split at member
    · rename_i same
      rcases List.mem_cons.1 member with rfl | member
      · exact .inl (by rw [same])
      · exact .inr (by simp [member])
    · rcases List.mem_cons.1 member with rfl | member
      · exact .inr (by simp)
      · rcases ih member with new | old
        · exact .inl new
        · exact .inr (by simp [old])

theorem bindAllKept {α β : Type} [DecidableEq α] (fields t : List (α × β)) (distinct : (t.map (·.1)).Nodup) :
    ((fields.foldl (fun t f => bindKey f.1 f.2 t) t).map (·.1)).Nodup ∧
      ∀ p ∈ fields.foldl (fun t f => bindKey f.1 f.2 t) t, p ∈ fields ∨ p ∈ t := by
  induction fields generalizing t with
  | nil => exact ⟨distinct, fun p member => .inr member⟩
  | cons f fields ih =>
    obtain ⟨keys, known⟩ := ih (bindKey f.1 f.2 t) (bindKeyDistinct f.1 f.2 distinct)
    refine ⟨keys, fun p member => ?_⟩
    rcases known p member with later | bound
    · exact .inl (by simp [later])
    · rcases memBindKey bound with rfl | old
      · exact .inl (by simp)
      · exact .inr old

theorem bindAllAgain {α β : Type} [DecidableEq α] (fields : List (α × β)) :
    (fields.foldl (fun t f => bindKey f.1 f.2 t) []).foldl (fun t f => bindKey f.1 f.2 t) [] =
      fields.foldl (fun t f => bindKey f.1 f.2 t) [] := by
  obtain ⟨keys, _⟩ := bindAllKept fields [] (by simp)
  exact bindAllFresh _ [] keys

end SharedState
