import SharedState.Proofs.TypeText

/-! Names for arrays. Whatever they stand for, an application of one is read as an array. This commutes with dropping
parentheses, and leaves a type alone that has no such application. -/
namespace SharedState

open SharedState.Source SharedState.Text

namespace TypeRef

mutual
/-- A type with every application of a name for arrays taken for an array. -/
def arrayed : TypeRef → TypeRef
  | mk .applied n (a :: args) =>
    if arrayNames.contains (leaf n) then array (arrayed a) else applied n (arrayed a :: arrayedEach args)
  | mk form n args => mk form n (arrayedEach args)
def arrayedEach : List TypeRef → List TypeRef
  | [] => []
  | t :: rest => arrayed t :: arrayedEach rest
end

theorem arrayedEachMap (args : List TypeRef) : arrayedEach args = args.map arrayed := by
  induction args with
  | nil => rfl
  | cons t rest ih => rw [arrayedEach, ih]; rfl

theorem arrayedApplied (n : String) {args : List TypeRef} (some : args ≠ []) :
    (applied n args).arrayed = if arrayNames.contains (leaf n) then array ((args.map arrayed).head?.getD (named "object"))
      else applied n (args.map arrayed) := by
  cases args with
  | nil => exact absurd rfl some
  | cons a args => rw [TypeRef.applied, arrayed, arrayedEachMap]; rfl

theorem arrayedLoose {form : TypeForm} (loose : form ≠ .applied) (n : String) (args : List TypeRef) :
    (mk form n args).arrayed = mk form n (args.map arrayed) := by
  cases form with
  | applied => exact absurd rfl loose
  | _ => simp [arrayed, arrayedEachMap]

theorem arrayedJoin {form : TypeForm} (loose : form ≠ .applied) (ts : List TypeRef) :
    (joinAs form ts).arrayed = joinAs form (ts.map arrayed) := by
  cases ts with
  | nil => exact arrayedLoose loose "" []
  | cons t ts =>
    cases ts with
    | nil => rfl
    | cons u ts => exact arrayedLoose loose "" (t :: u :: ts)

theorem arrayedAssemble (gs : List (List TypeRef)) :
    (assemble gs).arrayed = assemble (gs.map fun g => g.map arrayed) := by
  rw [assemble, arrayedJoin (by decide), assemble, List.map_map, List.map_map]
  congr 1
  exact List.map_congr_left fun g _ => arrayedJoin (by decide) g

theorem arrayedForm {a : TypeRef} (atom : Atom a) : a.arrayed.form ≠ .union ∧ a.arrayed.form ≠ .intersection := by
  cases atom with
  | named _ _ => simp [TypeRef.named, arrayed, TypeRef.form]
  | @applied n args _ _ some =>
    rw [arrayedApplied n (by simpa using some)]
    split <;> simp [TypeRef.array, TypeRef.applied, TypeRef.form]
  | array _ _ _ => simp [TypeRef.array, arrayed, TypeRef.form]

/-! What the text means and what it is read as can be taken in either order. -/

theorem meetMap {α β : Type} (f : α → β) (gs hs : List (List α)) :
    meet (gs.map fun g => g.map f) (hs.map fun g => g.map f) = (meet gs hs).map fun g => g.map f := by
  fun_induction meet gs hs with
  | case1 => rfl
  | case2 => rfl
  | case3 => simp [meet]
  | case4 g gs hs noEnd noJoin ih =>
    cases gs with
    | nil =>
      cases hs with
      | nil => exact absurd rfl (noEnd rfl)
      | cons h hs => exact absurd rfl (noJoin h hs rfl)
    | cons h gs =>
      simp only [List.map_cons] at ih ⊢
      rw [meet, ih] <;> simp

mutual
theorem alternativesArrayed : (t : TypeRef) → t.arrayed.alternatives = t.alternatives.map fun g => g.map arrayed
  | mk .named n _ => by simp [alternatives, TypeRef.named, arrayed, arrayedEach]
  | mk .applied n [] => by simp [alternatives, TypeRef.named, arrayed, arrayedEach]
  | mk .applied n (a :: args) => by
    have first := alternativesArrayed a
    have others := normalsArrayed args
    by_cases array : arrayNames.contains (leaf n)
    · simp only [arrayed, alternatives, TypeRef.applied, TypeRef.array, array, if_true, first, ← arrayedAssemble,
        List.map_cons, List.map_nil]
    · simp only [arrayed, alternatives, TypeRef.applied, array, Bool.false_eq_true, if_false, first, ← arrayedAssemble,
        others, List.map_cons, List.map_nil]
  | mk .array _ [] => by simp [alternatives, arrayed, arrayedEach]
  | mk .array _ (t :: _) => by
    simp [alternatives, TypeRef.array, arrayed, arrayedEach, alternativesArrayed t, arrayedAssemble]
  | mk .union _ args => unionArrayed args
  | mk .intersection _ args => meetArrayed args
theorem unionArrayed : (args : List TypeRef) →
    unionAlternatives (arrayedEach args) = (unionAlternatives args).map fun g => g.map arrayed
  | [] => rfl
  | t :: rest => by
    rw [arrayedEach, unionAlternatives, alternativesArrayed t, unionArrayed rest, unionAlternatives, List.map_append]
theorem meetArrayed : (args : List TypeRef) →
    meetAlternatives (arrayedEach args) = (meetAlternatives args).map fun g => g.map arrayed
  | [] => rfl
  | t :: rest => by
    rw [arrayedEach, meetAlternatives, alternativesArrayed t, meetArrayed rest, meetAlternatives, meetMap]
theorem normalsArrayed : (args : List TypeRef) → normals (arrayedEach args) = arrayedEach (normals args)
  | [] => rfl
  | t :: rest => by
    rw [arrayedEach, normals, alternativesArrayed t, ← arrayedAssemble, normalsArrayed rest, normals, arrayedEach]
end

/-- The type that is read from the text of a type. -/
def reread (t : TypeRef) : TypeRef := t.normal.arrayed

theorem rereadNormal (t : TypeRef) : t.reread = t.arrayed.normal := by
  rw [reread, normal, normal, alternativesArrayed, arrayedAssemble]

theorem readableArrayed {t : TypeRef} (readable : Readable t) : Readable t.arrayed := by
  induction readable with
  | named name kept => exact .named name kept
  | @applied n args name free parts ih =>
    cases args with
    | nil => exact .applied name free parts
    | cons a args =>
      rw [arrayedApplied n (by simp)]
      split
      · exact .array (ih a (by simp))
      · exact .applied name free fun b member => by
          obtain ⟨c, inside, rfl⟩ := List.mem_map.1 member
          exact ih c inside
  | @union args some parts ih =>
    rw [TypeRef.union, arrayedLoose (by decide)]
    exact .union (by simpa using some) fun b member => by
      obtain ⟨c, inside, rfl⟩ := List.mem_map.1 member
      exact ih c inside
  | @intersection args some parts ih =>
    rw [TypeRef.intersection, arrayedLoose (by decide)]
    exact .intersection (by simpa using some) fun b member => by
      obtain ⟨c, inside, rfl⟩ := List.mem_map.1 member
      exact ih c inside
  | array part ih => exact .array ih

theorem rereadHeads (t : TypeRef) : t.reread.heads = t.arrayed.heads := by
  rw [rereadNormal, headsNormal]

theorem rereadTold {t : TypeRef} (readable : Readable t) : t.reread.text? = t.arrayed.text? := by
  rw [rereadNormal, normalTold (readableArrayed readable)]

/-! Types without such applications. -/

mutual
/-- Whether no application with arguments has a base that is a name for arrays. -/
def arrayFree : TypeRef → Bool
  | mk .applied n (a :: args) => !arrayNames.contains (leaf n) && (arrayFree a && arrayFreeEach args)
  | mk _ _ args => arrayFreeEach args
def arrayFreeEach : List TypeRef → Bool
  | [] => true
  | t :: rest => arrayFree t && arrayFreeEach rest
end

theorem arrayFreeAll (args : List TypeRef) : arrayFreeEach args = args.all arrayFree := by
  induction args with
  | nil => rfl
  | cons t rest ih => rw [arrayFreeEach, ih]; rfl

mutual
theorem arrayedFree : (t : TypeRef) → t.arrayFree = true → t.arrayed = t
  | mk .applied n (a :: args), free => by
    simp only [arrayFree, Bool.and_eq_true, Bool.not_eq_true'] at free
    rw [arrayed, free.1, arrayedFree a free.2.1, arrayedEachFree args free.2.2]
    rfl
  | mk .applied n [], _ => rfl
  | mk .named n args, free | mk .union n args, free | mk .intersection n args, free | mk .array n args, free => by
    rw [arrayed, arrayedEachFree args free]
    simp
theorem arrayedEachFree : (args : List TypeRef) → arrayFreeEach args = true → arrayedEach args = args
  | [], _ => rfl
  | t :: rest, free => by
    simp only [arrayFreeEach, Bool.and_eq_true] at free
    rw [arrayedEach, arrayedFree t free.1, arrayedEachFree rest free.2]
end

end TypeRef
end SharedState
