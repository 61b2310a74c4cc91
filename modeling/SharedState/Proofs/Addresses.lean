import Mathlib.Data.List.Infix
import SharedState.Source.Expr

/-! Addresses of statements. A statement stands at a position in the body of the statement around it, and its address is that position
after the address of the other. -/
namespace SharedState

namespace Source.Stmt

def body : Stmt → List Stmt
  | classDef _ _ _ body _ => body
  | functionDef _ _ _ _ body _ => body
  | compound body => body
  | _ => []

def className? : Stmt → Option String
  | classDef name _ _ _ _ => some name.text
  | _ => none

def isFunction : Stmt → Bool
  | functionDef _ _ _ _ _ _ => true
  | _ => false

/-- The statement at an address inside another. -/
def at? : Stmt → List Nat → Option Stmt
  | s, [] => some s
  | s, i :: rest => s.body[i]?.bind fun t => t.at? rest

end Source.Stmt

open SharedState.Source

abbrev View := List Nat → Option Stmt

namespace View

def forest (ss : List Stmt) : View
  | [] => none
  | i :: rest => ss[i]?.bind fun s => s.at? rest

variable (w : View)

def classAt? (a : List Nat) : Option String := (w a).bind Stmt.className?

/-- The names of the classes around a statement, from the outside, and its own if it is a class. -/
def path (a : List Nat) : List String := a.inits.filterMap w.classAt?

def enclosing? (a : List Nat) : Option (List Nat) := a.inits.dropLast.reverse.find? fun b => (w.classAt? b).isSome

/-- There is a class at the address, and no function on the way to it. -/
def Static (a : List Nat) : Prop := (w.classAt? a).isSome = true ∧ ∀ b ∈ a.inits, ∀ s, w b = some s → s.isFunction = false

def below (i : Nat) : View := fun rest => w (i :: rest)

theorem pathBelow (i : Nat) (a : List Nat) : w.path (i :: a) = (w.classAt? []).toList ++ (w.below i).path a := by
  rw [path, List.inits_cons, List.filterMap_cons, List.filterMap_map]
  cases w.classAt? [] <;> rfl

theorem enclosingBelow (i : Nat) (a : List Nat) : w.enclosing? (i :: a) =
    (((w.below i).enclosing? a).map (i :: ·)).or (if (w.classAt? []).isSome then some [] else none) := by
  have filled : a.inits.map (i :: ·) ≠ [] := by cases a <;> simp
  rw [enclosing?, List.inits_cons, List.dropLast_cons_of_ne_nil filled, List.reverse_cons, List.find?_append, ← List.map_dropLast,
    ← List.map_reverse, List.find?_map]
  congr 1
  cases found : (w.classAt? []).isSome <;> simp [found]

theorem staticBelow (i : Nat) (a : List Nat) :
    w.Static (i :: a) ↔ (∀ s, w [] = some s → s.isFunction = false) ∧ (w.below i).Static a := by
  simp only [Static, List.inits_cons, List.mem_cons, List.mem_map, forall_eq_or_imp, forall_exists_index, and_imp,
    forall_apply_eq_imp_iff₂]
  exact ⟨fun ⟨here, top, rest⟩ => ⟨top, here, rest⟩, fun ⟨top, here, rest⟩ => ⟨here, top, rest⟩⟩

/-- There is nothing at the root, or what there is leads into its body and counts for nothing else. -/
def Plain : Prop := ∀ s, w [] = some s → s.className? = none ∧ s.isFunction = false

section
variable {w} (plain : w.Plain)
include plain

theorem plainRoot : w.classAt? [] = none := by
  cases root : w [] with
  | none => simp [classAt?, root]
  | some s => simp [classAt?, root, (plain s root).1]

theorem plainPath (i : Nat) (a : List Nat) : w.path (i :: a) = (w.below i).path a := by
  simp [pathBelow, plainRoot plain]

theorem plainEnclosing (i : Nat) (a : List Nat) : w.enclosing? (i :: a) = ((w.below i).enclosing? a).map (i :: ·) := by
  simp [enclosingBelow, plainRoot plain]

theorem plainStatic (i : Nat) (a : List Nat) : w.Static (i :: a) ↔ (w.below i).Static a := by
  rw [staticBelow]
  exact and_iff_right fun s root => (plain s root).2

theorem rootNotStatic : ¬ w.Static [] := by
  simp [Static, plainRoot plain]

end

theorem forestPlain (ss : List Stmt) : (forest ss).Plain := fun _ root => nomatch root

theorem forestStatic {ss : List Stmt} {a : List Nat} (static : (forest ss).Static a) : ∃ i b, a = i :: b ∧ i < ss.length := by
  cases a with
  | nil => exact absurd static (rootNotStatic (forestPlain ss))
  | cons i b =>
    refine ⟨i, b, rfl, ?_⟩
    by_contra beyond
    have nothing : forest ss (i :: b) = none := by simp [forest, List.getElem?_eq_none (Nat.le_of_not_lt beyond)]
    simp [Static, classAt?, nothing] at static

theorem forestFront {ss : List Stmt} (ts : List Stmt) {i : Nat} (inside : i < ss.length) :
    (forest (ss ++ ts)).below i = (forest ss).below i := by
  funext b
  simp only [below, forest, List.getElem?_append_left inside]

theorem forestBack (ss ts : List Stmt) (i : Nat) : (forest (ss ++ ts)).below (ss.length + i) = (forest ts).below i := by
  funext b
  simp only [below, forest, List.getElem?_append_right (Nat.le_add_right ..), Nat.add_sub_cancel_left]

def shift (n : Nat) : List Nat → List Nat
  | [] => []
  | i :: a => (n + i) :: a

theorem shiftLess (n : Nat) {a b : List Nat} (less : a < b) : shift n a < shift n b := by
  cases a with
  | nil =>
    cases b with
    | nil => exact absurd less (by simp)
    | cons j b => simp [shift]
  | cons i a =>
    cases b with
    | nil => exact absurd less (by simp)
    | cons j b => simpa [shift, List.cons_lt_cons_iff] using less

end View

end SharedState
