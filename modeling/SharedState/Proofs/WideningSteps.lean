import SharedState.Proofs.Widening
import Mathlib.Logic.Function.Iterate

/-! Widening step by step. What is still to be widened stands on a stack, and all of it shares the classes found so far and the aliases
that are being expanded. Nothing limits the number of steps; the aliases being expanded end it, and are the same afterwards. -/
namespace SharedState

/-- The second state is reached from the first one by some number of steps. -/
def Arrives {α : Type} (step : α → α) (a b : α) : Prop := ∃ n, step^[n] a = b

namespace Arrives

variable {α : Type} {step : α → α} {a b c : α}

theorem refl (a : α) : Arrives step a a := ⟨0, rfl⟩

theorem trans (first : Arrives step a b) (second : Arrives step b c) : Arrives step a c := by
  obtain ⟨n, rfl⟩ := first
  obtain ⟨m, rfl⟩ := second
  exact ⟨m + n, Function.iterate_add_apply step m n a⟩

theorem one (here : step a = b) : Arrives step a b := ⟨1, here⟩

theorem head (here : step a = b) (later : Arrives step b c) : Arrives step a c := (one here).trans later

end Arrives

namespace Widening

inductive Task where
  | widen (t : TypeRef)
  /-- An alias is expanded. -/
  | settle (name : String)

structure State where
  tasks : List Task
  found : List Symbol := []
  expanding : List String := []

end Widening

namespace Graph

open Widening (Task State)

variable {g : Graph}

def addFound (found : List Symbol) (c : Symbol) : List Symbol := if c ∈ found then found else found ++ [c]

def widenStep (g : Graph) (s : State) : State :=
  match s.tasks with
  | [] => s
  | .settle name :: rest => { s with tasks := rest, expanding := s.expanding.erase name }
  | .widen (.mk .union _ args) :: rest => { s with tasks := args.map .widen ++ rest }
  | .widen (.mk .intersection _ args) :: rest => { s with tasks := args.map .widen ++ rest }
  | .widen (.mk .applied name _) :: rest => { s with tasks := .widen (.named name) :: rest }
  | .widen (.mk .array _ _) :: rest => { s with tasks := rest }
  | .widen (.mk .named name _) :: rest =>
    match g.lookup name with
    | some c => { s with tasks := rest, found := addFound s.found c }
    | none =>
      if name ∈ s.expanding then { s with tasks := rest }
      else match valueOf? name g.aliases with
        | none => { s with tasks := rest }
        | some t => { s with tasks := .widen t :: .settle name :: rest, expanding := name :: s.expanding }

/-- A type is widened below the aliases of a path: its classes are added to those found before. -/
def Widens (g : Graph) (path : List String) (tasks : List Task) (classes : List Symbol) : Prop :=
  ∀ rest seen, Arrives g.widenStep ⟨tasks ++ rest, seen.eraseDups, path⟩ ⟨rest, (seen ++ classes).eraseDups, path⟩

theorem addFoundLast (seen : List Symbol) (c : Symbol) : addFound seen.eraseDups c = (seen ++ [c]).eraseDups := by
  simp only [addFound, List.mem_eraseDups, eraseDupsLast]

theorem widensNil (path : List String) : g.Widens path [] [] := fun rest seen => by
  rw [List.append_nil]
  exact .refl _

theorem widensAppend {path : List String} {ts us : List Task} {cs ds : List Symbol} (first : g.Widens path ts cs)
    (second : g.Widens path us ds) : g.Widens path (ts ++ us) (cs ++ ds) := fun rest seen => by
  rw [List.append_assoc, ← List.append_assoc seen]
  exact (first (us ++ rest) seen).trans (second rest (seen ++ cs))

/- All forms of type come down to names. -/
mutual
theorem widensType {path : List String} {classes : String → List Symbol}
    (names : ∀ name args, g.Widens path [.widen (.mk .named name args)] (classes name)) :
    (t : TypeRef) → g.Widens path [.widen t] (t.heads.flatMap classes)
  | .mk .named name args => by simpa [TypeRef.heads] using names name args
  | .mk .applied name args => by
    intro rest seen
    simpa [TypeRef.heads] using Arrives.head rfl (names name [] rest seen)
  | .mk .union name args => by
    intro rest seen
    rw [TypeRef.heads]
    exact .head rfl (widensTypes names args rest seen)
  | .mk .intersection name args => by
    intro rest seen
    rw [TypeRef.heads]
    exact .head rfl (widensTypes names args rest seen)
  | .mk .array name args => by
    intro rest seen
    have passed : g.widenStep ⟨.widen (.mk .array name args) :: rest, seen.eraseDups, path⟩ = ⟨rest, seen.eraseDups, path⟩ := rfl
    simpa [TypeRef.heads] using Arrives.one passed
theorem widensTypes {path : List String} {classes : String → List Symbol}
    (names : ∀ name args, g.Widens path [.widen (.mk .named name args)] (classes name)) :
    (ts : List TypeRef) → g.Widens path (ts.map .widen) ((TypeRef.headsAll ts).flatMap classes)
  | [] => widensNil path
  | t :: rest => by
    rw [TypeRef.headsAll, List.flatMap_append]
    exact widensAppend (widensType names t) (widensTypes names rest)
end

/- The measure is the number of aliases that the path does not expand yet. -/
theorem widensName (fuel : Nat) (path : List String) (enough : (g.pending path).length ≤ fuel) (name : String)
    (args : List TypeRef) : g.Widens path [.widen (.mk .named name args)] (g.expand fuel path name) := by
  induction fuel generalizing path name args with
  | zero =>
    intro rest seen
    cases isClass : g.lookup name with
    | some c => exact .one (by simp [widenStep, isClass, expandClass isClass, addFoundLast])
    | none =>
      have unbound : name ∈ path ∨ valueOf? name g.aliases = none := by
        by_contra both
        obtain ⟨free, bound⟩ := not_or.mp both
        obtain ⟨t, bound⟩ := Option.ne_none_iff_exists'.mp bound
        have shrinks := pendingShrinks free bound
        omega
      rcases unbound with again | unbound
      · exact .one (by simp [widenStep, isClass, expand, again])
      · exact .one (by simp [widenStep, isClass, expand, unbound])
  | succ fuel ih =>
    intro rest seen
    cases isClass : g.lookup name with
    | some c => exact .one (by simp [widenStep, isClass, expandClass isClass, addFoundLast])
    | none =>
      by_cases again : name ∈ path
      · exact .one (by simp [widenStep, isClass, expand, again])
      · cases bound : valueOf? name g.aliases with
        | none => exact .one (by simp [widenStep, isClass, expand, bound])
        | some t =>
          have shrinks := pendingShrinks again bound
          have inner := widensType (ih (name :: path) (by omega)) t (.settle name :: rest) seen
          have expanded : g.expand (fuel + 1) path name = t.heads.flatMap (g.expand fuel (name :: path)) := by
            simp [expand, isClass, again, bound]
          rw [expanded]
          refine .head ?_ (inner.trans (.one ?_))
          · simp [widenStep, isClass, again, bound]
          · simp [widenStep]

theorem wideningEnds (g : Graph) (t : TypeRef) :
    Arrives g.widenStep { tasks := [.widen t] } { tasks := [], found := g.classSymbols t } :=
  widensType (widensName _ [] (pendingLength [])) t [] []

end Graph

end SharedState
