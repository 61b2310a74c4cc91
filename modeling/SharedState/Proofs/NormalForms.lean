import SharedState.Proofs.Elaboration
import SharedState.Proofs.UnionSpellings

/-! Converted types are in normal form, at every depth: unions and intersections are flat and have several members, arrays have one
element, and no name is left that would be read as a qualifier or a construct. A type in normal form has a text. -/
namespace SharedState

open SharedState.Source SharedState.Text

namespace TypeRef

/-- A type itself, and those in it at any depth. -/
inductive Inside (u : TypeRef) : TypeRef → Prop where
  | here : Inside u u
  | deeper {t a : TypeRef} (arg : a ∈ t.args) (inner : Inside u a) : Inside u t

/-- What the normal form asks of one level of a type. -/
def Regular : TypeRef → Prop
  | mk .named n _ => n ≠ "" ∧ typingForm n ∉ bareQualifiers
  | mk .applied n _ => n ≠ "" ∧ typingForm n ∉ constructs
  | mk .array _ args => args.length = 1
  | mk .union n args => n = "" ∧ 2 ≤ args.length ∧ ∀ a ∈ args, a.form ≠ .union
  | mk .intersection n args => n = "" ∧ 2 ≤ args.length ∧ ∀ a ∈ args, a.form ≠ .intersection

def NormalForm (t : TypeRef) : Prop := ∀ u, Inside u t → u.Regular

variable {t : TypeRef} {form : TypeForm}

theorem normalOf (own : t.Regular) (args : ∀ a ∈ t.args, NormalForm a) : NormalForm t := by
  intro u inside
  cases inside with
  | here => exact own
  | deeper arg inner => exact args _ arg u inner

theorem normalArgs (normal : NormalForm t) : ∀ a ∈ t.args, NormalForm a := fun _ arg u inner => normal u (.deeper arg inner)

/- An intersection may stand in a union, and a union in an intersection. -/
theorem regularJoin (loose : form = .union ∨ form = .intersection) {n : String} {args : List TypeRef} :
    (mk form n args).Regular ↔ n = "" ∧ 2 ≤ args.length ∧ ∀ a ∈ args, a.form ≠ form := by
  rcases loose with rfl | rfl <;> rfl

theorem regularFlat (loose : form = .union ∨ form = .intersection) (own : t.Regular) : t.Flat form := by
  by_cases same : t.form = form
  · obtain ⟨_, n, args⟩ := t
    cases same
    obtain ⟨unnamed, several, apart⟩ := (regularJoin loose).1 own
    refine ⟨fun _ => ⟨unnamed, several⟩, fun u member => apart u ?_⟩
    rwa [members, if_pos rfl] at member
  · exact otherFlat same

theorem normalMembers {ts : List TypeRef} (each : ∀ t ∈ ts, NormalForm t) : ∀ u ∈ ts.flatMap (members form), NormalForm u := by
  intro u inside
  obtain ⟨t, here, member⟩ := List.mem_flatMap.1 inside
  by_cases same : t.form = form
  · rw [members, if_pos same] at member
    exact normalArgs (each t here) u member
  · rw [membersOther same] at member
    rw [List.mem_singleton.1 member]
    exact each t here

theorem normalJoin (loose : form = .union ∨ form = .intersection) {ts : List TypeRef} (several : 1 < ts.length)
    (each : ∀ t ∈ ts, NormalForm t) : NormalForm (mk form "" (ts.flatMap (members form))) := by
  have flat : ∀ t ∈ ts, t.Flat form := fun t here => regularFlat loose (each t here t .here)
  have own := (regularJoin loose).2 ⟨rfl, Nat.le_trans several (membersLength flat), membersApart flat⟩
  exact normalOf own (normalMembers each)

theorem normalNamed {n : String} (filled : n ≠ "") (free : typingForm n ∉ bareQualifiers) : NormalForm (named n) :=
  normalOf ⟨filled, free⟩ fun _ arg => by cases arg

/- Only names that are written are resolved, and those are not empty. -/
theorem normalClosed {r : TypeReader} (filled : ∀ n, n ≠ "" → r.resolve n ≠ "") : r.Closed NormalForm where
  named name free := normalNamed (filled _ (dottedNonempty name)) free
  none := normalNamed (by decide) (by decide)
  object := normalNamed (by decide) (by decide)
  applied name free _ each := normalOf ⟨filled _ (dottedNonempty name), free⟩ each
  array inner := normalOf rfl fun _ arg => List.mem_singleton.1 arg ▸ inner
  join loose several each := normalJoin loose several each

/-! Texts. -/

mutual
theorem normalElements : (t : TypeRef) → NormalForm t → t.hasElements = true
  | mk .array n [], normal => by
    have one : [].length = 1 := normal _ .here
    cases one
  | mk .array n (a :: args), normal => normalElementsAll (a :: args) (normalArgs normal)
  | mk .named n args, normal | mk .applied n args, normal | mk .union n args, normal | mk .intersection n args, normal =>
    normalElementsAll args (normalArgs normal)
theorem normalElementsAll : (ts : List TypeRef) → (∀ t ∈ ts, NormalForm t) → allHaveElements ts = true
  | [], _ => rfl
  | t :: rest, each => by
    have others := normalElementsAll rest fun u later => each u (by simp [later])
    rw [allHaveElements, normalElements t (each t (by simp)), others]
    rfl
end

theorem normalFormTold (normal : NormalForm t) : ∃ s, t.text? = some s :=
  Option.isSome_iff_exists.1 (textOfElements t (normalElements t normal))

end TypeRef

namespace TypeReader

/- Whatever an annotation is converted from, an expression or a text, its type is in normal form, and so it can be shown. -/
theorem convertedNormal [CharacterNames] (r : TypeReader) (filled : ∀ n, n ≠ "" → r.resolve n ≠ "") :
    (∀ e q, r.convert e = .ok q → ∀ t ∈ q.type, t.NormalForm ∧ ∃ s, t.text? = some s) ∧
    ∀ text q, r.ofText text = .ok q → ∀ t ∈ q.type, t.NormalForm ∧ ∃ s, t.text? = some s := by
  constructor
  · intro e q made t typed
    have normal := (convertClosed (TypeRef.normalClosed filled) made).type t typed
    exact ⟨normal, TypeRef.normalFormTold normal⟩
  · intro text q made t typed
    have normal := (ofTextWithinClosed (TypeRef.normalClosed filled) _ text q made).type t typed
    exact ⟨normal, TypeRef.normalFormTold normal⟩

/-- A reader for which `L` is another name of `Optional`. -/
def optionalReader : TypeReader where
  resolve n := if n = "L" then "typing.Optional" else n

def mixedType : TypeRef :=
  .union [.named "A", .intersection [.named "B", .named "C", .named "D"], .applied "x" [.array (.named "object")], .named "None"]

theorem mixedNormal : (∀ n, n ≠ "" → optionalReader.resolve n ≠ "") ∧
    optionalReader.ofText "L[A | ('B & ' 'C' & D), Final[x[Array[:]]] | f()]" = .ok { type := some mixedType, final := true } ∧
    mixedType.NormalForm ∧ mixedType.text? = some "A | B & C & D | x[Array[object]] | None" := by
  have filled : ∀ n, n ≠ "" → optionalReader.resolve n ≠ "" := by
    intro n some
    by_cases known : n = "L"
    · simp [optionalReader, known]
    · simpa [optionalReader, known] using some
  have made : optionalReader.ofText "L[A | ('B & ' 'C' & D), Final[x[Array[:]]] | f()]" =
      .ok { type := some mixedType, final := true } := by decide +kernel
  exact ⟨filled, made, ((convertedNormal optionalReader filled).2 _ _ made mixedType rfl).1, by decide +kernel⟩

end TypeReader
end SharedState
