import Mathlib.Data.List.Basic
import SharedState.TypeExpr

/-! Types as they are written. No brackets group the members of a union or an intersection, so a text means
alternatives of joint requirements, whatever the nesting of the type that was written. `normal` is the type that the text
means: it has the same text and the same names at which widening looks. -/
namespace SharedState

open SharedState.Source SharedState.Text

/-- Keywords that are names of constants. -/
def constantWords : List String := ["None", "True", "False"]

/-- A word that may stand in front of a dotted name. -/
def OpeningWord (w : String) : Prop := isIdentifier w.toList = true ∧ (w ∉ keywords ∨ w ∈ constantWords)

def DottedName (n : String) : Prop :=
  ∃ (first : String) (others : List String),
    n.toList = first.toList ++ others.flatMap (fun w => '.' :: w.toList) ∧
      OpeningWord first ∧ ∀ w ∈ others, PlainWord w

theorem dottedWord {w : String} (opening : OpeningWord w) : DottedName w :=
  ⟨w, [], by simp, opening, by simp⟩

theorem dottedAccess {n w : String} (name : DottedName n) (plain : PlainWord w) : DottedName (n ++ "." ++ w) := by
  obtain ⟨first, others, spelled, opening, rest⟩ := name
  refine ⟨first, others ++ [w], ?_, opening, ?_⟩
  · have dot : ".".toList = ['.'] := rfl
    simp [spelled, dot]
  · intro v member
    rcases List.mem_append.1 member with old | new
    · exact rest v old
    · rw [List.mem_singleton.1 new]; exact plain

theorem wordNonempty {w : String} (valid : isIdentifier w.toList = true) : w ≠ "" := by
  rintro rfl
  cases valid

theorem dottedNonempty {n : String} (name : DottedName n) : n ≠ "" := by
  obtain ⟨first, others, spelled, opening, _⟩ := name
  rintro rfl
  exact wordNonempty opening.1 (String.toList_inj.1 (List.append_eq_nil_iff.1 spelled.symm).1)

/-- Constructs that are not read as the base of an application. -/
def constructs : List String := ["Final", "Annotated", "Optional", "Union"] ++ qualifierWrappers

/-- Constructs that stand for no type when they are named alone. -/
def bareQualifiers : List String := ["Final", "ClassVar"]

namespace TypeRef

/-! Types whose text is read as a type again. -/

inductive Readable : TypeRef → Prop where
  | named {n : String} : DottedName n → typingForm n ∉ bareQualifiers → Readable (.named n)
  | applied {n : String} {args : List TypeRef} : DottedName n → typingForm n ∉ constructs →
      (∀ a ∈ args, Readable a) → Readable (.applied n args)
  | union {args : List TypeRef} : args ≠ [] → (∀ a ∈ args, Readable a) → Readable (.union args)
  | intersection {args : List TypeRef} : args ≠ [] → (∀ a ∈ args, Readable a) → Readable (.intersection args)
  | array {t : TypeRef} : Readable t → Readable (.array t)

def shown (t : TypeRef) : String := t.text?.getD ""

theorem textsShown {args : List TypeRef} (told : ∀ a ∈ args, a.text? = some a.shown) :
    texts? args = some (args.map shown) := by
  induction args with
  | nil => rfl
  | cons t rest ih =>
    have first := told t (by simp)
    have others := ih fun a member => told a (by simp [member])
    simp only [texts?, first, others, List.map_cons]

theorem shownOf {t : TypeRef} {s : String} (told : t.text? = some s) : t.shown = s := by
  rw [shown, told]; rfl

theorem readableTold {t : TypeRef} (readable : Readable t) : t.text? = some t.shown := by
  have told : ∃ s, t.text? = some s := by
    induction readable with
    | named _ _ => exact ⟨_, rfl⟩
    | applied _ _ _ ih =>
      have parts := textsShown fun a member => (ih a member).elim fun s told => by rw [told, shownOf told]
      exact ⟨_, by rw [TypeRef.applied, text?, parts]; rfl⟩
    | union _ _ ih =>
      have parts := textsShown fun a member => (ih a member).elim fun s told => by rw [told, shownOf told]
      exact ⟨_, by rw [TypeRef.union, text?, parts]; rfl⟩
    | intersection _ _ ih =>
      have parts := textsShown fun a member => (ih a member).elim fun s told => by rw [told, shownOf told]
      exact ⟨_, by rw [TypeRef.intersection, text?, parts]; rfl⟩
    | array _ ih =>
      obtain ⟨s, told⟩ := ih
      exact ⟨_, by rw [TypeRef.array, text?, told]; rfl⟩
  obtain ⟨s, told⟩ := told
  rw [told, shownOf told]

/-- Several types in one form; a single one stands for itself. -/
def joinAs (form : TypeForm) : List TypeRef → TypeRef
  | [t] => t
  | ts => mk form "" ts

/-- The type of alternatives, each of which joins several requirements. -/
def assemble (groups : List (List TypeRef)) : TypeRef := joinAs .union (groups.map (joinAs .intersection))

/-- Joint requirements of two lists of alternatives as they are written: the last of the first and the first of the
second grow together. -/
def meet {α : Type} : List (List α) → List (List α) → List (List α)
  | [], hs => hs
  | [g], [] => [g]
  | [g], h :: hs => (g ++ h) :: hs
  | g :: gs, hs => g :: meet gs hs

mutual
/-- The alternatives that the text of a type means. -/
def alternatives : TypeRef → List (List TypeRef)
  | mk .named n _ => [[named n]]
  | mk .applied n [] => [[named n]]
  | mk .applied n (a :: args) => [[applied n (assemble (alternatives a) :: normals args)]]
  | mk .array _ [] => [[mk .array "" []]]
  | mk .array _ (t :: _) => [[array (assemble (alternatives t))]]
  | mk .union _ args => unionAlternatives args
  | mk .intersection _ args => meetAlternatives args
def unionAlternatives : List TypeRef → List (List TypeRef)
  | [] => []
  | t :: rest => alternatives t ++ unionAlternatives rest
def meetAlternatives : List TypeRef → List (List TypeRef)
  | [] => []
  | t :: rest => meet (alternatives t) (meetAlternatives rest)
def normals : List TypeRef → List TypeRef
  | [] => []
  | t :: rest => assemble (alternatives t) :: normals rest
end

/-- The type that the text of a type means. -/
def normal (t : TypeRef) : TypeRef := assemble (alternatives t)

theorem normalsMap (args : List TypeRef) : normals args = args.map normal := by
  induction args with
  | nil => rfl
  | cons t rest ih => rw [normals, ih]; rfl

theorem alternativesApplied (n : String) {args : List TypeRef} (some : args ≠ []) :
    alternatives (applied n args) = [[applied n (args.map normal)]] := by
  cases args with
  | nil => exact absurd rfl some
  | cons a args => rw [TypeRef.applied, alternatives, normalsMap]; rfl

/-! Names at which widening looks: the grouping does not matter for them. -/

theorem headsAllAppend (xs ys : List TypeRef) : headsAll (xs ++ ys) = headsAll xs ++ headsAll ys := by
  induction xs with
  | nil => rfl
  | cons x xs ih => simp [headsAll, ih]

theorem headsJoin {form : TypeForm} (loose : form = .union ∨ form = .intersection) (ts : List TypeRef) :
    (joinAs form ts).heads = headsAll ts := by
  unfold joinAs
  split
  · simp [headsAll]
  · rcases loose with rfl | rfl <;> rfl

theorem headsAssemble (groups : List (List TypeRef)) : (assemble groups).heads = headsAll groups.flatten := by
  rw [assemble, headsJoin (.inl rfl)]
  induction groups with
  | nil => rfl
  | cons g groups ih => rw [List.map_cons, headsAll, headsJoin (.inr rfl), ih, List.flatten_cons, headsAllAppend]

theorem meetFlatten {α : Type} (gs hs : List (List α)) : (meet gs hs).flatten = gs.flatten ++ hs.flatten := by
  fun_induction meet gs hs with
  | case1 => simp
  | case2 => simp
  | case3 => simp
  | case4 g gs hs _ _ ih => simp [ih]

mutual
theorem headsAlternatives : (t : TypeRef) → headsAll t.alternatives.flatten = t.heads
  | mk .named n _ => by simp [alternatives, headsAll, heads, named]
  | mk .applied n [] => by simp [alternatives, headsAll, heads, named]
  | mk .applied n (a :: args) => by simp [alternatives, headsAll, heads, applied]
  | mk .array _ [] => by simp [alternatives, headsAll, heads]
  | mk .array _ (t :: _) => by simp [alternatives, headsAll, heads, array]
  | mk .union _ args => headsUnion args
  | mk .intersection _ args => headsMeet args
theorem headsUnion : (args : List TypeRef) → headsAll (unionAlternatives args).flatten = headsAll args
  | [] => rfl
  | t :: rest => by
    rw [unionAlternatives, List.flatten_append, headsAllAppend, headsAlternatives t, headsUnion rest, headsAll]
theorem headsMeet : (args : List TypeRef) → headsAll (meetAlternatives args).flatten = headsAll args
  | [] => rfl
  | t :: rest => by
    rw [meetAlternatives, meetFlatten, headsAllAppend, headsAlternatives t, headsMeet rest, headsAll]
end

theorem headsNormal (t : TypeRef) : t.normal.heads = t.heads := by
  rw [normal, headsAssemble, headsAlternatives]

/-! A type as its text means it is made of atoms: names, applications with arguments, and arrays. -/

inductive Atom : TypeRef → Prop where
  | named {n : String} : DottedName n → typingForm n ∉ bareQualifiers → Atom (.named n)
  | applied {n : String} {args : List (List (List TypeRef))} : DottedName n → typingForm n ∉ constructs → args ≠ [] →
      (∀ gs ∈ args, gs ≠ [] ∧ [] ∉ gs) → (∀ gs ∈ args, ∀ g ∈ gs, ∀ a ∈ g, Atom a) →
      Atom (.applied n (args.map assemble))
  | array {gs : List (List TypeRef)} : gs ≠ [] → [] ∉ gs → (∀ g ∈ gs, ∀ a ∈ g, Atom a) → Atom (.array (assemble gs))

structure Grouped (gs : List (List TypeRef)) : Prop where
  some : gs ≠ []
  full : [] ∉ gs
  atoms : ∀ g ∈ gs, ∀ a ∈ g, Atom a

theorem meetNil {α : Type} (gs : List (List α)) : meet gs [] = gs := by
  induction gs with
  | nil => rfl
  | cons g gs ih =>
    cases gs with
    | nil => rfl
    | cons h gs => simp [meet, ih]

theorem meetSome {α : Type} {gs hs : List (List α)} (some : gs ≠ []) : meet gs hs ≠ [] := by
  fun_induction meet gs hs <;> simp_all

theorem meetMember {α : Type} {gs hs : List (List α)} {g : List α} (member : g ∈ meet gs hs) :
    g ∈ gs ∨ g ∈ hs ∨ ∃ x ∈ gs, ∃ y ∈ hs, g = x ++ y := by
  fun_induction meet gs hs with
  | case1 hs => exact .inr (.inl member)
  | case2 x => exact .inl member
  | case3 x y hs =>
    rcases List.mem_cons.1 member with rfl | later
    · exact .inr (.inr ⟨x, by simp, y, by simp, rfl⟩)
    · exact .inr (.inl (by simp [later]))
  | case4 x gs hs _ _ ih =>
    rcases List.mem_cons.1 member with rfl | later
    · exact .inl (by simp)
    · rcases ih later with first | second | ⟨u, hu, v, hv, same⟩
      · exact .inl (by simp [first])
      · exact .inr (.inl second)
      · exact .inr (.inr ⟨u, by simp [hu], v, hv, same⟩)

theorem groupedMeet {gs hs : List (List TypeRef)} (first : Grouped gs) (second : Grouped hs) : Grouped (meet gs hs) := by
  refine ⟨meetSome first.some, fun empty => ?_, fun g member a inside => ?_⟩
  · rcases meetMember empty with left | right | ⟨x, hx, y, _, same⟩
    · exact first.full left
    · exact second.full right
    · have nil : x = [] := (List.append_eq_nil_iff.1 same.symm).1
      exact first.full (nil ▸ hx)
  · rcases meetMember member with left | right | ⟨x, hx, y, hy, rfl⟩
    · exact first.atoms g left a inside
    · exact second.atoms g right a inside
    · rcases List.mem_append.1 inside with left | right
      · exact first.atoms x hx a left
      · exact second.atoms y hy a right

theorem groupedAppend {gs hs : List (List TypeRef)} (first : Grouped gs) (second : Grouped hs) : Grouped (gs ++ hs) := by
  refine ⟨by simp [first.some], fun empty => ?_, fun g member => ?_⟩
  · rcases List.mem_append.1 empty with left | right
    · exact first.full left
    · exact second.full right
  · rcases List.mem_append.1 member with left | right
    · exact first.atoms g left
    · exact second.atoms g right

theorem groupedUnion {args : List TypeRef} (some : args ≠ []) (parts : ∀ a ∈ args, Grouped a.alternatives) :
    Grouped (unionAlternatives args) := by
  induction args with
  | nil => exact absurd rfl some
  | cons t rest ih =>
    have first := parts t (by simp)
    cases rest with
    | nil => simpa [unionAlternatives] using first
    | cons u rest => exact groupedAppend first (ih (by simp) fun a member => parts a (by simp [List.mem_cons.1 member]))

theorem groupedMeetAll {args : List TypeRef} (some : args ≠ []) (parts : ∀ a ∈ args, Grouped a.alternatives) :
    Grouped (meetAlternatives args) := by
  induction args with
  | nil => exact absurd rfl some
  | cons t rest ih =>
    have first := parts t (by simp)
    cases rest with
    | nil => simpa [meetAlternatives, meetNil] using first
    | cons u rest => exact groupedMeet first (ih (by simp) fun a member => parts a (by simp [List.mem_cons.1 member]))

theorem groupedAtom {a : TypeRef} (atom : Atom a) : Grouped [[a]] := by
  refine ⟨by simp, by simp, ?_⟩
  simpa using atom

theorem bareConstruct {form : String} (free : form ∉ constructs) : form ∉ bareQualifiers := by
  intro bare
  simp only [bareQualifiers, List.mem_cons, List.not_mem_nil, or_false] at bare
  rcases bare with rfl | rfl <;> exact free (by decide)

theorem alternativesGrouped {t : TypeRef} (readable : Readable t) : Grouped t.alternatives := by
  induction readable with
  | named name kept => exact groupedAtom (.named name kept)
  | @applied n args name free parts ih =>
    by_cases bare : args = []
    · subst bare
      exact groupedAtom (.named name (bareConstruct free))
    · have same : args.map normal = (args.map alternatives).map assemble := by simp [normal]
      rw [alternativesApplied n bare, same]
      refine groupedAtom (.applied name free (by simpa using bare) ?_ ?_)
      · intro gs member
        obtain ⟨a, inside, rfl⟩ := List.mem_map.1 member
        exact ⟨(ih a inside).some, (ih a inside).full⟩
      · intro gs member
        obtain ⟨a, inside, rfl⟩ := List.mem_map.1 member
        exact (ih a inside).atoms
  | @union args some _ ih => exact groupedUnion some ih
  | @intersection args some _ ih => exact groupedMeetAll some ih
  | array _ ih => exact groupedAtom (.array ih.some ih.full ih.atoms)

/-! The text of alternatives, and that it is the text of the type they came from. -/

def shownGroups (gs : List (List TypeRef)) : String :=
  " | ".intercalate (gs.map fun g => " & ".intercalate (g.map shown))

theorem joinTold {form : TypeForm} {sep : String}
    (joins : ∀ ts, (mk form "" ts).text? = (texts? ts).map sep.intercalate) {ts : List TypeRef}
    (told : ∀ t ∈ ts, t.text? = some t.shown) : (joinAs form ts).text? = some (sep.intercalate (ts.map shown)) := by
  unfold joinAs
  split
  · simpa using told _ (by simp)
  · rw [joins, textsShown told]; rfl

theorem assembleTold {gs : List (List TypeRef)} (told : ∀ g ∈ gs, ∀ a ∈ g, a.text? = some a.shown) :
    (assemble gs).text? = some (shownGroups gs) := by
  have inner : ∀ g ∈ gs, (joinAs .intersection g).text? = some (" & ".intercalate (g.map shown)) :=
    fun g member => joinTold (fun _ => rfl) (told g member)
  have parts : ∀ t ∈ gs.map (joinAs .intersection), t.text? = some t.shown := by
    intro t member
    obtain ⟨g, inside, rfl⟩ := List.mem_map.1 member
    rw [inner g inside, shownOf (inner g inside)]
  rw [assemble, joinTold (fun _ => rfl) parts, shownGroups, List.map_map]
  congr 2
  refine List.map_congr_left fun g member => ?_
  exact shownOf (inner g member)

theorem shownAppend {gs hs : List (List TypeRef)} (first : gs ≠ []) (second : hs ≠ []) :
    shownGroups (gs ++ hs) = shownGroups gs ++ " | " ++ shownGroups hs := by
  rw [shownGroups, List.map_append, String.intercalate_append_of_ne_nil (by simpa using first) (by simpa using second)]
  rfl

theorem shownCons (g : List TypeRef) {gs : List (List TypeRef)} (more : gs ≠ []) :
    shownGroups (g :: gs) = " & ".intercalate (g.map shown) ++ " | " ++ shownGroups gs := by
  rw [← List.singleton_append, shownAppend (by simp) more]
  simp [shownGroups]

theorem shownMeet {gs hs : List (List TypeRef)} (first : gs ≠ [] ∧ [] ∉ gs) (second : hs ≠ [] ∧ [] ∉ hs) :
    shownGroups (meet gs hs) = shownGroups gs ++ " & " ++ shownGroups hs := by
  fun_induction meet gs hs with
  | case1 hs => exact absurd rfl first.1
  | case2 g => exact absurd rfl second.1
  | case3 g h hs =>
    have left : g ≠ [] := fun empty => first.2 (by simp [empty])
    have right : h ≠ [] := fun empty => second.2 (by simp [empty])
    have joined : " & ".intercalate ((g ++ h).map shown) =
        " & ".intercalate (g.map shown) ++ " & " ++ " & ".intercalate (h.map shown) := by
      rw [List.map_append, String.intercalate_append_of_ne_nil (by simpa using left) (by simpa using right)]
    have alone : shownGroups [g] = " & ".intercalate (g.map shown) := by simp [shownGroups]
    by_cases last : hs = []
    · subst last
      simpa [shownGroups] using joined
    · rw [shownCons _ last, shownCons _ last, joined, alone]
      simp only [String.append_assoc]
  | case4 g gs hs noEnd noJoin ih =>
    have more : gs ≠ [] := by
      rintro rfl
      cases hs with
      | nil => exact noEnd rfl rfl
      | cons h hs => exact noJoin h hs rfl rfl
    have rest := ih ⟨more, fun empty => first.2 (by simp [empty])⟩ second
    rw [shownCons _ (meetSome more), rest, shownCons _ more]
    simp only [String.append_assoc]

theorem shownUnionAll {args : List TypeRef} (parts : ∀ a ∈ args, Grouped a.alternatives)
    (same : ∀ a ∈ args, shownGroups a.alternatives = a.shown) :
    shownGroups (unionAlternatives args) = " | ".intercalate (args.map shown) := by
  induction args with
  | nil => rfl
  | cons t rest ih =>
    have others := ih (fun a member => parts a (by simp [member])) fun a member => same a (by simp [member])
    have inner : ∀ a ∈ rest, Grouped a.alternatives := fun a member => parts a (by simp [member])
    have first := same t (by simp)
    cases rest with
    | nil => simpa [unionAlternatives] using first
    | cons u rest =>
      rw [unionAlternatives, shownAppend (parts t (by simp)).some (groupedUnion (by simp) inner).some, others, first]
      simp

theorem shownMeetAll {args : List TypeRef} (parts : ∀ a ∈ args, Grouped a.alternatives)
    (same : ∀ a ∈ args, shownGroups a.alternatives = a.shown) (some : args ≠ []) :
    shownGroups (meetAlternatives args) = " & ".intercalate (args.map shown) := by
  induction args with
  | nil => exact absurd rfl some
  | cons t rest ih =>
    have inner : ∀ a ∈ rest, Grouped a.alternatives := fun a member => parts a (by simp [member])
    have first := same t (by simp)
    cases rest with
    | nil => simpa [meetAlternatives, meetNil] using first
    | cons u rest =>
      have others := ih inner (fun a member => same a (by simp [List.mem_cons.1 member])) (by simp)
      have left := parts t (by simp)
      have right := groupedMeetAll (by simp) inner
      rw [meetAlternatives, shownMeet ⟨left.some, left.full⟩ ⟨right.some, right.full⟩, others, first]
      simp

theorem atomTold {a : TypeRef} (atom : Atom a) : a.text? = some a.shown := by
  have told : ∃ s, a.text? = some s := by
    induction atom with
    | named _ _ => exact ⟨_, rfl⟩
    | applied _ _ _ _ _ ih =>
      have inner := textsShown fun t member => by
        obtain ⟨gs, inside, rfl⟩ := List.mem_map.1 member
        have whole := assembleTold fun g here a inner =>
          (ih gs inside g here a inner).elim fun s told => by rw [told, shownOf told]
        rw [whole, shownOf whole]
      exact ⟨_, by rw [TypeRef.applied, text?, inner]; rfl⟩
    | array _ _ _ ih =>
      have whole := assembleTold fun g here a inner =>
        (ih g here a inner).elim fun s told => by rw [told, shownOf told]
      exact ⟨_, by rw [TypeRef.array, text?, whole]; rfl⟩
  obtain ⟨s, told⟩ := told
  rw [told, shownOf told]

theorem groupsTold {gs : List (List TypeRef)} (atoms : ∀ g ∈ gs, ∀ a ∈ g, Atom a) :
    (assemble gs).text? = some (shownGroups gs) ∧ (assemble gs).shown = shownGroups gs := by
  have told := assembleTold fun g member a inside => atomTold (atoms g member a inside)
  exact ⟨told, shownOf told⟩

theorem shownAlternatives {t : TypeRef} (readable : Readable t) : shownGroups t.alternatives = t.shown := by
  induction readable with
  | named name kept => simp [TypeRef.named, alternatives, shownGroups]
  | @applied n args name free parts ih =>
    have told := textsShown fun a member => readableTold (parts a member)
    by_cases bare : args = []
    · subst bare
      rfl
    · have inner : (args.map normal).map shown = args.map shown := by
        rw [List.map_map]
        refine List.map_congr_left fun a member => ?_
        exact (groupsTold (alternativesGrouped (parts a member)).atoms).2.trans (ih a member)
      have outer : texts? (args.map normal) = some ((args.map normal).map shown) := textsShown fun u member => by
        obtain ⟨a, inside, rfl⟩ := List.mem_map.1 member
        have whole := groupsTold (alternativesGrouped (parts a inside)).atoms
        rw [normal, whole.1, whole.2]
      rw [alternativesApplied n bare]
      simp only [shownGroups, List.map_cons, List.map_nil, String.intercalate_singleton, shown, TypeRef.applied,
        text?, told, outer, inner]
  | @union args some parts ih =>
    have told := textsShown fun a member => readableTold (parts a member)
    rw [TypeRef.union, alternatives, shownUnionAll (fun a member => alternativesGrouped (parts a member)) ih,
      shown, text?, told]
    rfl
  | @intersection args some parts ih =>
    have told := textsShown fun a member => readableTold (parts a member)
    rw [TypeRef.intersection, alternatives,
      shownMeetAll (fun a member => alternativesGrouped (parts a member)) ih some, shown, text?, told]
    rfl
  | @array t part ih =>
    have whole := groupsTold (alternativesGrouped part).atoms
    have inner : (TypeRef.array (assemble t.alternatives)).text? = some ("Array[" ++ t.shown ++ "]") := by
      rw [TypeRef.array, text?, whole.1, ih]; rfl
    have outer : (TypeRef.array t).text? = some ("Array[" ++ t.shown ++ "]") := by
      rw [TypeRef.array, text?, readableTold part]; rfl
    rw [shownOf outer, ← shownOf inner]
    simp [shownGroups, TypeRef.array, alternatives]

theorem normalTold {t : TypeRef} (readable : Readable t) : t.normal.text? = t.text? := by
  rw [normal, (groupsTold (alternativesGrouped readable).atoms).1, shownAlternatives readable, readableTold readable]

end TypeRef
end SharedState
