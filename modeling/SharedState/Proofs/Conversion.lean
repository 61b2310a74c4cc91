import SharedState.Proofs.Attempts
import SharedState.Proofs.Names
import SharedState.Proofs.TypeGrammar

/-! Types that conversion makes. What holds of names, and carries over to applications, arrays, unions and intersections,
holds of every converted type; so each of them is readable from its text. The markers in metadata are words of names. -/
namespace SharedState

open SharedState.Source SharedState.Text

namespace TypeReader

/-- A property of types that is kept by all that a reader does. -/
structure Closed (r : TypeReader) (good : TypeRef → Prop) : Prop where
  named : ∀ {n}, DottedName n → r.formOf n ∉ bareQualifiers → good (.named (r.resolve n))
  none : good (.named "None")
  object : good (.named "object")
  applied : ∀ {n parts}, DottedName n → r.formOf n ∉ constructs → leaf n ∉ arrayNames → (∀ t ∈ parts, good t) →
    good (.applied (r.resolve n) parts)
  array : ∀ {t}, good t → good (.array t)
  join : ∀ {form} {parts : List TypeRef}, form = .union ∨ form = .intersection → 1 < parts.length → (∀ t ∈ parts, good t) →
    good (.mk form "" (parts.flatMap fun p => if p.form = form then p.args else [p]))

variable {r : TypeReader} {good : TypeRef → Prop}

theorem flattenClosed (closed : Closed r good) {form : TypeForm} (loose : form = .union ∨ form = .intersection)
    {parts : List TypeRef} (each : ∀ t ∈ parts, good t) : ∀ t ∈ flatten form parts, good t := by
  intro t made
  unfold flatten at made
  split at made
  · cases made
  · cases Option.some.inj made
    exact each t (by simp)
  · rename_i some several
    cases Option.some.inj made
    refine closed.join loose ?_ each
    rcases parts with _ | ⟨p, _ | ⟨q, rest⟩⟩
    · exact absurd rfl some
    · exact absurd rfl (several p)
    · simp

theorem ofNameClosed (closed : Closed r good) {n : String} (dotted : n = "" ∨ DottedName n) :
    ∀ t ∈ (r.ofName n).type, good t := by
  intro t made
  by_cases isFinal : r.formOf n = "Final"
  · simp [ofName, isFinal] at made
  by_cases isClass : r.formOf n = "ClassVar"
  · simp [ofName, isClass] at made
  by_cases empty : n = ""
  · subst empty
    simp [ofName, isFinal, isClass] at made
  have same : .named (r.resolve n) = t := by simpa [ofName, isFinal, isClass, empty] using made
  rw [← same]
  exact closed.named (dotted.resolve_left empty) (by simp [bareQualifiers, isFinal, isClass])

theorem applicationClosed (closed : Closed r good) {n : String} (dotted : n = "" ∨ DottedName n) {metadata : List Expr}
    (outer : r.wrapper? (r.formOf n) metadata = none) {parts : List TypeRef} (each : ∀ t ∈ parts, good t) :
    ∀ t ∈ r.application n (r.formOf n) parts, good t := by
  intro t made
  unfold application at made
  split at made
  · refine flattenClosed closed (.inl rfl) (fun u member => ?_) t made
    rcases List.mem_append.1 member with old | last
    · exact each u old
    · rw [List.mem_singleton.1 last]; exact closed.none
  · split at made
    · exact flattenClosed closed (.inl rfl) each t made
    · split at made
      · cases Option.some.inj made
        refine closed.array ?_
        cases parts with
        | nil => exact closed.object
        | cons p parts => exact each p (by simp)
      · split at made
        · cases made
        · rename_i noOptional noUnion noArray filled
          cases Option.some.inj made
          have name : DottedName n := dotted.resolve_left (by simpa using filled)
          refine closed.applied name ?_ (by simpa using noArray) each
          simp only [wrapper?] at outer
          split at outer
          · cases outer
          · split at outer
            · cases outer
            · split at outer
              · cases outer
              · simp_all [constructs]

theorem markerNameWord (e : Expr) : MaybeWord (markerName e) := leafWord (nameOrNone e.callee)

/-- What comes of a conversion: a type with the property, if there is one, and markers that are words. -/
structure Converts (good : TypeRef → Prop) (q : QualifiedType) : Prop where
  type : ∀ t ∈ q.type, good t
  markers : ∀ m ∈ q.markers, MaybeWord m

theorem convertsNothing {q : QualifiedType} (untyped : q.type = none) (unmarked : q.markers = []) : Converts good q :=
  ⟨by simp [untyped], by simp [unmarked]⟩

theorem withMarkers {a b : QualifiedType} (first : ∀ m ∈ a.markers, MaybeWord m) (second : ∀ m ∈ b.markers, MaybeWord m) :
    ∀ m ∈ (a.withQualifiersOf b).markers, MaybeWord m := by
  intro m member
  rcases insertAllMember member with old | new
  · exact first m old
  · exact second m new

theorem wrapperMarkers {form : String} {metadata : List Expr} {q : QualifiedType}
    (wraps : r.wrapper? form metadata = some q) : ∀ m ∈ q.markers, MaybeWord m := by
  unfold wrapper? at wraps
  split at wraps
  · cases Option.some.inj wraps
    simp
  · split at wraps
    · cases Option.some.inj wraps
      simp
    · split at wraps
      · cases Option.some.inj wraps
        intro m member
        have listed := (markerSetMade _).2 m member
        obtain ⟨e, _, rfl⟩ := List.mem_map.1 (List.mem_filter.1 listed).1
        exact markerNameWord e
      · cases wraps

theorem ofNameConverts (closed : Closed r good) (e : Expr) : Converts good (r.ofName e.fullName) := by
  refine ⟨ofNameClosed closed (nameOrNone e), ?_⟩
  simp only [ofName]
  split
  · simp
  · split
    · simp
    · split <;> simp

def Rereads (good : TypeRef → Prop) (reread : String → Reading QualifiedType) : Prop :=
  ∀ text q, reread text = .ok q → Converts good q

variable {reread : String → Reading QualifiedType} {charset : CharacterNames}

mutual
theorem ofExprClosed (closed : Closed r good) (texts : Rereads good reread) :
    (e : Expr) → ∀ q, ofExpr r reread e = .ok q → Converts good q
  | .name id start, q, made => by
    cases Except.ok.inj made
    exact ofNameConverts closed (.name id start)
  | .constant c, q, made => by
    cases Except.ok.inj made
    exact ofNameConverts closed (.constant c)
  | .access value attr start, q, made => by
    cases Except.ok.inj made
    exact ofNameConverts closed (.access value attr start)
  | .literal pieces, q, made => by
    rw [ofExpr] at made
    obtain ⟨value, _, read⟩ := bindOk made
    split at read
    · obtain ⟨text, _, read⟩ := bindOk read
      exact texts text q read
    · cases Except.ok.inj read
      exact convertsNothing rfl rfl
  | .binary op left right, q, made => by
    rw [ofExpr] at made
    obtain ⟨a, first, made⟩ := bindOk made
    obtain ⟨b, second, made⟩ := bindOk made
    cases Except.ok.inj made
    have front := ofExprClosed closed texts left a first
    have back := ofExprClosed closed texts right b second
    have each : ∀ t ∈ a.type.toList ++ b.type.toList, good t := by
      intro t member
      rcases List.mem_append.1 member with old | new
      · exact front.type t (Option.mem_toList.1 old)
      · exact back.type t (Option.mem_toList.1 new)
    refine ⟨?_, withMarkers front.markers back.markers⟩
    cases op with
    | bitOr => exact flattenClosed closed (.inl rfl) each
    | bitAnd => exact flattenClosed closed (.inr rfl) each
    | other => simp [operation]
  | .subscript value indices, q, made => by
    rw [ofExpr] at made
    split at made
    · rename_i wraps
      obtain ⟨a, first, made⟩ := bindOk made
      cases Except.ok.inj made
      have inner : Converts good a := by
        cases indices with
        | nil =>
          cases Except.ok.inj first
          exact convertsNothing rfl rfl
        | cons e rest => exact ofExprClosed closed texts e a first
      exact ⟨inner.type, withMarkers (wrapperMarkers wraps) inner.markers⟩
    · rename_i outer
      obtain ⟨⟨parts, a⟩, first, made⟩ := bindOk made
      cases Except.ok.inj made
      obtain ⟨each, markers⟩ := ofExprsClosed closed texts indices parts a first
      exact ⟨applicationClosed closed (nameOrNone value) outer each, markers⟩
  | .call _ _, q, made | .tuple _, q, made | .list _, q, made | .container _, q, made | .starred _, q, made
  | .other, q, made => by
    cases Except.ok.inj made
    exact convertsNothing rfl rfl
theorem ofExprsClosed (closed : Closed r good) (texts : Rereads good reread) :
    (es : List Expr) → ∀ parts q, ofExprs r reread es = .ok (parts, q) →
      (∀ t ∈ parts, good t) ∧ ∀ m ∈ q.markers, MaybeWord m
  | [], parts, q, made => by
    cases Except.ok.inj made
    simp
  | e :: rest, parts, q, made => by
    rw [ofExprs] at made
    obtain ⟨a, first, made⟩ := bindOk made
    obtain ⟨⟨others, b⟩, second, made⟩ := bindOk made
    cases Except.ok.inj made
    have front := ofExprClosed closed texts e a first
    obtain ⟨each, markers⟩ := ofExprsClosed closed texts rest others b second
    refine ⟨fun t member => ?_, withMarkers front.markers markers⟩
    rcases List.mem_append.1 member with old | new
    · exact front.type t (Option.mem_toList.1 old)
    · exact each t new
end

theorem ofTextWithinClosed (closed : Closed r good) (n : Nat) : Rereads good (ofTextWithin r n) := by
  induction n with
  | zero =>
    intro text q made
    cases Except.ok.inj made
    exact convertsNothing rfl rfl
  | succ n ih =>
    intro text q made
    rw [ofTextWithin] at made
    split at made
    · cases Except.ok.inj made
      exact convertsNothing rfl rfl
    · cases made
    · exact ofExprClosed closed ih _ q made

theorem convertClosed (closed : Closed r good) {e : Expr} {q : QualifiedType} (made : r.convert e = .ok q) :
    Converts good q :=
  ofExprClosed closed (fun text => ofTextWithinClosed closed (text.length + 1) text) e q made

end TypeReader

theorem parseTypeClosed [CharacterNames] {good : TypeRef → Prop} (closed : TypeReader.Closed {} good) {text : String} {t : TypeRef}
    (made : parseType text = .ok (some t)) : good t := by
  rw [parseType, TypeReader.ofText] at made
  cases read : TypeReader.ofTextWithin {} (text.length + 1) text with
  | error e =>
    rw [read] at made
    cases made
  | ok q =>
    rw [read] at made
    exact (TypeReader.ofTextWithinClosed closed _ text q read).type t (Except.ok.inj made)

/-! Converted types are readable. Under a reader that leaves names as they are, none of them applies a name for arrays. -/

namespace TypeRef

theorem readableArgs {form : TypeForm} (loose : form = .union ∨ form = .intersection) {t : TypeRef} (readable : Readable t)
    (same : t.form = form) : t.args ≠ [] ∧ ∀ a ∈ t.args, Readable a := by
  cases readable with
  | union some parts => exact ⟨some, parts⟩
  | intersection some parts => exact ⟨some, parts⟩
  | named _ _ => rcases loose with rfl | rfl <;> cases same
  | applied _ _ _ => rcases loose with rfl | rfl <;> cases same
  | array _ => rcases loose with rfl | rfl <;> cases same

theorem readableClosed {r : TypeReader} (dotted : ∀ n, DottedName n → DottedName (r.resolve n)) :
    r.Closed Readable where
  named name free := .named (dotted _ name) free
  none := .named (dottedWord (constantWord .none)) (by decide)
  object := .named (dottedWord ⟨by decide, .inl (by decide)⟩) (by decide)
  applied name free _ parts := .applied (dotted _ name) free parts
  array := .array
  join := by
    intro form parts loose several each
    have full : (parts.flatMap fun p => if p.form = form then p.args else [p]) ≠ [] := by
      obtain ⟨p, rest, rfl⟩ := List.exists_cons_of_length_pos (Nat.zero_lt_of_lt several)
      have first := each p (by simp)
      by_cases same : p.form = form
      · simp [same, (readableArgs loose first same).1]
      · simp [same]
    have members : ∀ t ∈ parts.flatMap fun p => if p.form = form then p.args else [p], Readable t := by
      intro t member
      obtain ⟨p, here, inside⟩ := List.mem_flatMap.1 member
      split at inside
      · rename_i same
        exact (readableArgs loose (each p here) same).2 t inside
      · rw [List.mem_singleton.1 inside]
        exact each p here
    rcases loose with rfl | rfl
    · exact .union full members
    · exact .intersection full members

theorem arrayFreeArgs {t : TypeRef} (free : t.arrayFree = true) : t.args.all arrayFree = true := by
  obtain ⟨form, n, args⟩ := t
  cases form <;> cases args <;> simp_all [arrayFree, args, arrayFreeAll]

theorem arrayFreeClosed : ({} : TypeReader).Closed fun t => t.arrayFree = true where
  named _ _ := rfl
  none := rfl
  object := rfl
  applied := by
    intro n parts _ _ other each
    cases parts with
    | nil => rfl
    | cons p parts =>
      have rest : parts.all arrayFree = true := List.all_eq_true.2 fun t member => each t (by simp [member])
      simp [TypeRef.applied, arrayFree, other, each p (by simp), arrayFreeAll, rest]
  array free := by simpa [TypeRef.array, arrayFree, arrayFreeEach] using free
  join := by
    intro form parts loose _ each
    have members : (parts.flatMap fun p => if p.form = form then p.args else [p]).all arrayFree = true := by
      rw [List.all_eq_true]
      intro t member
      obtain ⟨p, here, inside⟩ := List.mem_flatMap.1 member
      split at inside
      · exact List.all_eq_true.1 (arrayFreeArgs (each p here)) t inside
      · rw [List.mem_singleton.1 inside]
        exact each p here
    rcases loose with rfl | rfl <;> simpa [arrayFree, arrayFreeAll] using members

end TypeRef
end SharedState
