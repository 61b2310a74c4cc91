import SharedState.Proofs.Conversion
import SharedState.Proofs.Renaming

/-! Spellings of unions and intersections. A converted type is given by its constituents, which are no unions themselves; and each of
the ways to write a union puts the constituents of its operands one after the other. So what counts is which operands there are, and
in which order. -/
namespace SharedState

open SharedState.Source SharedState.Text

namespace TypeRef

/-! Types and their constituents. -/

def members (form : TypeForm) (t : TypeRef) : List TypeRef := if t.form = form then t.args else [t]

def constituents (form : TypeForm) (type : Option TypeRef) : List TypeRef := type.toList.flatMap (members form)

/- The type that has the given constituents. -/
def joined (form : TypeForm) : List TypeRef → Option TypeRef
  | [] => none
  | [t] => some t
  | ts => some (.mk form "" ts)

/- A union has at least two members, none of them a union. -/
structure Flat (form : TypeForm) (t : TypeRef) : Prop where
  several : t.form = form → t.name = "" ∧ 1 < t.args.length
  members : ∀ u ∈ t.members form, u.form ≠ form

variable {form : TypeForm} {t : TypeRef} {ts : List TypeRef}

theorem membersOther (other : t.form ≠ form) : t.members form = [t] := if_neg other

theorem otherFlat (other : t.form ≠ form) : t.Flat form where
  several same := absurd same other
  members := by simpa [membersOther other] using other

theorem joinedSeveral (several : 1 < ts.length) : joined form ts = some (.mk form "" ts) := by
  rcases ts with _ | ⟨t, _ | ⟨u, rest⟩⟩
  · cases several
  · simp at several
  · rfl

theorem membersSeveral (flat : t.Flat form) : 0 < (t.members form).length := by
  by_cases same : t.form = form
  · rw [members, if_pos same]
    exact Nat.zero_lt_of_lt (flat.several same).2
  · simp [membersOther same]

theorem membersLength (each : ∀ t ∈ ts, t.Flat form) : ts.length ≤ (ts.flatMap (members form)).length := by
  induction ts with
  | nil => exact Nat.le_refl 0
  | cons t ts ih =>
    have first := membersSeveral (each t (by simp))
    have rest := ih fun u later => each u (by simp [later])
    rw [List.flatMap_cons, List.length_append, List.length_cons]
    omega

theorem membersApart (each : ∀ t ∈ ts, t.Flat form) : ∀ u ∈ ts.flatMap (members form), u.form ≠ form := by
  intro u inside
  obtain ⟨t, here, member⟩ := List.mem_flatMap.1 inside
  exact (each t here).members u member

theorem joinedMembers (flat : t.Flat form) : joined form (t.members form) = some t := by
  by_cases same : t.form = form
  · obtain ⟨unnamed, several⟩ := flat.several same
    rw [members, if_pos same, joinedSeveral several, ← same, ← unnamed]
    cases t
    rfl
  · rw [membersOther same]
    rfl

theorem constituentsJoined (apart : ∀ t ∈ ts, t.form ≠ form) : constituents form (joined form ts) = ts := by
  rcases ts with _ | ⟨t, _ | ⟨u, rest⟩⟩
  · rfl
  · simpa [joined, constituents] using membersOther (apart t (by simp))
  · simp [joined, constituents, members, TypeRef.form, TypeRef.args]

theorem joinedConstituents {type : Option TypeRef} (flat : ∀ t ∈ type, t.Flat form) : joined form (constituents form type) = type := by
  cases type with
  | none => rfl
  | some t => simpa [constituents] using joinedMembers (flat t rfl)

theorem membersAll (others : ∀ t ∈ ts, t.form ≠ form) : ts.flatMap (members form) = ts := by
  induction ts with
  | nil => rfl
  | cons t ts ih =>
    rw [List.flatMap_cons, membersOther (others t (by simp)), ih fun u later => others u (by simp [later])]
    rfl

/- Taking members one level up is enough. -/
theorem flattenJoined (each : ∀ t ∈ ts, t.Flat form) : TypeReader.flatten form ts = joined form (ts.flatMap (members form)) := by
  rcases ts with _ | ⟨t, _ | ⟨u, rest⟩⟩
  · rfl
  · simpa [TypeReader.flatten] using (joinedMembers (each t (by simp))).symm
  · have several := membersLength each
    rw [joinedSeveral (Nat.lt_of_lt_of_le (by simp) several)]
    rfl

theorem tight (loose : form = .union ∨ form = .intersection) : .named ≠ form ∧ .applied ≠ form ∧ .array ≠ form := by
  rcases loose with rfl | rfl <;> decide

theorem flatClosed (r : TypeReader) (loose : form = .union ∨ form = .intersection) : r.Closed (Flat form) where
  named _ _ := otherFlat (tight loose).1
  none := otherFlat (tight loose).1
  object := otherFlat (tight loose).1
  applied _ _ _ _ := otherFlat (tight loose).2.1
  array _ := otherFlat (tight loose).2.2
  join := by
    intro other parts _ several each
    by_cases same : other = form
    · subst same
      have shape : (parts.flatMap fun p => if p.form = other then p.args else [p]) = parts.flatMap (members other) := rfl
      rw [shape]
      refine ⟨fun _ => ⟨rfl, Nat.lt_of_lt_of_le several (membersLength each)⟩, ?_⟩
      have own : (mk other "" (parts.flatMap (members other))).members other = parts.flatMap (members other) := if_pos rfl
      rw [own]
      exact membersApart each
    · exact otherFlat same

theorem constituentsFlatten (each : ∀ t ∈ ts, t.Flat form) :
    constituents form (TypeReader.flatten form ts) = ts.flatMap (members form) := by
  rw [flattenJoined each, constituentsJoined (membersApart each)]

end TypeRef

namespace TypeReader

open TypeRef

/-! What each way of writing does. -/

/- An operator, and the form of the types that it makes. -/
inductive Joins : BinaryOp → TypeForm → Prop where
  | union : Joins .bitOr .union
  | intersection : Joins .bitAnd .intersection

def constituentsOf [CharacterNames] (r : TypeReader) (form : TypeForm) (e : Expr) : Reading (List TypeRef) :=
  (r.convert e).map fun q => constituents form q.type

variable {r : TypeReader} {op : BinaryOp} {form : TypeForm}

theorem joinsLoose (joins : Joins op form) : form = .union ∨ form = .intersection := by
  cases joins with
  | union => exact .inl rfl
  | intersection => exact .inr rfl

theorem operationJoins (joins : Joins op form) (ts : List TypeRef) : operation op ts = flatten form ts := by
  cases joins with
  | union => rfl
  | intersection => rfl

section
variable {charset : CharacterNames}

theorem convertFlat (loose : form = .union ∨ form = .intersection) {e : Expr} {q : QualifiedType} (made : r.convert e = .ok q) :
    ∀ t ∈ q.type, t.Flat form :=
  (convertClosed (flatClosed r loose) made).type

theorem typeJoined (loose : form = .union ∨ form = .intersection) (e : Expr) :
    (r.convert e).map (·.type) = (r.constituentsOf form e).map (joined form) := by
  rw [constituentsOf]
  cases made : r.convert e with
  | error e => rfl
  | ok q => exact congrArg Except.ok (joinedConstituents (convertFlat loose made)).symm

theorem constituentsApart (loose : form = .union ∨ form = .intersection) {e : Expr} {cs : List TypeRef}
    (made : r.constituentsOf form e = .ok cs) : ∀ t ∈ cs, t.form ≠ form := by
  rw [constituentsOf] at made
  cases read : r.convert e with
  | error e =>
    rw [read] at made
    cases made
  | ok q =>
    rw [read] at made
    cases Except.ok.inj made
    exact membersApart fun t here => convertFlat loose read t (Option.mem_toList.1 here)

theorem binaryConstituents (joins : Joins op form) (a b : Expr) :
    r.constituentsOf form (.binary op a b) = do return (← r.constituentsOf form a) ++ (← r.constituentsOf form b) := by
  have shape : r.convert (.binary op a b) = r.convert a >>= fun p => r.convert b >>= fun q =>
      .ok { p.withQualifiersOf q with type := operation op (p.type.toList ++ q.type.toList) } := by
    rw [convert, ofExpr]
    rfl
  simp only [constituentsOf, shape]
  cases left : r.convert a with
  | error e => rfl
  | ok p =>
    cases right : r.convert b with
    | error e => rfl
    | ok q =>
      have each : ∀ t ∈ p.type.toList ++ q.type.toList, t.Flat form := by
        intro t here
        rcases List.mem_append.1 here with first | second
        · exact convertFlat (joinsLoose joins) left t (Option.mem_toList.1 first)
        · exact convertFlat (joinsLoose joins) right t (Option.mem_toList.1 second)
      refine congrArg Except.ok ?_
      change constituents form (operation op _) = constituents form p.type ++ constituents form q.type
      rw [operationJoins joins, constituentsFlatten each, List.flatMap_append]
      rfl

/- What several expressions give, one after the other. -/
def gathered {α : Type} (f : Expr → Reading (List α)) (es : List Expr) : Reading (List α) := (es.mapM f).map List.flatten

section Gathered

variable {α : Type} {f : Expr → Reading (List α)}

theorem gatheredSingle (e : Expr) : gathered f [e] = f e := by
  rw [gathered, List.mapM_cons]
  cases f e with
  | error e => rfl
  | ok cs => exact congrArg Except.ok (List.append_nil cs)

theorem gatheredAppend (es fs : List Expr) : gathered f (es ++ fs) = do return (← gathered f es) ++ (← gathered f fs) := by
  rw [gathered, List.mapM_append, gathered, gathered]
  cases es.mapM f with
  | error e => rfl
  | ok css =>
    cases fs.mapM f with
    | error e => rfl
    | ok dss => exact congrArg Except.ok List.flatten_append

theorem gatheredNested {parts : List (Expr × List Expr)} (each : ∀ p ∈ parts, f p.1 = gathered f p.2) :
    gathered f (parts.map (·.1)) = gathered f (parts.flatMap (·.2)) := by
  induction parts with
  | nil => rfl
  | cons p parts ih =>
    have rest := ih fun q later => each q (by simp [later])
    rw [List.map_cons, ← List.singleton_append, gatheredAppend, gatheredSingle, each p (by simp), rest, List.flatMap_cons,
      gatheredAppend]

end Gathered

/- The types of several expressions are taken apart one by one. -/
theorem exprsConstituents (form : TypeForm) (es : List Expr) :
    (ofExprs r r.ofText es).map (fun p => p.1.flatMap (members form)) = gathered (r.constituentsOf form) es := by
  induction es with
  | nil => rfl
  | cons e es ih =>
    rw [gathered] at ih
    rw [gathered, ofExprs, List.mapM_cons, constituentsOf, convert]
    cases ofExpr r r.ofText e with
    | error e => rfl
    | ok a =>
      have front : ((ofExprs r r.ofText es) >>= fun p => .ok (a.type.toList ++ p.1, a.withQualifiersOf p.2)).map
            (fun p => p.1.flatMap (members form)) =
          ((ofExprs r r.ofText es).map fun p => p.1.flatMap (members form)).map (constituents form a.type ++ ·) := by
        cases ofExprs r r.ofText es with
        | error e => rfl
        | ok p => exact congrArg Except.ok List.flatMap_append
      have back : ((es.mapM (r.constituentsOf form)) >>= fun css => .ok (constituents form a.type :: css)).map List.flatten =
          ((es.mapM (r.constituentsOf form)).map List.flatten).map (constituents form a.type ++ ·) := by
        cases es.mapM (r.constituentsOf form) with
        | error e => rfl
        | ok css => rfl
      exact front.trans ((congrArg _ ih).trans back.symm)

theorem subscriptConstituents {value : Expr} {tail : List TypeRef} (es : List Expr)
    (free : r.wrapper? (r.formOf value.fullName) es.tail = none)
    (joins : ∀ ts, r.application value.fullName (r.formOf value.fullName) ts = flatten .union (ts ++ tail))
    (flat : ∀ t ∈ tail, t.form ≠ .union) :
    r.constituentsOf .union (.subscript value es) = (gathered (r.constituentsOf .union) es).map (· ++ tail) := by
  have shape : r.convert (.subscript value es) = (ofExprs r r.ofText es).map fun p =>
      { p.2 with type := flatten .union (p.1 ++ tail) } := by
    rw [convert, ofExpr]
    simp only [free, joins]
    cases ofExprs r r.ofText es with
    | error e => rfl
    | ok p => rfl
  have taken : (r.convert (.subscript value es)).map (fun q => constituents .union q.type) =
      ((ofExprs r r.ofText es).map fun p => p.1.flatMap (members .union)).map (· ++ tail) := by
    rw [shape]
    cases made : ofExprs r r.ofText es with
    | error e => rfl
    | ok p =>
      obtain ⟨ts, q⟩ := p
      have closed : r.Closed (Flat .union) := flatClosed r (.inl rfl)
      have first := (ofExprsClosed closed (fun text => ofTextWithinClosed closed _ text) es ts q made).1
      have each : ∀ t ∈ ts ++ tail, t.Flat .union := by
        intro t here
        rcases List.mem_append.1 here with old | new
        · exact first t old
        · exact otherFlat (flat t new)
      refine congrArg Except.ok ?_
      change constituents .union (flatten .union (ts ++ tail)) = ts.flatMap (members .union) ++ tail
      rw [constituentsFlatten each, List.flatMap_append, membersAll flat]
  rw [constituentsOf, taken, exprsConstituents]

theorem unionConstituents {value : Expr} (named : r.formOf value.fullName = "Union") (es : List Expr) :
    r.constituentsOf .union (.subscript value es) = gathered (r.constituentsOf .union) es := by
  have joins : ∀ ts, r.application value.fullName (r.formOf value.fullName) ts = flatten .union (ts ++ []) := by
    intro ts
    rw [named, List.append_nil]
    rfl
  rw [subscriptConstituents es (by rw [named]; rfl) joins (by simp)]
  simp only [List.append_nil]
  exact congrFun Except.map_id _

theorem optionalConstituents {value : Expr} (named : r.formOf value.fullName = "Optional") (es : List Expr) :
    r.constituentsOf .union (.subscript value es) = (gathered (r.constituentsOf .union) es).map (· ++ [.named "None"]) := by
  have joins : ∀ ts, r.application value.fullName (r.formOf value.fullName) ts = flatten .union (ts ++ [.named "None"]) := by
    intro ts
    rw [named]
    rfl
  exact subscriptConstituents es (by rw [named]; rfl) joins (by simp [TypeRef.named, TypeRef.form])

theorem noneConstituents (kept : r.resolve "None" = "None") : r.constituentsOf .union (.constant .none) = .ok [.named "None"] := by
  have form : r.formOf "None" = "None" := by
    rw [formOf, kept]
    decide +kernel
  have read : r.ofName Constant.none.text = { type := some (.named "None") } := by
    have text : Constant.none.text = "None" := rfl
    simp [ofName, text, form, kept]
  rw [constituentsOf, convert, ofExpr, read]
  rfl

/-! Spellings. -/

/- An expression, and the operands that it joins. A union may also be written with brackets, and `None` be added to it. -/
inductive Spells (r : TypeReader) (op : BinaryOp) : Expr → List Expr → Prop where
  | operand (e : Expr) : Spells r op e [e]
  | binary {a b : Expr} {xs ys : List Expr} (left : Spells r op a xs) (right : Spells r op b ys) :
      Spells r op (.binary op a b) (xs ++ ys)
  | union {value : Expr} (isUnion : op = .bitOr) (named : r.formOf value.fullName = "Union") {parts : List (Expr × List Expr)}
      (each : ∀ p ∈ parts, Spells r op p.1 p.2) : Spells r op (.subscript value (parts.map (·.1))) (parts.flatMap (·.2))
  | optional {value : Expr} (isUnion : op = .bitOr) (named : r.formOf value.fullName = "Optional")
      {parts : List (Expr × List Expr)} (each : ∀ p ∈ parts, Spells r op p.1 p.2) :
      Spells r op (.subscript value (parts.map (·.1))) (parts.flatMap (·.2) ++ [.constant .none])

theorem spelledConstituents (kept : r.resolve "None" = "None") (joins : Joins op form) {e : Expr} {xs : List Expr}
    (spells : Spells r op e xs) : r.constituentsOf form e = gathered (r.constituentsOf form) xs := by
  induction spells with
  | operand e => exact (gatheredSingle e).symm
  | binary left right first second => rw [binaryConstituents joins, first, second, gatheredAppend]
  | union isUnion named each ih =>
    subst isUnion
    cases joins
    rw [unionConstituents named, gatheredNested ih]
  | optional isUnion named each ih =>
    subst isUnion
    cases joins
    rw [optionalConstituents named, gatheredNested ih, gatheredAppend, gatheredSingle, noneConstituents kept]
    cases gathered (r.constituentsOf .union) _ with
    | error e => rfl
    | ok cs => rfl

/- A type that is converted is given by its constituents. Operators and brackets put those of their parts together, so two
expressions that join the same operands are converted to the same type, and fail alike. -/
theorem spellingsInterchangeable (r : TypeReader) (kept : r.resolve "None" = "None") {op : BinaryOp} {form : TypeForm}
    (joins : Joins op form) :
    (∀ e, (r.convert e).map (·.type) = (r.constituentsOf form e).map (joined form)) ∧
    (∀ e cs, r.constituentsOf form e = .ok cs → ∀ t ∈ cs, t.form ≠ form) ∧
    (∀ a b, r.constituentsOf form (.binary op a b) = do return (← r.constituentsOf form a) ++ (← r.constituentsOf form b)) ∧
    (∀ value es, r.formOf value.fullName = "Union" →
      r.constituentsOf .union (.subscript value es) = gathered (r.constituentsOf .union) es) ∧
    (∀ value es, r.formOf value.fullName = "Optional" →
      r.constituentsOf .union (.subscript value es) = (gathered (r.constituentsOf .union) es).map (· ++ [.named "None"])) ∧
    ∀ e f xs, Spells r op e xs → Spells r op f xs → (r.convert e).map (·.type) = (r.convert f).map (·.type) := by
  have loose := joinsLoose joins
  refine ⟨typeJoined loose, fun e cs made => constituentsApart loose made, binaryConstituents joins,
    fun value es named => unionConstituents named es, fun value es named => optionalConstituents named es, ?_⟩
  intro e f xs first second
  rw [typeJoined loose, typeJoined loose, spelledConstituents kept joins first, spelledConstituents kept joins second]

end

def quotedUnion : Expr := .literal [.plain "'B | C'"]

-- The arguments of `Union[A, 'B | C']`, `Optional[Union[A, 'B | C']]`, and `A | ('B | C' | None)`.
def quotedOperands : List Expr := [Expr.word "A", quotedUnion]

def bracketedUnion : Expr := .subscript (Expr.word "Optional") [.subscript (Expr.word "Union") quotedOperands]

def barredUnion : Expr := .binary .bitOr (Expr.word "A") (.binary .bitOr quotedUnion (.constant .none))

theorem bracketedLikeBarred : ({} : TypeReader).resolve "None" = "None" ∧
    Spells {} .bitOr bracketedUnion (quotedOperands ++ [.constant .none]) ∧
    Spells {} .bitOr barredUnion (quotedOperands ++ [.constant .none]) ∧
    (convert {} bracketedUnion).map (·.type) = .ok (some (.union [.named "A", .named "B", .named "C", .named "None"])) ∧
    (convert {} bracketedUnion).map (·.type) = (convert {} barredUnion).map (·.type) := by
  have operands : ∀ p ∈ quotedOperands.map fun e => (e, [e]), Spells {} .bitOr p.1 p.2 := by
    intro p here
    obtain ⟨e, _, rfl⟩ := List.mem_map.1 here
    exact .operand e
  have named : ({} : TypeReader).formOf (Expr.word "Union").fullName = "Union" := by decide +kernel
  have optional : ({} : TypeReader).formOf (Expr.word "Optional").fullName = "Optional" := by decide +kernel
  have inner : ∀ p ∈ [(Expr.subscript (Expr.word "Union") quotedOperands, quotedOperands)], Spells {} .bitOr p.1 p.2 := by
    intro p here
    rw [List.mem_singleton.1 here]
    exact Spells.union rfl named operands
  have bracketed : Spells {} .bitOr bracketedUnion (quotedOperands ++ [.constant .none]) := Spells.optional rfl optional inner
  have last : Spells {} .bitOr (.binary .bitOr quotedUnion (.constant .none)) ([quotedUnion] ++ [.constant .none]) :=
    .binary (.operand _) (.operand _)
  have barred := Spells.binary (.operand (Expr.word "A")) last
  refine ⟨rfl, bracketed, barred, by decide +kernel, ?_⟩
  exact (spellingsInterchangeable {} rfl .union).2.2.2.2.2 _ _ _ bracketed barred

end TypeReader
end SharedState
