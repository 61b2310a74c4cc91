import SharedState.Proofs.Conversion
import SharedState.Proofs.MemberForms
import SharedState.Proofs.Rearrangement

/-! Elaboration of classes, whatever their numbers: a class gets the same members and parents, and the arrays in its types have
elements. -/
namespace SharedState

open SharedState.Source SharedState.Text

/-! Arrays have elements. -/

namespace TypeRef

theorem elementsAll (ts : List TypeRef) : allHaveElements ts = ts.all hasElements := by
  induction ts with
  | nil => rfl
  | cons t ts ih => rw [allHaveElements, ih, List.all_cons]

theorem elementsArgs {t : TypeRef} (full : t.hasElements = true) : ∀ u ∈ t.args, u.hasElements = true := by
  obtain ⟨form, n, args⟩ := t
  rw [← List.all_eq_true, ← elementsAll]
  cases form <;> cases args <;> simp_all [hasElements, args, allHaveElements]

theorem elementsClosed (r : TypeReader) : r.Closed fun t => t.hasElements = true where
  named _ _ := rfl
  none := rfl
  object := rfl
  applied := by
    intro n parts _ _ _ each
    simpa [TypeRef.applied, hasElements, elementsAll] using each
  array full := by simpa [TypeRef.array, hasElements, allHaveElements] using full
  join := by
    intro form parts loose _ each
    have members : ∀ t ∈ parts.flatMap fun p => if p.form = form then p.args else [p], t.hasElements = true := by
      intro t member
      obtain ⟨p, here, inside⟩ := List.mem_flatMap.1 member
      split at inside
      · exact elementsArgs (each p here) t inside
      · rw [List.mem_singleton.1 inside]
        exact each p here
    rw [← List.all_eq_true] at members
    rcases loose with rfl | rfl <;> simpa only [hasElements, elementsAll] using members

end TypeRef

variable {p : Viewpoint}

theorem valueElements (p : Viewpoint) (e : Expr) : ∀ t ∈ p.valueType? e, t.hasElements = true := by
  intro t made
  unfold Viewpoint.valueType? at made
  split at made
  · split at made
    · cases made
    · cases Option.some.inj made; rfl
  all_goals cases made <;> rfl

variable {charset : CharacterNames}

theorem notedElements {a : QualifiedType} (noted : Noted p a) : ∀ t ∈ a.type, t.hasElements = true := by
  induction noted with
  | nothing => simp
  | written read => exact (TypeReader.convertClosed (TypeRef.elementsClosed p.reader) read).type
  | loose _ ih => exact ih
  | value _ e _ => exact valueElements p e

theorem statedElements {d : ClassDecl} {m : Declaration} (stated : Stated p d m) :
    ∀ t ∈ m.declaredType, t.hasElements = true := by
  cases stated with
  | field _ _ noted => exact notedElements noted
  | function => simp [functionDeclaration]
  | accessor _ _ _ noted => exact notedElements noted
  | nested name =>
    intro t declared
    cases Option.some.inj declared
    rfl

theorem addedMembers {found members : List Declaration} {m : Declaration} (added : m ∈ found.foldl addMember members) :
    m ∈ members ∨ ∃ n ∈ found, ∃ serial, m = { n with serial } := by
  induction found generalizing members with
  | nil => exact .inl added
  | cons d found ih =>
    rcases ih added with before | ⟨n, later, serial, same⟩
    · unfold addMember at before
      split at before
      · exact .inl before
      · rcases List.mem_append.1 before with old | new
        · exact .inl old
        · exact .inr ⟨d, by simp, members.length, List.mem_singleton.1 new⟩
    · exact .inr ⟨n, by simp [later], serial, same⟩

theorem elaborateElements {d : ClassDecl} {e : ClassEntry} (made : elaborateClass p d = .ok e) :
    ∀ m ∈ e.members, ∀ t ∈ m.declaredType, t.hasElements = true := by
  unfold elaborateClass at made
  obtain ⟨found, declared, made⟩ := bindOk made
  obtain ⟨parents, _, made⟩ := bindOk made
  cases Except.ok.inj made
  intro m member t typed
  obtain ⟨n, inside, rfl⟩ := List.mem_map.1 member
  rcases addedMembers inside with impossible | ⟨o, here, serial, rfl⟩
  · cases impossible
  · exact statedElements (bodyStated declared o here) t typed

theorem elaborateParents {d : ClassDecl} {e : ClassEntry} (made : elaborateClass p d = .ok e) :
    ∀ t ∈ e.parents, t.hasElements = true := by
  unfold elaborateClass at made
  obtain ⟨found, _, made⟩ := bindOk made
  obtain ⟨parents, above, made⟩ := bindOk made
  cases Except.ok.inj made
  intro t parent
  obtain ⟨q, inside, typed⟩ := List.mem_filterMap.1 parent
  obtain ⟨base, _, read⟩ := relatedRight (mapMEach above) q inside
  exact (TypeReader.convertClosed (TypeRef.elementsClosed p.reader) read).type t typed

theorem elaborateSymbol {d : ClassDecl} {e : ClassEntry} (made : elaborateClass p d = .ok e) : e.symbol = d.symbol := by
  unfold elaborateClass at made
  obtain ⟨found, _, made⟩ := bindOk made
  obtain ⟨parents, _, made⟩ := bindOk made
  cases Except.ok.inj made
  rfl

/-! Numbers. -/

/-- A class without its numbers: its own, those of the classes around it, and that of its module. -/
def ClassDecl.unnumbered (d : ClassDecl) : ClassDecl := { d with symbol := d.symbol.unnumbered, module := 0 }

theorem statementUnnumbered (d : ClassDecl) (s : Stmt) : statementMembers p d.unnumbered s = statementMembers p d s := by
  cases s with
  | classDef name _ _ _ start => simp [statementMembers, nestedClassField, ClassDecl.unnumbered]
  | _ => rfl

theorem elaborateUnnumbered (d : ClassDecl) :
    (elaborateClass p d.unnumbered).map (·.unnumbered) = (elaborateClass p d).map (·.unnumbered) := by
  unfold elaborateClass
  rw [show statementMembers p d.unnumbered = statementMembers p d from funext (statementUnnumbered d)]
  refine bindAgrees (u := id) rfl fun found found' same => ?_
  cases same
  refine bindAgrees (u := id) rfl fun parents parents' same => ?_
  cases same
  have twice : d.symbol.unnumbered.unnumbered = d.symbol.unnumbered := Symbol.unnumberedTwice d.symbol
  have members (n : Declaration) : (d.symbol.unnumbered.inside n).unnumbered = (d.symbol.inside n).unnumbered :=
    Symbol.sameInside twice rfl
  simp [ClassEntry.unnumbered, ClassDecl.unnumbered, Except.map, pure, Except.pure, twice, members]

end SharedState
