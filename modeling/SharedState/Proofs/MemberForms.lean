import SharedState.Program.Members
import SharedState.Proofs.Attempts

/-! What the members of a class can be. Each statement of its body declares fields, functions, accessors or nested classes and
nothing else, so what holds of all members is shown for these four. -/
namespace SharedState

open SharedState.Source SharedState.Text

/-- What can be noted of a member: nothing, an annotation, or one in which the type of a value stands in. -/
inductive Noted [CharacterNames] (p : Viewpoint) : QualifiedType → Prop where
  | nothing : Noted p {}
  | written {e : Expr} {a : QualifiedType} (read : p.reader.convert e = .ok a) : Noted p a
  | loose {a : QualifiedType} (noted : Noted p a) : Noted p { a with final := false }
  | value {a : QualifiedType} (noted : Noted p a) (e : Expr) : Noted p { a with type := p.valueType? e }

def functionDeclaration (p : Viewpoint) (name : Identifier) (decorators : List Expr) (start : Position) (kind : Kind) :
    Declaration :=
  { serial := 0, name := name.text, kind, markers := p.vocabulary.markersOf ((decorators.map decoratorName).map leaf),
    location := some (locationOf p.module.path start) }

inductive Stated [CharacterNames] (p : Viewpoint) (d : ClassDecl) : Declaration → Prop where
  | field (id : Identifier) {kind : Kind} (sort : kind = .field ∨ kind = .paramAccessor) {a : QualifiedType}
      (noted : Noted p a) (start : Position) (ofInstance : Bool) :
      Stated p d (fieldDeclaration p d id.text kind a start ofInstance)
  | function (name : Identifier) (decorators : List Expr) (start : Position) {kind : Kind} (isMember : kind.isClass = false) :
      Stated p d (functionDeclaration p name decorators start kind)
  | accessor (name : Identifier) (decorators : List Expr) (start : Position) {a : QualifiedType} (noted : Noted p a) :
      Stated p d { functionDeclaration p name decorators start .accessor with
        declaredType := a.type
        markers := markerSet ((functionDeclaration p name decorators start .accessor).markers ++
          p.vocabulary.markersOf a.markers) }
  | nested (name : Identifier) (start : Position) : Stated p d (nestedClassField p d name start)

variable {p : Viewpoint} {d : ClassDecl} {charset : CharacterNames}

theorem notedValue {a : QualifiedType} (noted : Noted p a) (value : Option Expr) : Noted p (a.orValue p value) := by
  unfold QualifiedType.orValue
  split
  · exact noted.value _
  · exact noted

theorem attributeStated {s : Stmt} {found : List Declaration} (made : attributeFields p d s = .ok found) :
    ∀ m ∈ found, Stated p d m := by
  unfold attributeFields at made
  split at made
  · obtain ⟨a, read, made⟩ := bindOk made
    cases Except.ok.inj made
    intro m member
    rw [List.mem_singleton.1 member]
    refine .field _ ?_ (notedValue (.written read) _) _ _
    split
    · exact .inr rfl
    · exact .inl rfl
  · cases Except.ok.inj made
    intro m member
    obtain ⟨target, _, declared⟩ := List.mem_filterMap.1 member
    split at declared
    · split at declared
      · cases declared
      · cases Option.some.inj declared
        exact .field _ (.inl rfl) (.value .nothing _) _ _
    · cases declared
  · cases Except.ok.inj made
    simp

theorem constructorNoted {params : List Parameter} {s : SelfAssignment} {a : QualifiedType}
    (made : constructorType p params s = .ok a) : Noted p a := by
  unfold constructorType at made
  split at made
  · exact .written made
  · split at made
    · rename_i e _
      cases read : p.reader.convert e with
      | error e => rw [read] at made; cases made
      | ok q =>
        rw [read] at made
        cases Except.ok.inj made
        exact .loose (.written read)
    · cases Except.ok.inj made
      exact .nothing
  · cases Except.ok.inj made
    exact .nothing

theorem instanceStated {params : Parameters} {body : List Stmt} {found : List Declaration}
    (made : instanceFields p d params body = .ok found) : ∀ m ∈ found, Stated p d m := by
  unfold instanceFields at made
  split at made
  · cases Except.ok.inj made
    simp
  · intro m member
    obtain ⟨s, _, field⟩ := relatedRight (mapMEach made) m member
    unfold instanceField at field
    obtain ⟨a, typed, field⟩ := bindOk field
    cases Except.ok.inj field
    exact .field s.attr (.inl rfl) (notedValue (constructorNoted typed) _) _ _

theorem functionStated {name : Identifier} {decorators : List Expr} {params : Parameters} {returns : Option Expr}
    {body : List Stmt} {start : Position} {found : List Declaration}
    (made : functionMembers p d name decorators params returns body start = .ok found) : ∀ m ∈ found, Stated p d m := by
  unfold functionMembers at made
  simp only at made
  split at made
  · cases returns with
    | none =>
      cases Except.ok.inj made
      intro m member
      rw [List.mem_singleton.1 member]
      exact .accessor name decorators start .nothing
    | some e =>
      obtain ⟨a, read, made⟩ := bindOk made
      cases Except.ok.inj made
      intro m member
      rw [List.mem_singleton.1 member]
      exact .accessor name decorators start (.written read)
  · split at made
    · cases Except.ok.inj made
      intro m member
      rw [List.mem_singleton.1 member]
      exact .function name decorators start rfl
    · split at made
      · cases Except.ok.inj made
        intro m member
        rw [List.mem_singleton.1 member]
        exact .function name decorators start rfl
      · split at made
        · obtain ⟨fields, read, made⟩ := bindOk made
          cases Except.ok.inj made
          intro m member
          rcases List.mem_cons.1 member with rfl | field
          · exact .function name decorators start rfl
          · exact instanceStated read m field
        · cases Except.ok.inj made
          intro m member
          rw [List.mem_singleton.1 member]
          exact .function name decorators start rfl

theorem statementStated {s : Stmt} {found : List Declaration} (made : statementMembers p d s = .ok found) :
    ∀ m ∈ found, Stated p d m := by
  unfold statementMembers at made
  split at made
  · exact functionStated made
  · cases Except.ok.inj made
    intro m member
    rw [List.mem_singleton.1 member]
    exact .nested _ _
  · exact attributeStated made

theorem bodyStated {body : List Stmt} {found : List (List Declaration)} (made : body.mapM (statementMembers p d) = .ok found) :
    ∀ m ∈ found.flatten, Stated p d m := by
  intro m member
  obtain ⟨some, inside, here⟩ := List.mem_flatten.1 member
  obtain ⟨s, _, stated⟩ := relatedRight (mapMEach made) some inside
  exact statementStated stated m here

end SharedState
