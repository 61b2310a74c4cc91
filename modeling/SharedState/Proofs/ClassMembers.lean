import SharedState.Proofs.Conversion
import SharedState.Proofs.Declarations
import SharedState.Proofs.MemberForms

/-! The members of a class. Whatever declares them, they can be kept in a document, and their types are readable but for a
bare qualifier that is called as if it were a class. -/
namespace SharedState

open SharedState.Source SharedState.Text

namespace TypeRef

/-- A qualifier that is named alone, so that its text stands for no type. -/
def bare (t : TypeRef) : Bool := t.form = .named && bareQualifiers.contains (typingForm t.name)

/-- A type whose text is read as a type, or as a bare qualifier. -/
def Legible (t : TypeRef) : Prop := Readable t ∨ ∃ n, t = .named n ∧ DottedName n ∧ typingForm n ∈ bareQualifiers

theorem legibleName {n : String} (name : DottedName n) : Legible (.named n) := by
  by_cases bare : typingForm n ∈ bareQualifiers
  · exact .inr ⟨n, rfl, name, bare⟩
  · exact .inl (.named name bare)

theorem legibleReadable {t : TypeRef} (legible : Legible t) (full : t.bare = false) : Readable t := by
  rcases legible with readable | ⟨n, rfl, _, alone⟩
  · exact readable
  · simp [bare, TypeRef.named, form, name, alone] at full

theorem legibleTold {t : TypeRef} (legible : Legible t) : t.text? = some t.shown := by
  rcases legible with readable | ⟨n, rfl, _, _⟩
  · exact readableTold readable
  · rfl

end TypeRef

namespace Viewpoint

structure Regular (p : Viewpoint) : Prop where
  filled : "" ∉ p.vocabulary.markers
  module : p.module.Regular

variable {p : Viewpoint}

theorem convertReadable [CharacterNames] (regular : p.Regular) {e : Expr} {q : QualifiedType} (made : p.reader.convert e = .ok q) :
    TypeReader.Converts TypeRef.Readable q :=
  TypeReader.convertClosed (TypeRef.readableClosed fun _ name => Module.resolveDotted regular.module p.scope name) made

theorem valueTypeLegible (regular : p.Regular) {e : Expr} : ∀ t ∈ p.valueType? e, t.Legible := by
  have plain : ∀ w ∈ ["list", "dict", "set"], DottedName w := by
    intro w member
    simp only [List.mem_cons, List.not_mem_nil, or_false] at member
    rcases member with rfl | rfl | rfl <;> exact dottedWord ⟨by decide, .inl (by decide)⟩
  intro t made
  unfold valueType? at made
  split at made
  · split at made
    · cases made
    · rename_i filled
      cases Option.some.inj made
      have name := fullNameDotted _ (by simpa using filled)
      exact TypeRef.legibleName (Module.resolveDotted regular.module p.scope name)
  · cases Option.some.inj made
    exact TypeRef.legibleName (plain _ (by simp))
  · cases Option.some.inj made
    exact TypeRef.legibleName (plain _ (by simp))
  · cases Option.some.inj made
    exact TypeRef.legibleName (plain _ (by simp))
  · cases Option.some.inj made
    exact TypeRef.legibleName (plain _ (by simp))
  · cases made

end Viewpoint

namespace TypeReader

theorem convertsLegible {q : QualifiedType} (converts : Converts TypeRef.Readable q) : Converts TypeRef.Legible q :=
  ⟨fun t made => .inl (converts.type t made), converts.markers⟩

theorem notedConverts [CharacterNames] {p : Viewpoint} (regular : p.Regular) {a : QualifiedType} (noted : Noted p a) :
    Converts TypeRef.Legible a := by
  induction noted with
  | nothing => exact convertsNothing rfl rfl
  | written read => exact convertsLegible (Viewpoint.convertReadable regular read)
  | loose _ ih => exact ⟨ih.type, ih.markers⟩
  | value _ e ih => exact ⟨Viewpoint.valueTypeLegible regular, ih.markers⟩

end TypeReader

open TypeReader

namespace Declaration

/-- A member as a class declares it. -/
structure Regular (d : Declaration) : Prop where
  kept : d.Portable
  kind : d.kind.isClass = false
  named : d.name ≠ ""
  state : d.kind = .other → d.mutable = false
  type : ∀ t ∈ d.declaredType, t.Legible

end Declaration

variable {p : Viewpoint}

theorem fieldRegular (regular : p.Regular) (d : ClassDecl) (id : Identifier) {kind : Kind}
    (sort : kind = .field ∨ kind = .paramAccessor) {a : QualifiedType} (converts : Converts TypeRef.Legible a)
    (start : Position) (ofInstance : Bool) : (fieldDeclaration p d id.text kind a start ofInstance).Regular := by
  obtain ⟨sorted, settled⟩ := markersOfKept regular.filled converts.markers
  refine ⟨⟨settled, sorted, placedAt p.module.path start⟩, ?_, wordNonempty id.plain.1, ?_, converts.type⟩
  · rcases sort with rfl | rfl <;> rfl
  · rcases sort with rfl | rfl <;> simp [fieldDeclaration]

theorem functionRegular (regular : p.Regular) (name : Identifier) (decorators : List Expr) (start : Position) {kind : Kind}
    (isMember : kind.isClass = false) : (functionDeclaration p name decorators start kind).Regular := by
  obtain ⟨sorted, settled⟩ := markersOfKept regular.filled (decoratorWords decorators)
  refine ⟨⟨settled, sorted, placedAt p.module.path start⟩, isMember, wordNonempty name.plain.1, fun _ => rfl, ?_⟩
  simp [functionDeclaration]

theorem accessorRegular (regular : p.Regular) (name : Identifier) (decorators : List Expr) (start : Position)
    {a : QualifiedType} (converts : Converts TypeRef.Legible a) : Declaration.Regular
      { functionDeclaration p name decorators start .accessor with
        declaredType := a.type
        markers := markerSet ((functionDeclaration p name decorators start .accessor).markers ++
          p.vocabulary.markersOf a.markers) } := by
  have plain : (functionDeclaration p name decorators start .accessor).Regular :=
    functionRegular regular name decorators start rfl
  obtain ⟨_, own⟩ := markersOfKept regular.filled converts.markers
  obtain ⟨order, known⟩ := markerSetMade
    ((functionDeclaration p name decorators start .accessor).markers ++ p.vocabulary.markersOf a.markers)
  refine ⟨⟨fun n inside => ?_, order, plain.kept.placed⟩, rfl, plain.named, by simp [functionDeclaration], converts.type⟩
  rcases List.mem_append.1 (known n inside) with outer | inner
  · exact plain.kept.settled n outer
  · exact own n inner

theorem nestedRegular (d : ClassDecl) (named : DottedName d.symbol.qualifiedName) (name : Identifier)
    (start : Position) : (nestedClassField p d name start).Regular := by
  refine ⟨⟨by simp [nestedClassField], by simp [nestedClassField], placedAt p.module.path start⟩, rfl,
    wordNonempty name.plain.1, by simp [nestedClassField], fun t declared => ?_⟩
  cases Option.some.inj declared
  exact TypeRef.legibleName (dottedAccess named name.plain)

variable {charset : CharacterNames}

theorem statedRegular (regular : p.Regular) {d : ClassDecl} (named : DottedName d.symbol.qualifiedName) {m : Declaration}
    (stated : Stated p d m) : m.Regular := by
  cases stated with
  | field id sort noted => exact fieldRegular regular d id sort (notedConverts regular noted) _ _
  | function name decorators start isMember => exact functionRegular regular name decorators start isMember
  | accessor name decorators start noted =>
    exact accessorRegular regular name decorators start (notedConverts regular noted)
  | nested name start => exact nestedRegular d named name start

/-! Members are numbered as they are added. -/

structure Numbered (members : List Declaration) : Prop where
  serials : members.map (·.serial) = List.range members.length
  each : ∀ m ∈ members, m.Regular

theorem numberedNil : Numbered [] := ⟨rfl, by simp⟩

theorem addNumbered {members : List Declaration} (numbered : Numbered members) {d : Declaration} (regular : d.Regular) :
    Numbered (addMember members d) := by
  unfold addMember
  split
  · exact numbered
  · refine ⟨by simp [numbered.serials, List.range_succ], fun m member => ?_⟩
    rcases List.mem_append.1 member with old | new
    · exact numbered.each m old
    · rw [List.mem_singleton.1 new]
      exact ⟨⟨regular.kept.settled, regular.kept.sorted, regular.kept.placed⟩, regular.kind, regular.named, regular.state,
        regular.type⟩

theorem addAllNumbered {found members : List Declaration} (numbered : Numbered members) (each : ∀ d ∈ found, d.Regular) :
    Numbered (found.foldl addMember members) := by
  induction found generalizing members with
  | nil => exact numbered
  | cons d found ih =>
    exact ih (addNumbered numbered (each d (by simp))) fun m member => each m (by simp [member])

/-- A class with members that can be kept in a document, and with types that are legible. -/
structure Elaborated (d : ClassDecl) (e : ClassEntry) : Prop where
  symbol : e.symbol = d.symbol
  serials : e.members.map (·.serial) = List.range e.members.length
  members : ∀ m ∈ e.members, d.symbol.PortableMember m
  types : ∀ t ∈ e.types, t.Legible

theorem elaborateClassMade (regular : p.Regular) (d : ClassDecl) (named : DottedName d.symbol.qualifiedName)
    {e : ClassEntry} (made : elaborateClass p d = .ok e) : Elaborated d e := by
  unfold elaborateClass at made
  obtain ⟨found, declared, made⟩ := bindOk made
  obtain ⟨parents, above, made⟩ := bindOk made
  cases Except.ok.inj made
  have each : ∀ m ∈ found.flatten, m.Regular := fun m member => statedRegular regular named (bodyStated declared m member)
  have numbered := addAllNumbered numberedNil each
  refine ⟨rfl, ?_, fun m member => ?_, fun t member => ?_⟩
  · simpa [Function.comp_def, Symbol.inside] using numbered.serials
  · obtain ⟨n, inside, rfl⟩ := List.mem_map.1 member
    have kept := numbered.each n inside
    exact ⟨kept.kept, rfl, kept.kind, kept.named, kept.state⟩
  · rcases List.mem_append.1 member with typed | parent
    · obtain ⟨m, inside, declared⟩ := List.mem_filterMap.1 typed
      obtain ⟨n, here, rfl⟩ := List.mem_map.1 inside
      exact (numbered.each n here).type t declared
    · obtain ⟨q, inside, typed⟩ := List.mem_filterMap.1 parent
      obtain ⟨base, _, read⟩ := relatedRight (mapMEach above) q inside
      exact .inl ((Viewpoint.convertReadable regular read).type t typed)

end SharedState
