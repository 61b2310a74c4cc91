import SharedState.Proofs.ModuleNames
import SharedState.Proofs.Portable

/-! The classes that a module declares. They are numbered in the order in which they are found, each stands inside a class
that was found before it or inside the one around all of them, and what is declared of them can be kept in a document. -/
namespace SharedState

open SharedState.Source SharedState.Text

theorem markersOfKept {v : Vocabulary} (filled : "" ∉ v.markers) {names : List String} (words : ∀ n ∈ names, MaybeWord n) :
    (v.markersOf names).Pairwise (· < ·) ∧ ∀ m ∈ v.markersOf names, Settled m := by
  obtain ⟨sorted, known⟩ := markerSetMade (names.filter v.markers.contains)
  refine ⟨sorted, fun m member => ?_⟩
  obtain ⟨listed, marker⟩ := List.mem_filter.1 (known m member)
  refine settledWord (words m listed) ?_
  rintro rfl
  exact filled (by simpa using marker)

theorem decoratorWords (decorators : List Expr) : ∀ n ∈ (decorators.map decoratorName).map leaf, MaybeWord n := by
  intro n member
  obtain ⟨name, named, rfl⟩ := List.mem_map.1 member
  obtain ⟨e, _, rfl⟩ := List.mem_map.1 named
  exact leafWord (nameOrNone e.callee)

theorem placedAt (path : String) (start : Position) :
    ∀ l ∈ some (locationOf path start), 1 ≤ l.line ∧ 1 ≤ l.column := by
  intro l same
  cases Option.some.inj same
  simp only [locationOf]
  omega

theorem joinedFilled (a b : String) : a ++ "." ++ b ≠ "" := by
  intro empty
  have parts := congrArg String.toList empty
  simp at parts

theorem declareOwner (v : Vocabulary) (m : Module) (index serial : Nat) (scope : List String) (outer : Option Symbol)
    (name : Identifier) (decorators bases : List Expr) (body : List Stmt) (start : Position) :
    (declareClass v m index serial scope outer name decorators bases body start).symbol.owner? = outer := by
  cases outer with
  | none => rfl
  | some o => exact Symbol.ownerInside o _

theorem declareKind (v : Vocabulary) (m : Module) (index serial : Nat) (scope : List String) (outer : Option Symbol)
    (name : Identifier) (decorators bases : List Expr) (body : List Stmt) (start : Position) :
    (declareClass v m index serial scope outer name decorators bases body start).symbol.isClass = true := by
  have kind (test : Bool) : (if test then Kind.enumHolder else .plainClass).isClass = true := by cases test <;> rfl
  cases outer <;> exact kind _

namespace ClassDecl

structure Regular (d : ClassDecl) : Prop where
  kept : d.symbol.toDeclaration.Portable
  kind : d.symbol.isClass = true
  untyped : d.symbol.declaredType = none
  fixed : d.symbol.mutable = false
  named : DottedName d.symbol.qualifiedName
  depth : d.symbol.enclosing.length ≤ d.symbol.serial

end ClassDecl

/-- What is found inside a class, or inside none, if the numbers before `serial` are taken. -/
structure Declared (serial : Nat) (outer : Option Symbol) (found : List ClassDecl) : Prop where
  serials : found.map (·.symbol.serial) = List.range' serial found.length
  each : ∀ d ∈ found, d.Regular
  owners : ∀ d ∈ found, ∀ o ∈ d.symbol.owner?, o ∈ outer ∨ ∃ e ∈ found, e.symbol = o

/-- A class around others: it has a name, and is numbered before them. -/
structure Around (serial : Nat) (outer : Option Symbol) : Prop where
  named : ∀ o ∈ outer, DottedName o.qualifiedName
  depth : ∀ o ∈ outer, o.enclosing.length < serial

theorem aroundNone (serial : Nat) : Around serial none := ⟨by simp, by simp⟩

theorem aroundLater {serial later : Nat} {outer : Option Symbol} (around : Around serial outer) (after : serial ≤ later) :
    Around later outer :=
  ⟨around.named, fun o inside => Nat.lt_of_lt_of_le (around.depth o inside) after⟩

theorem declaredNil (serial : Nat) (outer : Option Symbol) : Declared serial outer [] :=
  ⟨rfl, by simp, by simp⟩

theorem declaredAppend {serial : Nat} {outer : Option Symbol} {first second : List ClassDecl}
    (front : Declared serial outer first) (back : Declared (serial + first.length) outer second) :
    Declared serial outer (first ++ second) := by
  refine ⟨?_, fun d member => ?_, fun d member o owned => ?_⟩
  · rw [List.map_append, front.serials, back.serials, List.length_append, ← List.range'_append]
    simp
  · rcases List.mem_append.1 member with old | new
    · exact front.each d old
    · exact back.each d new
  · rcases List.mem_append.1 member with old | new
    · rcases front.owners d old o owned with outside | ⟨e, inside, same⟩
      · exact .inl outside
      · exact .inr ⟨e, by simp [inside], same⟩
    · rcases back.owners d new o owned with outside | ⟨e, inside, same⟩
      · exact .inl outside
      · exact .inr ⟨e, by simp [inside], same⟩

theorem declaredNested {serial : Nat} {outer : Option Symbol} {decl : ClassDecl} {inner : List ClassDecl}
    (regular : decl.Regular) (number : decl.symbol.serial = serial) (owner : decl.symbol.owner? = outer)
    (nested : Declared (serial + 1) (some decl.symbol) inner) : Declared serial outer (decl :: inner) := by
  refine ⟨?_, fun d member => ?_, fun d member o owned => ?_⟩
  · rw [List.map_cons, nested.serials, number, List.length_cons, List.range'_succ]
  · rcases List.mem_cons.1 member with rfl | later
    · exact regular
    · exact nested.each d later
  · rcases List.mem_cons.1 member with rfl | later
    · exact .inl (owner ▸ owned)
    · rcases nested.owners d later o owned with outside | ⟨e, inside, same⟩
      · exact .inr ⟨decl, by simp, Option.some.inj outside⟩
      · exact .inr ⟨e, by simp [inside], same⟩

variable {v : Vocabulary} {m : Module}

theorem declareClassRegular (filled : "" ∉ v.markers) (regular : m.Regular) (index : Nat)
    {serial : Nat} (scope : List String) {outer : Option Symbol} (around : Around serial outer)
    (name : Identifier) (decorators bases : List Expr) (body : List Stmt) (start : Position) :
    (declareClass v m index serial scope outer name decorators bases body start).Regular := by
  obtain ⟨sorted, settled⟩ := markersOfKept filled (decoratorWords decorators)
  have kind := declareKind v m index serial scope outer name decorators bases body start
  cases outer with
  | none =>
    refine ⟨⟨settled, sorted, placedAt m.path start⟩, kind, rfl, rfl, ?_, by simp [declareClass]⟩
    simpa [declareClass, Symbol.qualifiedName] using dottedAccess (Module.nameDotted regular) name.plain
  | some o =>
    refine ⟨⟨settled, sorted, placedAt m.path start⟩, kind, rfl, rfl, ?_, around.depth o rfl⟩
    simp only [declareClass, Symbol.qualifiedInside]
    exact dottedAccess (around.named o rfl) name.plain

mutual
theorem classesOfDeclared (filled : "" ∉ v.markers) (regular : m.Regular) (index : Nat) :
    (s : Stmt) → ∀ (serial : Nat) (scope : List String) (outer : Option Symbol), Around serial outer →
      Declared serial outer (classesOf v m index serial scope outer s)
  | .classDef name decorators bases body start, serial, scope, outer, around => by
    have decl := declareClassRegular filled regular index scope around name decorators bases body start
    have number : (declareClass v m index serial scope outer name decorators bases body start).symbol.serial = serial := by
      cases outer <;> rfl
    have owner := declareOwner v m index serial scope outer name decorators bases body start
    rw [classesOf]
    refine declaredNested decl number owner (classesInDeclared filled regular index body _ _ _ ⟨?_, ?_⟩)
    · intro o same
      cases Option.some.inj same
      exact decl.named
    · intro o same
      cases Option.some.inj same
      have depth := decl.depth
      omega
  | .compound body, serial, scope, outer, around => by
    rw [classesOf]
    exact classesInDeclared filled regular index body serial scope outer around
  | .assign _ _, serial, _, outer, _ | .annAssign _ _ _, serial, _, outer, _ | .importNames _, serial, _, outer, _
  | .importFrom _ _ _, serial, _, outer, _ | .functionDef _ _ _ _ _ _, serial, _, outer, _ | .other, serial, _, outer, _ =>
    declaredNil serial outer
theorem classesInDeclared (filled : "" ∉ v.markers) (regular : m.Regular) (index : Nat) :
    (body : List Stmt) → ∀ (serial : Nat) (scope : List String) (outer : Option Symbol), Around serial outer →
      Declared serial outer (classesIn v m index serial scope outer body)
  | [], serial, _, outer, _ => declaredNil serial outer
  | s :: rest, serial, scope, outer, around => by
    rw [classesIn]
    exact declaredAppend (classesOfDeclared filled regular index s serial scope outer around)
      (classesInDeclared filled regular index rest _ scope outer (aroundLater around (Nat.le_add_right _ _)))
end

end SharedState
