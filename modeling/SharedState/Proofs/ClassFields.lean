import SharedState.Proofs.ClassSites
import SharedState.Proofs.Singletons

/-! The fields of a class. A class has a field of a name exactly if a statement of its body declares one: a name that is annotated or
assigned, a nested class, or a constructor that assigns an attribute of its first parameter. What is assigned in a constructor is
found in every block and in tuples and lists, but a parameter that is given only by position is not taken for the instance. Of several
fields of one name the first is kept, so a nested class is behind a field of its owner if it is the first to declare it. -/
namespace SharedState

open SharedState.Source SharedState.Text

/-! Attributes that are assigned. -/

def Source.Expr.unstarred : Expr → Expr
  | .starred e => e
  | e => e

/-- `self.x` as a target, or in one that is a tuple or a list. -/
inductive SelfTarget (self x : String) : Expr → Prop where
  | access {id attr : Identifier} {place start : Position} (first : id.text = self) (second : attr.text = x) :
      SelfTarget self x (.access (.name id place) attr start)
  | tuple {elements : List Expr} {e : Expr} (here : e ∈ elements) (inner : SelfTarget self x e.unstarred) :
      SelfTarget self x (.tuple elements)
  | list {elements : List Expr} {e : Expr} (here : e ∈ elements) (inner : SelfTarget self x e.unstarred) :
      SelfTarget self x (.list elements)

/-- An assignment to `self.x` in a statement, but in no function or class inside it. -/
inductive Assigns (self x : String) : Stmt → Prop where
  | plain {targets : List Expr} {target value : Expr} (here : target ∈ targets) (found : SelfTarget self x target) :
      Assigns self x (.assign targets value)
  | annotated {target type : Expr} {value : Option Expr} (found : SelfTarget self x target) :
      Assigns self x (.annAssign target type value)
  | block {body : List Stmt} {s : Stmt} (here : s ∈ body) (inner : Assigns self x s) : Assigns self x (.compound body)

theorem targetsFound (self x : String) :
    (∀ type value e, (∃ a ∈ selfTargets self type value e, a.attr.text = x) ↔ SelfTarget self x e) ∧
      ∀ es, (∃ a ∈ selfElements self es, a.attr.text = x) ↔ ∃ e ∈ es, SelfTarget self x e.unstarred := by
  refine selfTargets.mutual_induct self _ _ ?access ?foreign ?tuple ?list ?rest ?nil ?starred ?element
  case access =>
    intro type value id place attr start first
    rw [selfTargets, if_pos first]
    constructor
    · intro found
      obtain ⟨a, listed, named⟩ := found
      rw [List.mem_singleton.1 listed] at named
      exact .access first named
    · intro target
      cases target with
      | access _ named => exact ⟨_, List.mem_singleton_self _, named⟩
  case foreign =>
    intro type value id place attr start other
    rw [selfTargets, if_neg other]
    constructor
    · simp
    · intro target
      cases target with
      | access first => exact absurd first other
  case tuple =>
    intro type value elements ih
    rw [selfTargets, ih]
    constructor
    · intro found
      obtain ⟨e, here, inner⟩ := found
      exact .tuple here inner
    · intro target
      cases target with
      | tuple here inner => exact ⟨_, here, inner⟩
  case list =>
    intro type value elements ih
    rw [selfTargets, ih]
    constructor
    · intro found
      obtain ⟨e, here, inner⟩ := found
      exact .list here inner
    · intro target
      cases target with
      | list here inner => exact ⟨_, here, inner⟩
  case rest =>
    intro e type value noAccess noTuple noList
    rw [selfTargets.eq_4 _ _ _ _ noAccess noTuple noList]
    constructor
    · simp
    · intro target
      cases target with
      | access => exact absurd rfl (noAccess _ _ _ _)
      | tuple => exact absurd rfl (noTuple _)
      | list => exact absurd rfl (noList _)
  case nil => simp [selfElements]
  case starred =>
    intro e rest first later
    rw [selfElements, List.exists_mem_cons_iff, ← later, Expr.unstarred, ← first]
    simp only [List.mem_append, or_and_right, exists_or]
  case element =>
    intro e rest plain first later
    have same : e.unstarred = e := by
      cases e with
      | starred e => exact absurd rfl (plain e)
      | _ => rfl
    rw [selfElements.eq_3 _ _ _ plain, List.exists_mem_cons_iff, ← later, same, ← first]
    simp only [List.mem_append, or_and_right, exists_or]

theorem assignmentsFound (self x : String) :
    (∀ s, (∃ a ∈ selfAssignments self s, a.attr.text = x) ↔ Assigns self x s) ∧
      ∀ body, (∃ a ∈ selfAssignmentsIn self body, a.attr.text = x) ↔ ∃ s ∈ body, Assigns self x s := by
  obtain ⟨targets, _⟩ := targetsFound self x
  refine selfAssignments.mutual_induct _ _ ?assign ?annotated ?block ?rest ?nil ?cons
  case assign =>
    intro listed value
    rw [selfAssignments]
    constructor
    · intro found
      obtain ⟨a, inside, named⟩ := found
      obtain ⟨target, here, inside⟩ := List.mem_flatMap.1 inside
      exact .plain here ((targets none (some value) target).1 ⟨a, inside, named⟩)
    · intro assigns
      cases assigns with
      | plain here found =>
        obtain ⟨a, inside, named⟩ := (targets none (some value) _).2 found
        exact ⟨a, List.mem_flatMap.2 ⟨_, here, inside⟩, named⟩
  case annotated =>
    intro target type value
    rw [selfAssignments, targets]
    constructor
    · exact .annotated
    · intro assigns
      cases assigns with
      | annotated found => exact found
  case block =>
    intro body ih
    rw [selfAssignments, ih]
    constructor
    · intro found
      obtain ⟨s, here, inner⟩ := found
      exact .block here inner
    · intro assigns
      cases assigns with
      | block here inner => exact ⟨_, here, inner⟩
  case rest =>
    intro s noAssign noAnnotated noBlock
    rw [selfAssignments.eq_4 _ _ noAssign noAnnotated noBlock]
    constructor
    · simp
    · intro assigns
      cases assigns with
      | plain => exact absurd rfl (noAssign _ _)
      | annotated => exact absurd rfl (noAnnotated _ _ _)
      | block => exact absurd rfl (noBlock _)
  case nil => simp [selfAssignmentsIn]
  case cons =>
    intro s rest first later
    rw [selfAssignmentsIn, List.exists_mem_cons_iff, ← later, ← first]
    simp only [List.mem_append, or_and_right, exists_or]

namespace View

instance (w : View) (a : List Nat) : Decidable (w.Static a) :=
  decidable_of_iff ((w.classAt? a).isSome = true ∧ ∀ b ∈ a.inits, ∀ s ∈ w b, s.isFunction = false) Iff.rfl

theorem staticClass {w : View} {a : List Nat} (static : w.Static a) :
    ∃ name decorators bases body start, w a = some (.classDef name decorators bases body start) := by
  obtain ⟨_, named⟩ := Option.isSome_iff_exists.1 static.1
  obtain ⟨s, here, isClass⟩ := Option.bind_eq_some_iff.1 named
  cases s with
  | classDef name decorators bases body start => exact ⟨name, decorators, bases, body, start, here⟩
  | _ => cases isClass

end View

/-! Fields that are declared. -/

def Source.Parameters.first? (params : Parameters) : Option Parameter := (params.positionalOnly ++ params.regular).head?

/-- Whether a decorator makes an accessor, a setter or a deleter of a function. -/
def redefined (decorators : List Expr) : Bool :=
  let names := decorators.map decoratorName
  (names.any fun n => propertyDecorators.contains (leaf n)) || names.any (·.endsWith ".setter") || names.any (·.endsWith ".deleter")

inductive DeclaresField (x : String) : Stmt → Prop where
  | annotated {id : Identifier} {start : Position} {type : Expr} {value : Option Expr} (named : id.text = x) :
      DeclaresField x (.annAssign (.name id start) type value)
  | assigned {id : Identifier} {start : Position} {targets : List Expr} {value : Expr} (here : .name id start ∈ targets)
      (named : id.text = x) (ordinary : isDunder x = false) : DeclaresField x (.assign targets value)
  | nested {name : Identifier} {decorators bases : List Expr} {body : List Stmt} {start : Position} (named : name.text = x) :
      DeclaresField x (.classDef name decorators bases body start)
  | constructor {name : Identifier} {decorators : List Expr} {params : Parameters} {returns : Option Expr} {body : List Stmt}
      {start : Position} {self : Parameter} {others : List Parameter} {s : Stmt} (named : name.text = "__init__")
      (plain : redefined decorators = false) (first : params.regular = self :: others) (here : s ∈ body)
      (assigns : Assigns self.name x s) : DeclaresField x (.functionDef name decorators params returns body start)

/-- A constructor without decorators that assigns `x` through its first parameter. -/
inductive Initializes (params : Parameters) (x : String) : Stmt → Prop where
  | constructor {name : Identifier} {returns : Option Expr} {body : List Stmt} {start : Position} {self : Parameter} {s : Stmt}
      (named : name.text = "__init__") (first : params.first? = some self) (here : s ∈ body) (assigns : Assigns self.name x s) :
      Initializes params x (.functionDef name [] params returns body start)

theorem initializesDeclares {params : Parameters} {x : String} {t : Stmt} (regular : params.positionalOnly = [])
    (initializes : Initializes params x t) : DeclaresField x t := by
  cases initializes with
  | constructor named first here assigns =>
    rw [Parameters.first?, regular, List.nil_append] at first
    obtain ⟨others, shape⟩ := List.head?_eq_some_iff.1 first
    exact .constructor named rfl shape here assigns

def initialized? (x : String) : Stmt → Option Parameters
  | .functionDef name [] params _ body _ =>
    if name.text = "__init__" ∧ (params.first?.any fun self => (selfAssignmentsIn self.name body).any (·.attr.text == x)) then
      some params
    else none
  | _ => none

theorem initializedSome {params : Parameters} {x : String} {t : Stmt} (found : initialized? x t = some params) :
    Initializes params x t := by
  unfold initialized? at found
  split at found
  · split at found
    · rename_i holds
      cases Option.some.inj found
      obtain ⟨self, first, assigned⟩ := (Option.any_eq_true _ _).1 holds.2
      obtain ⟨a, inside, same⟩ := List.any_eq_true.1 assigned
      obtain ⟨s, here, assigns⟩ := (assignmentsFound self.name x).2 _ |>.1 ⟨a, inside, eq_of_beq same⟩
      exact .constructor holds.1 first here assigns
    · cases found
  · cases found

/-- A field of a name, in the class or a parameter of its constructor. -/
def Declaration.IsField (m : Declaration) (x : String) : Prop := m.name = x ∧ (m.kind = .field ∨ m.kind = .paramAccessor)

theorem fieldKey (m : Declaration) (x : String) : m.IsField x ↔ memberKey m = (x, .field) := by
  unfold Declaration.IsField memberKey
  rw [Prod.mk.injEq]
  refine and_congr_right fun _ => ?_
  by_cases param : m.kind = .paramAccessor
  · simp [param]
  · simp [param]

section
variable {p : Viewpoint} {d : ClassDecl} {charset : CharacterNames}

theorem fieldNamed (name : String) {kind : Kind} (sort : kind = .field ∨ kind = .paramAccessor) (a : QualifiedType) (start : Position)
    (ofInstance : Bool) (x : String) : (fieldDeclaration p d name kind a start ofInstance).IsField x ↔ name = x :=
  ⟨fun isField => isField.1, fun named => ⟨named, sort⟩⟩

theorem annotatedDeclares {target type : Expr} {value : Option Expr} {found : List Declaration}
    (made : attributeFields p d (.annAssign target type value) = .ok found) (x : String) :
    (∃ m ∈ found, m.IsField x) ↔ DeclaresField x (.annAssign target type value) := by
  cases target with
  | name id start =>
    obtain ⟨a, _, made⟩ := bindOk made
    cases Except.ok.inj made
    have sort (param : Bool) : (if param then Kind.paramAccessor else .field) = .field ∨
        (if param then Kind.paramAccessor else .field) = .paramAccessor := by cases param <;> simp
    simp only [List.mem_singleton, exists_eq_left, fieldNamed id.text (sort _)]
    constructor
    · exact .annotated
    · intro declares
      cases declares with
      | annotated named => exact named
  | _ =>
    cases Except.ok.inj made
    constructor
    · simp
    · intro declares
      cases declares

theorem assignedDeclares [CharacterNames] {targets : List Expr} {value : Expr} {found : List Declaration}
    (made : attributeFields p d (.assign targets value) = .ok found) (x : String) :
    (∃ m ∈ found, m.IsField x) ↔ DeclaresField x (.assign targets value) := by
  cases Except.ok.inj made
  constructor
  · intro declared
    obtain ⟨m, inside, isField⟩ := declared
    obtain ⟨target, here, stated⟩ := List.mem_filterMap.1 inside
    split at stated
    · rename_i id start
      split at stated
      · cases stated
      · rename_i ordinary
        cases Option.some.inj stated
        have named := (fieldNamed id.text (.inl rfl) _ start false x).1 isField
        exact .assigned here named (by simpa [named] using ordinary)
    · cases stated
  · intro declares
    cases declares with
    | @assigned id start _ _ here named ordinary =>
      subst named
      refine ⟨fieldDeclaration p d id.text .field { type := p.valueType? value } start false,
        List.mem_filterMap.2 ⟨_, here, ?_⟩, rfl, .inl rfl⟩
      simp [ordinary]

theorem instanceDeclares {params : Parameters} {body : List Stmt} {found : List Declaration}
    (made : instanceFields p d params body = .ok found) (x : String) :
    (∃ m ∈ found, m.IsField x) ↔
      ∃ self others s, params.regular = self :: others ∧ s ∈ body ∧ Assigns self.name x s := by
  unfold instanceFields at made
  cases regular : params.regular with
  | nil =>
    rw [regular] at made
    cases Except.ok.inj made
    simp
  | cons self others =>
    rw [regular] at made
    have each := mapMEach made
    have named {a : SelfAssignment} {m : Declaration} (field : instanceField p d others a = .ok m) :
        m.IsField x ↔ a.attr.text = x := by
      obtain ⟨q, _, field⟩ := bindOk field
      cases Except.ok.inj field
      exact fieldNamed a.attr.text (.inl rfl) _ _ _ x
    have assigned : (∃ m ∈ found, m.IsField x) ↔ ∃ a ∈ selfAssignmentsIn self.name body, a.attr.text = x := by
      constructor
      · intro declared
        obtain ⟨m, inside, isField⟩ := declared
        obtain ⟨a, here, field⟩ := relatedRight each m inside
        exact ⟨a, here, (named field).1 isField⟩
      · intro assigned
        obtain ⟨a, here, same⟩ := assigned
        obtain ⟨m, inside, field⟩ := relatedRight each.flip a here
        exact ⟨m, inside, (named field).2 same⟩
    rw [assigned, (assignmentsFound self.name x).2]
    constructor
    · intro found
      obtain ⟨s, here, assigns⟩ := found
      exact ⟨self, others, s, rfl, here, assigns⟩
    · intro found
      obtain ⟨_, _, s, same, here, assigns⟩ := found
      cases same
      exact ⟨s, here, assigns⟩

theorem redefinedMember {name : Identifier} {decorators : List Expr} {params : Parameters} {returns : Option Expr}
    {body : List Stmt} {start : Position} {found : List Declaration} (special : redefined decorators = true)
    (made : functionMembers p d name decorators params returns body start = .ok found) (x : String) :
    ¬ ∃ m ∈ found, m.IsField x := by
  have single {m : Declaration} (noField : m.kind ≠ .field ∧ m.kind ≠ .paramAccessor) : ¬ ∃ n ∈ [m], n.IsField x := by
    simp [Declaration.IsField, noField]
  unfold functionMembers at made
  simp only at made
  split at made
  · cases returns with
    | none =>
      cases Except.ok.inj made
      exact single (by simp)
    | some e =>
      obtain ⟨a, _, made⟩ := bindOk made
      cases Except.ok.inj made
      exact single (by simp)
  · rename_i noAccessor
    split at made
    · cases Except.ok.inj made
      exact single (by simp)
    · rename_i noSetter
      split at made
      · cases Except.ok.inj made
        exact single (by simp)
      · rename_i noDeleter
        rw [redefined, Bool.eq_false_iff.2 noAccessor, Bool.eq_false_iff.2 noSetter, Bool.eq_false_iff.2 noDeleter] at special
        cases special

theorem plainMembers {decorators : List Expr} (plain : redefined decorators = false) (name : Identifier) (params : Parameters)
    (returns : Option Expr) (body : List Stmt) (start : Position) :
    functionMembers p d name decorators params returns body start =
      if name.text = "__init__" then
        (instanceFields p d params body).map (functionDeclaration p name decorators start .method :: ·)
      else .ok [functionDeclaration p name decorators start .method] := by
  simp only [redefined, Bool.or_eq_false_iff] at plain
  unfold functionMembers
  simp only [plain.1.1, plain.1.2, plain.2, Bool.false_eq_true, if_false]
  split
  · cases instanceFields p d params body <;> rfl
  · rfl

theorem functionDeclares {name : Identifier} {decorators : List Expr} {params : Parameters} {returns : Option Expr}
    {body : List Stmt} {start : Position} {found : List Declaration}
    (made : functionMembers p d name decorators params returns body start = .ok found) (x : String) :
    (∃ m ∈ found, m.IsField x) ↔ DeclaresField x (.functionDef name decorators params returns body start) := by
  have method : ¬ (functionDeclaration p name decorators start .method).IsField x := by
    simp [Declaration.IsField, functionDeclaration]
  cases special : redefined decorators with
  | true =>
    refine iff_of_false (redefinedMember special made x) fun declares => ?_
    cases declares with
    | constructor _ plain => rw [special] at plain; cases plain
  | false =>
    rw [plainMembers special] at made
    split at made
    · rename_i named
      cases fields : instanceFields p d params body with
      | error e => rw [fields] at made; cases made
      | ok assigned =>
        rw [fields] at made
        cases Except.ok.inj made
        rw [List.exists_mem_cons_iff, or_iff_right method, instanceDeclares fields]
        constructor
        · intro initialized
          obtain ⟨self, others, s, first, here, assigns⟩ := initialized
          exact .constructor named special first here assigns
        · intro declares
          cases declares with
          | constructor _ _ first here assigns => exact ⟨_, _, _, first, here, assigns⟩
    · rename_i other
      cases Except.ok.inj made
      refine iff_of_false (by simpa using method) fun declares => ?_
      cases declares with
      | constructor named => exact absurd named other

theorem statementDeclares {s : Stmt} {found : List Declaration} (made : statementMembers p d s = .ok found) (x : String) :
    (∃ m ∈ found, m.IsField x) ↔ DeclaresField x s := by
  cases s with
  | assign targets value => exact assignedDeclares made x
  | annAssign target type value => exact annotatedDeclares made x
  | functionDef name decorators params returns body start => exact functionDeclares made x
  | classDef name decorators bases body start =>
    cases Except.ok.inj made
    constructor
    · intro declared
      obtain ⟨m, inside, isField⟩ := declared
      rw [List.mem_singleton.1 inside] at isField
      exact .nested isField.1
    · intro declares
      cases declares with
      | nested named => exact ⟨_, List.mem_singleton_self _, named, .inl rfl⟩
  | _ =>
    cases Except.ok.inj made
    constructor
    · simp
    · intro declares
      cases declares

/-! Members that are kept. -/

theorem addMemberKeys (members : List Declaration) (m : Declaration) (k : String × Kind) :
    (∃ n ∈ addMember members m, memberKey n = k) ↔ (∃ n ∈ members, memberKey n = k) ∨ memberKey m = k := by
  unfold addMember
  split
  · rename_i taken
    refine (or_iff_left_of_imp fun same => ?_).symm
    obtain ⟨n, here, like⟩ := List.any_eq_true.1 taken
    exact ⟨n, here, (of_decide_eq_true like).trans same⟩
  · have numbered : memberKey { m with serial := members.length } = memberKey m := rfl
    simp only [List.mem_append, List.mem_singleton, or_and_right, exists_or, exists_eq_left, numbered]

theorem addAllKeys (found members : List Declaration) (k : String × Kind) :
    (∃ n ∈ found.foldl addMember members, memberKey n = k) ↔
      (∃ n ∈ members, memberKey n = k) ∨ ∃ n ∈ found, memberKey n = k := by
  induction found generalizing members with
  | nil => simp
  | cons m found ih => rw [List.foldl_cons, ih, addMemberKeys, or_assoc, List.exists_mem_cons_iff]

theorem elaborateFields {e : ClassEntry} (made : elaborateClass p d = .ok e) (x : String) :
    (∃ m ∈ e.members, m.IsField x) ↔ ∃ s ∈ d.body, DeclaresField x s := by
  unfold elaborateClass at made
  obtain ⟨found, declared, made⟩ := bindOk made
  obtain ⟨parents, _, made⟩ := bindOk made
  cases Except.ok.inj made
  have kept : (∃ m ∈ (found.flatten.foldl addMember []).map d.symbol.inside, m.IsField x) ↔ ∃ m ∈ found.flatten, m.IsField x := by
    have inside (m : Declaration) : (d.symbol.inside m).IsField x ↔ m.IsField x := Iff.rfl
    have keys := addAllKeys found.flatten [] (x, .field)
    simp only [← fieldKey, List.not_mem_nil, false_and, exists_false, false_or] at keys
    simpa only [List.mem_map, exists_exists_and_eq_and, inside] using keys
  rw [kept]
  constructor
  · intro listed
    obtain ⟨m, inside, isField⟩ := listed
    obtain ⟨s, here, members, stated, member⟩ := (mapMFlatten declared m).1 inside
    exact ⟨s, here, (statementDeclares stated x).1 ⟨m, member, isField⟩⟩
  · intro declares
    obtain ⟨s, here, declares⟩ := declares
    obtain ⟨members, stated⟩ := mapMDone declared s here
    obtain ⟨m, member, isField⟩ := (statementDeclares stated x).2 declares
    exact ⟨m, (mapMFlatten declared m).2 ⟨s, here, members, stated, member⟩, isField⟩

/-! Nested classes. -/

/-- A class statement stands directly in a body, and no statement before it declares a field of its name. -/
inductive StoredIn (x : String) : List Stmt → Prop where
  | here {s : Stmt} {rest : List Stmt} (named : s.className? = some x) : StoredIn x (s :: rest)
  | later {s : Stmt} {rest : List Stmt} (free : ¬ DeclaresField x s) (stored : StoredIn x rest) : StoredIn x (s :: rest)

/-- The same, told by the members of the statements before. -/
def storedIn? [CharacterNames] (p : Viewpoint) (d : ClassDecl) (x : String) : List Stmt → Bool
  | [] => false
  | s :: rest => s.className? = some x ||
      ((statementMembers p d s).toOption.any fun found => found.all fun m => memberKey m ≠ (x, .field)) && storedIn? p d x rest

theorem storedInSeen {x : String} {body : List Stmt} (seen : storedIn? p d x body = true) : StoredIn x body := by
  induction body with
  | nil => cases seen
  | cons s rest ih =>
    simp only [storedIn?, Bool.or_eq_true, Bool.and_eq_true, decide_eq_true_eq, Option.any_eq_true, List.all_eq_true] at seen
    rcases seen with named | ⟨⟨found, made, free⟩, later⟩
    · exact .here named
    · refine .later ?_ (ih later)
      have made : statementMembers p d s = .ok found := by
        cases stated : statementMembers p d s with
        | error e => rw [stated] at made; cases made
        | ok members => rw [stated] at made; exact congrArg _ (Option.some.inj made)
      rw [← statementDeclares made x]
      intro declares
      obtain ⟨m, inside, isField⟩ := declares
      exact free m inside ((fieldKey m x).1 isField)

theorem addAllKept {members : List Declaration} {m : Declaration} (here : m ∈ members) (found : List Declaration) :
    m ∈ found.foldl addMember members := by
  induction found generalizing members with
  | nil => exact here
  | cons n found ih =>
    apply ih
    unfold addMember
    split
    · exact here
    · exact List.mem_append_left _ here

theorem storedAdded {x : String} {body : List Stmt} (stored : StoredIn x body) {found : List (List Declaration)}
    (made : body.mapM (statementMembers p d) = .ok found) {members : List Declaration} (free : ¬ ∃ m ∈ members, m.IsField x) :
    ∃ m ∈ found.flatten.foldl addMember members, m.kind = .field ∧ m.mutable = false ∧
      m.declaredType = some (.named (d.symbol.qualifiedName ++ "." ++ x)) := by
  induction stored generalizing found members with
  | @here s rest named =>
    rw [List.mapM_cons] at made
    obtain ⟨first, stated, made⟩ := bindOk made
    obtain ⟨others, _, made⟩ := bindOk made
    cases Except.ok.inj made
    cases s with
    | classDef name decorators bases body start =>
      cases Option.some.inj named
      cases Except.ok.inj stated
      have fresh : (members.any fun m => memberKey m = memberKey (nestedClassField p d name start)) = false := by
        rw [List.any_eq_false]
        intro m inside like
        exact free ⟨m, inside, (fieldKey m _).2 (of_decide_eq_true like)⟩
      rw [List.flatten_cons, List.singleton_append, List.foldl_cons, addMember, fresh]
      exact ⟨_, addAllKept (List.mem_append_right _ (List.mem_singleton_self _)) _, rfl, rfl, rfl⟩
    | _ => cases named
  | @later s rest undeclared _ ih =>
    rw [List.mapM_cons] at made
    obtain ⟨first, stated, made⟩ := bindOk made
    obtain ⟨others, remaining, made⟩ := bindOk made
    cases Except.ok.inj made
    rw [List.flatten_cons, List.foldl_append]
    -- the statements before take no field of the name, so it is free still
    apply ih remaining
    have keys := addAllKeys first members (x, .field)
    simp only [← fieldKey] at keys
    rw [keys, statementDeclares stated x]
    exact not_or_intro free undeclared

theorem elaborateStored {e : ClassEntry} (made : elaborateClass p d = .ok e) {x : String} (stored : StoredIn x d.body) :
    ∃ m ∈ e.members, m.kind = .field ∧ m.mutable = false ∧
      m.declaredType = some (.named (d.symbol.qualifiedName ++ "." ++ x)) := by
  unfold elaborateClass at made
  obtain ⟨found, declared, made⟩ := bindOk made
  obtain ⟨parents, _, made⟩ := bindOk made
  cases Except.ok.inj made
  have none : ¬ ∃ m ∈ ([] : List Declaration), m.IsField x := by simp
  obtain ⟨m, inside, field⟩ := storedAdded stored declared none
  exact ⟨d.symbol.inside m, List.mem_map_of_mem inside, field⟩

theorem Graph.namedClasses {g : Graph} {name : String} {c : Symbol} (found : g.lookup name = some c) :
    g.typeClasses (some (.named name)) = [c] := by
  have heads : (TypeRef.named name).heads = [name] := by simp [TypeRef.named, TypeRef.heads]
  rw [typeClasses, classSymbols, heads, List.flatMap_singleton, expandClass found]
  rfl

end

namespace Program

theorem addedSurveyed {s : Settings} {sources : List ModuleSource} {p : Program}
    (added : sources.foldlM addSource (ofSettings s) = .ok p) : ∃ sites, p.Surveyed sites := by
  obtain ⟨ms, rfl, _⟩ := addedModules added
  exact extendAllSurveyed ms ⟨rfl, sitedNil, by simp, by simp [ofSettings]⟩

variable {p : Program} {g : Graph} {sites : List (List Nat × ClassDecl)}

theorem declElaborated [CharacterNames] (surveyed : p.Surveyed sites) (done : p.build.2 = .ok g) {d : ClassDecl}
    (declared : d ∈ p.decls) : ∃ e ∈ g.entries, ∃ v, elaborateClass v d = .ok e := by
  obtain ⟨bs, entries, builds⟩ := buildBuilds done
  obtain ⟨_, m, home, _⟩ := surveyed.named d declared
  obtain ⟨e, listed, made⟩ := relatedRight (mapMEach builds.elaborated).flip d declared
  have found : (p.modules.map registered)[d.module]? = some (registered m) := by simp [home]
  simp only [elaborate, found] at made
  exact ⟨e, (Graph.buildSource builds.built).entries ▸ listed, _, made⟩

theorem classEntered [CharacterNames] (surveyed : p.Surveyed sites) (done : p.build.2 = .ok g) {a : List Nat} {name : Identifier}
    {decorators bases : List Expr} {body : List Stmt} {start : Position}
    (here : p.view a = some (.classDef name decorators bases body start)) (static : p.view.Static a) :
    ∃ e ∈ g.entries, ∃ v d, (a, d) ∈ sites ∧ d.body = body ∧ elaborateClass v d = .ok e := by
  obtain ⟨x, member, rfl⟩ := List.mem_map.1 ((surveyed.sited.exact a).2 static)
  obtain ⟨_, _, _, statement, _⟩ := (surveyed.sited.each x member).statement
  rw [here] at statement
  cases Option.some.inj statement
  obtain ⟨e, listed, v, made⟩ := declElaborated surveyed done (surveyed.decls ▸ List.mem_map_of_mem member)
  exact ⟨e, listed, v, x.2, member, rfl, made⟩

/- The class at an address has the fields that are declared in its body. So a constructor gives it every attribute that is
assigned through the first parameter, unless this one is given only by position. -/
theorem fieldsDeclared [CharacterNames] {s : Settings} {sources : List ModuleSource}
    (added : sources.foldlM addSource (ofSettings s) = .ok p)
    (done : p.build.2 = .ok g) {a : List Nat} {name : Identifier} {decorators bases : List Expr} {body : List Stmt} {start : Position}
    (here : p.view a = some (.classDef name decorators bases body start)) (static : p.view.Static a) :
    ∃ e ∈ g.entries, p.nameAt? a = some e.symbol.qualifiedName ∧
      (∀ x, (∃ m ∈ e.members, m.IsField x) ↔ ∃ t ∈ body, DeclaresField x t) ∧
      ∀ t ∈ body, ∀ params x, Initializes params x t → (∃ m ∈ e.members, m.IsField x) ∨ params.positionalOnly ≠ [] := by
  obtain ⟨sites, surveyed⟩ := addedSurveyed added
  obtain ⟨e, listed, v, d, member, rfl, made⟩ := classEntered surveyed done here static
  have fields := elaborateFields made
  refine ⟨e, listed, ?_, fields, ?_⟩
  · rw [elaborateSymbol made]
    exact surveyedName surveyed member
  · intro t stated params x initializes
    cases positional : params.positionalOnly with
    | cons _ _ => exact .inr (by simp)
    | nil => exact .inl ((fields x).2 ⟨t, stated, initializesDeclares positional initializes⟩)

/-! Constructors of given programs. -/

def constructorsOf (p : Program) (a : List Nat) (x : String) : List Parameters :=
  ((p.view a).map (·.body)).getD [] |>.filterMap (initialized? x)

theorem constructorHeld {a : List Nat} {x : String} {params : Parameters} (held : params ∈ p.constructorsOf a x)
    (static : p.view.Static a) : ∃ name decorators bases body start t, p.view a = some (.classDef name decorators bases body start) ∧
      t ∈ body ∧ Initializes params x t := by
  obtain ⟨name, decorators, bases, body, start, here⟩ := View.staticClass static
  obtain ⟨t, stated, found⟩ := List.mem_filterMap.1 held
  rw [here] at stated
  exact ⟨name, decorators, bases, body, start, t, here, stated, initializedSome found⟩

/- Attributes of `me` in blocks, in a chain of targets and in tuples, and one that is annotated in the class too. -/
def scatteredFields : List ModuleSource :=
  [{ name := "main"
     code := "class A:\n  x: Final[int]\n  def __init__(me, a):\n" ++
       "    for i in a:\n      try:\n        [b, (me.x, *me.y)] = me.z = a\n      finally:\n        me.w: int\n" }]

theorem scatteredFieldsDeclared : ∃ p g e, scatteredFields.foldlM addSource (ofSettings {}) = .ok p ∧ p.build.2 = .ok g ∧
    e ∈ g.entries ∧ e.symbol.qualifiedName = "main.A" ∧ e.members.length = 5 ∧ ∀ x ∈ ["x", "y", "z", "w"], ∃ m ∈ e.members, m.IsField x := by
  obtain ⟨p, g, added, built, seen⟩ := builtFrom scatteredFields (fun p g => decide (p.view.Static [0, 0]) &&
    decide (p.nameAt? [0, 0] = some "main.A") && (["x", "y", "z", "w"].all fun x =>
      (p.constructorsOf [0, 0] x).any (·.positionalOnly.isEmpty)) && g.entries.all fun e => e.members.length == 5) (by decide +kernel)
  simp only [Bool.and_eq_true, decide_eq_true_eq, List.all_eq_true, List.any_eq_true, List.isEmpty_iff, beq_iff_eq] at seen
  obtain ⟨⟨⟨static, named⟩, assigned⟩, size⟩ := seen
  obtain ⟨name, decorators, bases, body, start, here⟩ := View.staticClass static
  obtain ⟨e, listed, same, _, fields⟩ := fieldsDeclared added built here static
  refine ⟨p, g, e, added, built, listed, Option.some.inj (same.symm.trans named), size e listed, ?_⟩
  intro x wanted
  obtain ⟨params, held, regular⟩ := assigned x wanted
  obtain ⟨_, _, _, _, _, t, again, stated, initializes⟩ := constructorHeld held static
  rw [here] at again
  cases Option.some.inj again
  exact (fields t stated params x initializes).resolve_right fun positional => positional regular

def positionalSelf : List ModuleSource :=
  [{ name := "main", code := "class A:\n    def __init__(self, /):\n        self.x = []\n\na = A()\n" }]

/- The instance is given only by position, so its attribute is no field, and the check passes over mutable state. -/
theorem positionalSelfMissed : ∃ p g, positionalSelf.foldlM addSource (ofSettings {}) = .ok p ∧ p.build.2 = .ok g ∧
    (∃ a name decorators bases body start t params, p.view a = some (.classDef name decorators bases body start) ∧
      p.view.Static a ∧ t ∈ body ∧ Initializes params "x" t) ∧
    (∀ e ∈ g.entries, ¬ ∃ m ∈ e.members, m.IsField "x") ∧ (g.check {}).map (·.result.success) = .ok true := by
  obtain ⟨p, g, added, built, seen⟩ := builtFrom positionalSelf (fun p g => decide (p.view.Static [0, 0]) &&
    !(p.constructorsOf [0, 0] "x").isEmpty && (g.entries.all fun e => e.members.all fun m => m.name != "x") &&
      decide ((g.check {}).map (·.result.success) = .ok true)) (by decide +kernel)
  simp only [Bool.and_eq_true, decide_eq_true_eq, List.all_eq_true, Bool.not_eq_true', List.isEmpty_eq_false_iff, bne_iff_ne] at seen
  obtain ⟨⟨⟨static, assigned⟩, missing⟩, passes⟩ := seen
  obtain ⟨params, held⟩ := List.exists_mem_of_ne_nil _ assigned
  obtain ⟨name, decorators, bases, body, start, t, here, stated, initializes⟩ := constructorHeld held static
  refine ⟨p, g, added, built, ⟨[0, 0], name, decorators, bases, body, start, t, params, here, static, stated, initializes⟩, ?_, passes⟩
  intro e listed found
  obtain ⟨m, member, isField⟩ := found
  exact missing e listed m member isField.1

/-! Owners of nested classes. -/

theorem ownerDeclared (surveyed : p.Surveyed sites) {d : ClassDecl} (declared : d ∈ p.decls) {owner : Symbol}
    (owned : d.symbol.owner? = some owner) : ∃ e ∈ p.decls, e.symbol = owner := by
  rw [← surveyed.decls] at declared ⊢
  obtain ⟨x, member, rfl⟩ := List.mem_map.1 declared
  have site := surveyed.sited.each x member
  cases near : p.view.enclosing? x.1 with
  | none =>
    rw [site.outermost near] at owned
    cases owned
  | some b =>
    obtain ⟨e, known, outer⟩ := site.nested b near
    exact ⟨e, List.mem_map_of_mem known, Option.some.inj (outer.symm.trans owned)⟩

/- A nested class is behind a field of the class that owns it, unless its statement stands in a block there or its name is taken by a
field that is declared before. -/
theorem nestedClassesStored [CharacterNames] {s : Settings} {sources : List ModuleSource}
    (added : sources.foldlM addSource (ofSettings s) = .ok p)
    (done : p.build.2 = .ok g) {c : ClassEntry} (listed : c ∈ g.entries) {owner : Symbol} (owned : c.symbol.owner? = some owner) :
    ∃ o ∈ g.entries, o.symbol = owner ∧ ∃ d ∈ p.decls, d.symbol = owner ∧
      (StoredIn c.symbol.name d.body →
        ∃ m ∈ o.members, m.kind = .field ∧ m.mutable = false ∧ g.typeClasses m.declaredType = [c.symbol]) := by
  obtain ⟨sites, surveyed⟩ := addedSurveyed added
  obtain ⟨bs, entries, builds⟩ := buildBuilds done
  have symbol : c.symbol ∈ p.decls.map (·.symbol) := (buildsDecls builds).1 ▸ List.mem_map_of_mem listed
  obtain ⟨b, declared, same⟩ := List.mem_map.1 symbol
  obtain ⟨d, outer, rfl⟩ := ownerDeclared surveyed declared (same ▸ owned)
  obtain ⟨o, known, v, made⟩ := declElaborated surveyed done outer
  refine ⟨o, known, elaborateSymbol made, d, outer, rfl, ?_⟩
  intro stored
  obtain ⟨m, inside, field, fixed, typed⟩ := elaborateStored made stored
  refine ⟨m, inside, field, fixed, ?_⟩
  rw [typed, ← (Symbol.ownerName owned).2]
  exact Graph.namedClasses (Graph.lookupFound (Graph.buildSource builds.built).names listed)

def nestedDeep : List ModuleSource :=
  [{ name := "main"
     code := "class O:\n  def __init__(self):\n    self.x = 0\n  class C:\n    y: Final[int]\n    class D:\n      items = []\n" ++
       "  C: Final[int]\n" }]

theorem nestedDeepStored : ∃ p g, nestedDeep.foldlM addSource (ofSettings {}) = .ok p ∧ p.build.2 = .ok g ∧
    g.entries.map (·.symbol.owner?.map (·.qualifiedName)) = [none, some "main.O", some "main.O.C"] ∧
    ∀ c ∈ g.entries, ∀ owner, c.symbol.owner? = some owner → ∃ o ∈ g.entries, o.symbol = owner ∧
      ∃ m ∈ o.members, m.kind = .field ∧ m.mutable = false ∧ g.typeClasses m.declaredType = [c.symbol] := by
  obtain ⟨p, g, added, built, seen⟩ := builtFrom nestedDeep (fun p g =>
    decide (g.entries.map (·.symbol.owner?.map (·.qualifiedName)) = [none, some "main.O", some "main.O.C"]) &&
    g.entries.all fun c => p.decls.all fun d => c.symbol.owner? ≠ some d.symbol ||
      p.modules.any fun m => storedIn? ⟨p.vocabulary, m, []⟩ d c.symbol.name d.body) (by decide +kernel)
  simp only [Bool.and_eq_true, decide_eq_true_eq, List.all_eq_true, Bool.or_eq_true, List.any_eq_true] at seen
  refine ⟨p, g, added, built, seen.1, ?_⟩
  intro c listed owner owned
  obtain ⟨o, known, same, d, declared, rfl, stored⟩ := nestedClassesStored added built listed owned
  obtain ⟨m, _, held⟩ := (seen.2 c listed d declared).resolve_left (absurd owned)
  exact ⟨o, known, same, stored (storedInSeen held)⟩

/-- A class is behind no member of its owner, and the check of the program passes over what is found in a check of the class. -/
def HidesNested [CharacterNames] (sources : List ModuleSource) : Prop :=
  ∃ p g, sources.foldlM addSource (ofSettings {}) = .ok p ∧ p.build.2 = .ok g ∧
    (∃ c ∈ g.entries, ∃ o ∈ g.entries, c.symbol.owner? = some o.symbol ∧ (∀ m ∈ o.members, g.typeClasses m.declaredType ≠ [c.symbol]) ∧
      (g.checkFrom {} [c.symbol]).map (·.result.success) = .ok false) ∧
    (g.check {}).map (·.result.success) = .ok true

theorem hidesNested [CharacterNames] {sources : List ModuleSource}
    (seen : ((sources.foldlM addSource (ofSettings {})).toOption.any fun p =>
      p.build.2.toOption.any fun g => (g.entries.any fun c => g.entries.any fun o => c.symbol.owner? = some o.symbol &&
        (o.members.all fun m => g.typeClasses m.declaredType ≠ [c.symbol]) &&
          decide ((g.checkFrom {} [c.symbol]).map (·.result.success) = .ok false)) &&
        decide ((g.check {}).map (·.result.success) = .ok true)) = true) : HidesNested sources := by
  obtain ⟨p, g, added, built, seen⟩ := builtFrom sources _ seen
  simp only [Bool.and_eq_true, decide_eq_true_eq, List.all_eq_true, List.any_eq_true] at seen
  obtain ⟨⟨c, listed, o, known, ⟨owned, apart⟩, exposed⟩, passes⟩ := seen
  exact ⟨p, g, added, built, ⟨c, listed, o, known, owned, apart, exposed⟩, passes⟩

def blockedClass : List ModuleSource :=
  [{ name := "main", code := "class O:\n    if True:\n        class C:\n            items = []\n\no = O()\n" }]

def maskedClass : List ModuleSource :=
  [{ name := "main", code := "class O:\n    C: Final[int]\n    class C:\n        items = []\n\no = O()\n" }]

/- One class stands in a block, and the name of the other is taken. -/
theorem nestedClassMissed : HidesNested blockedClass ∧ HidesNested maskedClass := by
  constructor
  · exact hidesNested (by decide +kernel)
  · exact hidesNested (by decide +kernel)

end Program
end SharedState
