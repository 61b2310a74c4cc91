import SharedState.Program.Build
import SharedState.Proofs.Attempts
import SharedState.Proofs.Bindings
import SharedState.Proofs.ModuleNames

/-! What the top level of modules binds. Each module adds bindings of its own, whatever the modules before it have bound, and
aliases of different modules have different names. -/
namespace SharedState

open SharedState.Source SharedState.Text

namespace Program

inductive Binding where
  | aliased (name : String) (type : TypeRef)
  | owner (called : String)

namespace Binding

def aliased? : Binding → Option (String × TypeRef)
  | aliased name type => some (name, type)
  | owner _ => none

end Binding

def apply (p : Program) (t : TopLevel) : Binding → TopLevel
  | .aliased name type => t.addAlias name type
  | .owner called => t.addOwner (p.classNamed? called)

def valueBindings (m : Module) (targets : List Expr) (value : Expr) : List Binding :=
  match value with
  | .call func _ => [.owner (m.resolve [] func.fullName)]
  | _ =>
    if isDotted value then
      (targets.filterMap targetName?).filterMap fun id =>
        if m.resolve [] value.fullName = m.name ++ "." ++ id then none
        else some (.aliased (m.name ++ "." ++ id) (.named (m.resolve [] value.fullName)))
    else []

/-- What a statement at the top level of a module binds. -/
def statementBindings [CharacterNames] (v : Vocabulary) (m : Module) (s : Stmt) : TypeReader.Reading (List Binding) :=
  match s with
  | .annAssign target _ (some value) =>
    if declaresAlias m s then do
      let a ← (Viewpoint.mk v m []).reader.convert value
      match a.type, targetName? target with
      | some type, some id => return [.aliased (m.name ++ "." ++ id) type]
      | _, _ => return []
    else .ok (valueBindings m [target] value)
  | .assign targets value => .ok (valueBindings m targets value)
  | _ => .ok []

variable {p : Program} {m : Module}

theorem aliasesApply (p : Program) (m : Module) (t : TopLevel) (target : String) (ids : List String) :
    ids.foldl (fun t id =>
        if target = m.name ++ "." ++ id then t else t.addAlias (m.name ++ "." ++ id) (.named target)) t =
      (ids.filterMap fun id =>
        if target = m.name ++ "." ++ id then none
        else some (Binding.aliased (m.name ++ "." ++ id) (.named target))).foldl p.apply t := by
  rw [List.foldl_filterMap]
  refine List.foldl_ext _ _ _ fun t id _ => ?_
  by_cases self : target = m.name ++ "." ++ id
  · rw [if_pos self, if_pos self]
  · rw [if_neg self, if_neg self]
    rfl

theorem bindValueApplies (p : Program) (m : Module) (t : TopLevel) (targets : List Expr) (value : Expr) :
    p.bindValue m t targets value = (valueBindings m targets value).foldl p.apply t := by
  cases value with
  | name => exact aliasesApply p m t _ _
  | constant => exact aliasesApply p m t _ _
  | access => exact aliasesApply p m t _ _
  | _ => rfl

variable {charset : CharacterNames}

theorem bindStatementApplies (p : Program) (m : Module) (t : TopLevel) (s : Stmt) :
    p.bindStatement m t s = (statementBindings p.vocabulary m s).map fun bs => bs.foldl p.apply t := by
  cases s with
  | annAssign target type value =>
    cases value with
    | none => rfl
    | some value =>
      simp only [bindStatement, statementBindings]
      split
      · simp only [viewpoint]
        cases (Viewpoint.mk p.vocabulary m []).reader.convert value with
        | error e => rfl
        | ok a =>
          simp only [bind, Except.bind]
          cases a.type <;> cases targetName? target <;> rfl
      · exact congrArg Except.ok (bindValueApplies p m t _ _)
  | assign targets value => exact congrArg Except.ok (bindValueApplies p m t _ _)
  | _ => rfl

theorem foldlMCollects {ε α β γ : Type} {step : γ → α → Except ε γ} {f : α → Except ε (List β)} {g : γ → β → γ}
    (each : ∀ c a, step c a = (f a).map fun bs => bs.foldl g c) (xs : List α) (c : γ) :
    xs.foldlM step c = (xs.mapM f).map fun bs => bs.flatten.foldl g c := by
  rw [foldlMLater each]
  simp only [List.foldl_flatten]

def registered (m : Module) : Module := m.body.foldl registerAliases m

theorem registerRest (body : List Stmt) (m : Module) :
    body.foldl registerAliases m = { m with aliases := (body.foldl registerAliases m).aliases } := by
  induction body generalizing m with
  | nil => rfl
  | cons s body ih =>
    rw [List.foldl_cons]
    conv_lhs => rw [ih]
    rfl

theorem registeredRest (m : Module) : registered m = { m with aliases := (registered m).aliases } := registerRest m.body m

theorem registeredBody (m : Module) : (registered m).body = m.body := by rw [registeredRest]

def moduleBindings [CharacterNames] (v : Vocabulary) (m : Module) : TypeReader.Reading (List Binding) :=
  (m.body.mapM (statementBindings v (registered m))).map List.flatten

theorem bindModuleApplies (p : Program) (m : Module) (t : TopLevel) :
    p.bindModule m t = (registered m, (moduleBindings p.vocabulary m).map fun bs => bs.foldl p.apply t) := by
  unfold bindModule moduleBindings
  change (registered m, (registered m).body.foldlM (p.bindStatement (registered m)) t) = _
  rw [foldlMCollects (bindStatementApplies p (registered m)), registeredBody]
  cases m.body.mapM (statementBindings p.vocabulary (registered m)) <;> rfl

theorem bindModulesApply [CharacterNames] (p : Program) (ms : List Module) (t : TopLevel) :
    (p.bindModules ms t).2 = (ms.mapM (moduleBindings p.vocabulary)).map fun bs => bs.flatten.foldl p.apply t := by
  induction ms generalizing t with
  | nil => rfl
  | cons m ms ih =>
    rw [bindModules, bindModuleApplies, List.mapM_cons]
    cases moduleBindings p.vocabulary m with
    | error e => rfl
    | ok bs =>
      change (p.bindModules ms (bs.foldl p.apply t)).2 = _
      rw [ih]
      cases ms.mapM (moduleBindings p.vocabulary) with
      | error e => rfl
      | ok rest => simp [Except.map, bind, Except.bind, pure, Except.pure]

theorem bindModulesRegister {ms : List Module} {t u : TopLevel} (done : (p.bindModules ms t).2 = .ok u) :
    (p.bindModules ms t).1 = ms.map registered := by
  induction ms generalizing t with
  | nil => rfl
  | cons m ms ih =>
    rw [bindModules, bindModuleApplies] at done ⊢
    cases bound : moduleBindings p.vocabulary m with
    | error e =>
      rw [bound] at done
      cases done
    | ok bs =>
      rw [bound] at done
      exact congrArg (registered m :: ·) (ih done)

/-! Aliases. -/

theorem applyAliases (p : Program) (bs : List Binding) (t : TopLevel) :
    (bs.foldl p.apply t).aliases = (bs.filterMap Binding.aliased?).foldl (fun table a => bindKey a.1 a.2 table) t.aliases := by
  induction bs generalizing t with
  | nil => rfl
  | cons b bs ih =>
    rw [List.foldl_cons, ih]
    cases b with
    | aliased name type => rfl
    | owner called =>
      simp only [apply, TopLevel.addOwner]
      cases p.classNamed? called with
      | none => rfl
      | some s =>
        simp only
        split <;> rfl

/-- What an alias of a module stands for: a name, or what an annotation says. -/
inductive Aliased [CharacterNames] (v : Vocabulary) (m : Module) : String → TypeRef → Prop where
  | name {id : String} (plain : PlainWord id) (target : String) : Aliased v m (m.name ++ "." ++ id) (.named target)
  | written {id : String} (plain : PlainWord id) {e : Expr} {a : QualifiedType} {type : TypeRef}
      (read : (Viewpoint.mk v m []).reader.convert e = .ok a) (typed : a.type = some type) : Aliased v m (m.name ++ "." ++ id) type

theorem valueAliased (v : Vocabulary) {targets : List Expr} {value : Expr} {name : String} {type : TypeRef}
    (bound : .aliased name type ∈ valueBindings m targets value) : Aliased v m name type := by
  unfold valueBindings at bound
  split at bound
  · simp at bound
  · split at bound
    · obtain ⟨id, member, made⟩ := List.mem_filterMap.1 bound
      obtain ⟨target, _, named⟩ := List.mem_filterMap.1 member
      split at made
      · cases made
      · cases Option.some.inj made
        exact .name (targetPlain named) _
    · cases bound

theorem statementAliased {v : Vocabulary} {s : Stmt} {bs : List Binding} (made : statementBindings v m s = .ok bs) {name : String}
    {type : TypeRef} (bound : .aliased name type ∈ bs) : Aliased v m name type := by
  unfold statementBindings at made
  split at made
  · split at made
    · obtain ⟨a, read, made⟩ := bindOk made
      split at made
      · rename_i typed named
        cases Except.ok.inj made
        cases List.mem_singleton.1 bound
        exact .written (targetPlain named) read typed
      · cases Except.ok.inj made
        cases bound
    · cases Except.ok.inj made
      exact valueAliased v bound
  · cases Except.ok.inj made
    exact valueAliased v bound
  · cases Except.ok.inj made
    cases bound

theorem moduleAliased {v : Vocabulary} {bs : List Binding} (made : moduleBindings v m = .ok bs) {name : String} {type : TypeRef}
    (bound : .aliased name type ∈ bs) : Aliased v (registered m) name type := by
  unfold moduleBindings at made
  cases collected : m.body.mapM (statementBindings v (registered m)) with
  | error e => rw [collected] at made; cases made
  | ok found =>
    rw [collected] at made
    cases Except.ok.inj made
    obtain ⟨some, inside, here⟩ := List.mem_flatten.1 bound
    obtain ⟨s, _, stated⟩ := relatedRight (mapMEach collected) some inside
    exact statementAliased stated here

theorem homeUnique {a b c d : String} (plain : PlainWord b) (plain' : PlainWord d) (same : a ++ "." ++ b = c ++ "." ++ d) :
    a = c := by
  have chars : a.toList ++ '.' :: b.toList = c.toList ++ '.' :: d.toList := by
    simpa using congrArg String.toList same
  rcases List.append_eq_append_iff.1 chars with ⟨rest, left, right⟩ | ⟨rest, left, right⟩
  · cases rest with
    | nil => exact String.toList_inj.1 (by simpa using left.symm)
    | cons x rest =>
      have later : b.toList = rest ++ '.' :: d.toList := by simpa using (List.cons.inj right).2
      exact absurd (later ▸ by simp) (noDot plain.1)
  · cases rest with
    | nil => exact String.toList_inj.1 (by simpa using left)
    | cons x rest =>
      have later : d.toList = rest ++ '.' :: b.toList := by simpa using (List.cons.inj right).2
      exact absurd (later ▸ by simp) (noDot plain'.1)

/- What is kept of the parts of a list comes from one part only, so the order of the parts does not show. -/
theorem filterAnyOrder {α β : Type} {f : α → List β} {kept : β → Bool} {xs xs' : List α} (order : xs.Perm xs')
    (one : ∀ x ∈ xs, ∀ y ∈ xs, (∃ b ∈ f x, kept b = true) → (∃ b ∈ f y, kept b = true) → x = y) :
    (xs.flatMap f).filter kept = (xs'.flatMap f).filter kept := by
  induction order with
  | nil => rfl
  | cons x _ ih =>
    rw [List.flatMap_cons, List.flatMap_cons, List.filter_append, List.filter_append,
      ih fun y here z there => one y (by simp [here]) z (by simp [there])]
  | swap x y xs =>
    simp only [List.flatMap_cons, List.filter_append, ← List.append_assoc]
    congr 1
    by_cases first : ∃ b ∈ f x, kept b = true
    · by_cases second : ∃ b ∈ f y, kept b = true
      · rw [one x (by simp) y (by simp) first second]
      · have none : (f y).filter kept = [] := by simpa using second
        simp [none]
    · have none : (f x).filter kept = [] := by simpa using first
      simp [none]
  | trans left _ ih ih' =>
    exact (ih one).trans (ih' fun y here z there => one y (left.mem_iff.2 here) z (left.mem_iff.2 there))

/-- The aliases that a module binds, in order; none if it cannot be read. -/
def ownAliases [CharacterNames] (v : Vocabulary) (m : Module) : List (String × TypeRef) :=
  ((moduleBindings v m).toOption.getD []).filterMap Binding.aliased?

theorem ownAliased {v : Vocabulary} {a : String × TypeRef} (bound : a ∈ ownAliases v m) : Aliased v (registered m) a.1 a.2 := by
  unfold ownAliases at bound
  cases made : moduleBindings v m with
  | error e => rw [made] at bound; cases bound
  | ok bs =>
    rw [made] at bound
    obtain ⟨b, inside, named⟩ := List.mem_filterMap.1 bound
    cases b with
    | aliased name type =>
      cases Option.some.inj named
      exact moduleAliased made inside
    | owner called => cases named

theorem ownHome {v : Vocabulary} {a : String × TypeRef} (bound : a ∈ ownAliases v m) :
    ∃ id, PlainWord id ∧ a.1 = m.name ++ "." ++ id := by
  have name : (registered m).name = m.name := by rw [registeredRest]
  have aliased := ownAliased bound
  rw [← name]
  generalize a.1 = n, a.2 = t at aliased
  cases aliased with
  | name plain => exact ⟨_, plain, rfl⟩
  | written plain => exact ⟨_, plain, rfl⟩

theorem collectedAliases {v : Vocabulary} {ms : List Module} {bs : List (List Binding)}
    (done : ms.mapM (moduleBindings v) = .ok bs) :
    bs.flatten.filterMap Binding.aliased? = ms.flatMap (ownAliases v) := by
  have each : ms.map (ownAliases v) = bs.map (List.filterMap Binding.aliased?) :=
    relatedMap (mapMEach done) fun m _ b made => by rw [ownAliases, made]; rfl
  rw [List.filterMap_flatten, ← each, List.flatMap_def]

/- Where module names are distinct, no alias of one module is an alias of another. -/
theorem aliasesAnyOrder (v : Vocabulary) {ms ms' : List Module} (order : ms.Perm ms') (names : (ms.map (·.name)).Nodup)
    (key : String) :
    valueOf? key ((ms.flatMap (ownAliases v)).foldl (fun table a => bindKey a.1 a.2 table) []) =
      valueOf? key ((ms'.flatMap (ownAliases v)).foldl (fun table a => bindKey a.1 a.2 table) []) := by
  rw [valueOfOwn key _ rfl, valueOfOwn key (ms'.flatMap (ownAliases v)) rfl, filterAnyOrder order]
  intro m here n there ⟨a, inside, own⟩ ⟨b, within, same⟩
  obtain ⟨i, plain, spelled⟩ := ownHome inside
  obtain ⟨j, plain', spelled'⟩ := ownHome within
  refine List.inj_on_of_nodup_map names here there (homeUnique plain plain' ?_)
  rw [← spelled, ← spelled', of_decide_eq_true own, of_decide_eq_true same]

/-! Owners of singletons. -/

theorem addOwnerListed (t : TopLevel) (o : Option Symbol) (s : Symbol) :
    s ∈ (t.addOwner o).owners ↔ s ∈ t.owners ∨ o = some s := by
  cases o with
  | none => simp [TopLevel.addOwner]
  | some r =>
    by_cases old : r ∈ t.owners
    · have same : (t.addOwner (some r)).owners = t.owners := by simp [TopLevel.addOwner, old]
      rw [same, Option.some.injEq]
      constructor
      · exact .inl
      · rintro (here | rfl)
        · exact here
        · exact old
    · simp [TopLevel.addOwner, old, eq_comm]

theorem applyOwners (p : Program) (bs : List Binding) (t : TopLevel) (s : Symbol) :
    s ∈ (bs.foldl p.apply t).owners ↔ s ∈ t.owners ∨ ∃ called, .owner called ∈ bs ∧ p.classNamed? called = some s := by
  induction bs generalizing t with
  | nil => simp
  | cons b bs ih =>
    rw [List.foldl_cons, ih]
    cases b with
    | aliased name type => simp [apply, TopLevel.addAlias]
    | owner called => simp [apply, addOwnerListed, or_assoc, or_and_right, exists_or]

theorem decoratedOwners (p : Program) (t : TopLevel) (s : Symbol) :
    s ∈ (p.addDecorated t).owners ↔ s ∈ t.owners ∨
      ∃ d ∈ p.decls, d.isSingleton p.vocabulary = true ∧ p.classNamed? d.symbol.qualifiedName = some s := by
  have each (decls : List ClassDecl) (t : TopLevel) :
      s ∈ (decls.foldl (fun t d => t.addOwner (p.classNamed? d.symbol.qualifiedName)) t).owners ↔
        s ∈ t.owners ∨ ∃ d ∈ decls, p.classNamed? d.symbol.qualifiedName = some s := by
    induction decls generalizing t with
    | nil => simp
    | cons d decls ih => simp [ih, addOwnerListed, or_assoc]
  rw [addDecorated, each]
  simp [and_assoc]

end Program
end SharedState
