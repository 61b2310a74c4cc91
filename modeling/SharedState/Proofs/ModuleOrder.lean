import SharedState.Proofs.Elaboration
import SharedState.Proofs.TopLevel

/-! The order of modules. Classes are numbered as their modules are added, and that is all that the order of modules decides:
what a module declares and binds it declares and binds wherever it stands. -/
namespace SharedState

open SharedState.Source SharedState.Text

/-- A module as it is added to a program. -/
structure ModuleSource where
  code : String
  name : String
  path : Option String := none
  isPackage : Bool := false

/-! The classes of a module, up to numbers. -/

theorem declareAgrees {v : Vocabulary} {m m' : Module} (name : m.name = m'.name) (path : m.path = m'.path) (i j n k : Nat)
    (scope : List String) {outer outer' : Option Symbol} (around : outer.map (·.unnumbered) = outer'.map (·.unnumbered))
    (id : Identifier) (decorators bases : List Expr) (body : List Stmt) (start : Position) :
    (declareClass v m i n scope outer id decorators bases body start).unnumbered =
      (declareClass v m' j k scope outer' id decorators bases body start).unnumbered := by
  cases outer with
  | none =>
    cases outer' with
    | none => simp [declareClass, ClassDecl.unnumbered, Symbol.unnumbered, Declaration.unnumbered, name, path]
    | some o' => cases around
  | some o =>
    cases outer' with
    | none => cases around
    | some o' =>
      have same : o.unnumbered = o'.unnumbered := Option.some.inj around
      simp only [declareClass, ClassDecl.unnumbered, path]
      congr 1
      exact Symbol.sameInside same rfl

mutual
theorem classesOfAgree {v : Vocabulary} {m m' : Module} (name : m.name = m'.name) (path : m.path = m'.path) :
    (s : Stmt) → ∀ (i j n k : Nat) (scope : List String) (outer outer' : Option Symbol),
      outer.map (·.unnumbered) = outer'.map (·.unnumbered) →
      (classesOf v m i n scope outer s).map (·.unnumbered) = (classesOf v m' j k scope outer' s).map (·.unnumbered)
  | .classDef id decorators bases body start, i, j, n, k, scope, outer, outer', around => by
    have decl := declareAgrees (v := v) name path i j n k scope around id decorators bases body start
    rw [classesOf, classesOf, List.map_cons, List.map_cons, decl]
    refine congrArg _ (classesInAgree name path body _ _ _ _ _ _ _ ?_)
    exact congrArg some (congrArg (·.symbol) decl)
  | .compound body, i, j, n, k, scope, outer, outer', around => by
    rw [classesOf, classesOf]
    exact classesInAgree name path body i j n k scope outer outer' around
  | .assign _ _, _, _, _, _, _, _, _, _ | .annAssign _ _ _, _, _, _, _, _, _, _, _ | .importNames _, _, _, _, _, _, _, _, _
  | .importFrom _ _ _, _, _, _, _, _, _, _, _ | .functionDef _ _ _ _ _ _, _, _, _, _, _, _, _, _
  | .other, _, _, _, _, _, _, _, _ => rfl
theorem classesInAgree {v : Vocabulary} {m m' : Module} (name : m.name = m'.name) (path : m.path = m'.path) :
    (body : List Stmt) → ∀ (i j n k : Nat) (scope : List String) (outer outer' : Option Symbol),
      outer.map (·.unnumbered) = outer'.map (·.unnumbered) →
      (classesIn v m i n scope outer body).map (·.unnumbered) = (classesIn v m' j k scope outer' body).map (·.unnumbered)
  | [], _, _, _, _, _, _, _, _ => rfl
  | s :: rest, i, j, n, k, scope, outer, outer', around => by
    rw [classesIn, classesIn, List.map_append, List.map_append,
      classesOfAgree name path s i j n k scope outer outer' around,
      classesInAgree name path rest i j _ _ scope outer outer' around]
end

mutual
theorem classesOfEach {good : ClassDecl → Prop} {v : Vocabulary} {m : Module} {index : Nat}
    (each : ∀ serial scope outer name decorators bases body start,
      good (declareClass v m index serial scope outer name decorators bases body start)) :
    (s : Stmt) → ∀ (serial : Nat) (scope : List String) (outer : Option Symbol),
      ∀ d ∈ classesOf v m index serial scope outer s, good d
  | .classDef name decorators bases body start, serial, scope, outer => by
    intro d member
    rw [classesOf] at member
    rcases List.mem_cons.1 member with rfl | nested
    · exact each serial scope outer name decorators bases body start
    · exact classesInEach each body _ _ _ d nested
  | .compound body, serial, scope, outer => by
    rw [classesOf]
    exact classesInEach each body serial scope outer
  | .assign _ _, _, _, _ | .annAssign _ _ _, _, _, _ | .importNames _, _, _, _ | .importFrom _ _ _, _, _, _
  | .functionDef _ _ _ _ _ _, _, _, _ | .other, _, _, _ => by simp [classesOf]
/- Every class that is found was declared by a class statement. -/
theorem classesInEach {good : ClassDecl → Prop} {v : Vocabulary} {m : Module} {index : Nat}
    (each : ∀ serial scope outer name decorators bases body start,
      good (declareClass v m index serial scope outer name decorators bases body start)) :
    (body : List Stmt) → ∀ (serial : Nat) (scope : List String) (outer : Option Symbol),
      ∀ d ∈ classesIn v m index serial scope outer body, good d
  | [], _, _, _ => by simp [classesIn]
  | s :: rest, serial, scope, outer => by
    intro d member
    rw [classesIn] at member
    rcases List.mem_append.1 member with first | later
    · exact classesOfEach each s serial scope outer d first
    · exact classesInEach each rest _ scope outer d later
end

theorem classesInModule (v : Vocabulary) (m : Module) (i : Nat) (body : List Stmt) (n : Nat) (scope : List String)
    (outer : Option Symbol) : ∀ d ∈ classesIn v m i n scope outer body, d.module = i :=
  classesInEach (fun _ _ _ _ _ _ _ _ => rfl) body n scope outer

namespace Program

def addSource (p : Program) (s : ModuleSource) : Except ProgramError Program := p.add s.code s.name s.path s.isPackage

def graphOfSources [CharacterNames] (s : Settings) (sources : List ModuleSource) : Except ProgramError Graph := do
  let p ← sources.foldlM addSource (ofSettings s)
  p.build.2

/-- The module of a source by itself. -/
def loaded (v : Vocabulary) (s : ModuleSource) : Except ProgramError (List Module) :=
  (addSource { vocabulary := v } s).map (·.modules)

def extend (p : Program) (m : Module) : Program :=
  { p with
    modules := p.modules ++ [m]
    decls := p.decls ++ classesIn p.vocabulary { m with classes := [] } p.modules.length p.decls.length [] none m.body }

theorem classTableAgrees {found found' : List ClassDecl} (same : found.map (·.unnumbered) = found'.map (·.unnumbered)) :
    found.foldl (fun t d => bindKey (dotted d.scope) d.symbol.qualifiedName t) [] =
      found'.foldl (fun t d => bindKey (dotted d.scope) d.symbol.qualifiedName t) [] := by
  have table (found : List ClassDecl) :
      found.foldl (fun t d => bindKey (dotted d.scope) d.symbol.qualifiedName t) [] =
        (found.map (·.unnumbered)).foldl (fun t d => bindKey (dotted d.scope) d.symbol.qualifiedName t) [] := by
    rw [List.foldl_map]
    simp [ClassDecl.unnumbered]
  rw [table found, same, ← table found']

theorem addLoaded {p : Program} {s : ModuleSource} (fresh : ∀ m ∈ p.modules, m.name ≠ s.name) :
    p.addSource s = (loaded p.vocabulary s).map fun ms => ms.foldl extend p := by
  have new : (p.modules.any fun m => m.name == s.name) = false := by simpa using fresh
  unfold loaded addSource add
  simp only [new, List.any_nil]
  cases parseModule s.code with
  | error e => cases e <;> rfl
  | ok body =>
    have table (m : Module) (i n : Nat) := classTableAgrees
      (classesInAgree (v := p.vocabulary) (m := m) rfl rfl body i 0 n 0 [] none none rfl)
    simp only [Bool.false_eq_true, if_false, Except.map, table]
    rfl

theorem loadedModule {v : Vocabulary} {s : ModuleSource} {ms : List Module} (done : loaded v s = .ok ms) :
    ∃ m, ms = [m] ∧ m.name = s.name ∧ parseModule s.code = .ok m.body ∧ m.aliases = [] := by
  unfold loaded addSource add at done
  simp only [List.any_nil, Bool.false_eq_true, if_false] at done
  cases read : parseModule s.code with
  | error e => rw [read] at done; cases e <;> cases done
  | ok body =>
    rw [read] at done
    cases Except.ok.inj done
    exact ⟨_, rfl, rfl, rfl, rfl⟩

theorem loadedNames {v : Vocabulary} {s : ModuleSource} {ms : List Module} (done : loaded v s = .ok ms) :
    ms.map (·.name) = [s.name] := by
  obtain ⟨m, rfl, name, _⟩ := loadedModule done
  rw [List.map_singleton, name]

theorem loadedAllNames {v : Vocabulary} {sources : List ModuleSource} {ms : List (List Module)}
    (done : sources.mapM (loaded v) = .ok ms) : ms.flatten.map (·.name) = sources.map (·.name) := by
  have each : sources.map (fun s => [s.name]) = ms.map (List.map (·.name)) :=
    relatedMap (mapMEach done) fun s _ m made => (loadedNames made).symm
  rw [List.map_flatten, ← each]
  exact List.map_eq_flatMap.symm

theorem extendAll (ms : List Module) (p : Program) :
    (ms.foldl extend p).vocabulary = p.vocabulary ∧ (ms.foldl extend p).modules = p.modules ++ ms := by
  induction ms generalizing p with
  | nil => simp
  | cons m ms ih => simp [ih, extend]

theorem addAllLoaded (sources : List ModuleSource) (p : Program)
    (distinct : (p.modules.map (·.name) ++ sources.map (·.name)).Nodup) :
    sources.foldlM addSource p = (sources.mapM (loaded p.vocabulary)).map fun ms => ms.flatten.foldl extend p := by
  induction sources generalizing p with
  | nil => rfl
  | cons s sources ih =>
    have fresh : ∀ m ∈ p.modules, m.name ≠ s.name := fun m known =>
      (List.nodup_append.1 distinct).2.2 _ (List.mem_map_of_mem known) _ (by simp)
    rw [List.foldlM_cons, List.mapM_cons, addLoaded fresh]
    cases read : loaded p.vocabulary s with
    | error e => rfl
    | ok ms =>
      obtain ⟨same, modules⟩ := extendAll ms p
      have next : ((ms.foldl extend p).modules.map (·.name) ++ sources.map (·.name)).Nodup := by
        rw [modules, List.map_append, loadedNames read]
        simpa using distinct
      change sources.foldlM addSource (ms.foldl extend p) = _
      rw [ih _ next, same]
      cases sources.mapM (loaded p.vocabulary) with
      | error e => rfl
      | ok rest => simp [Except.map, bind, Except.bind, pure, Except.pure]

/-! Where classes stand. -/

/-- A class without its numbers, beside its module. -/
def place (p : Program) (d : ClassDecl) : Option Module × ClassDecl := (p.modules[d.module]?, d.unnumbered)

def declared (v : Vocabulary) (m : Module) : List (Option Module × ClassDecl) :=
  (classesIn v { m with classes := [] } 0 0 [] none m.body).map fun d => (some m, d.unnumbered)

def Placed (p : Program) : Prop := p.decls.map p.place = p.modules.flatMap (declared p.vocabulary)

theorem extendPlaced {p : Program} (placed : p.Placed) (m : Module) : (extend p m).Placed := by
  have old : p.decls.map (extend p m).place = p.decls.map p.place := by
    refine List.map_congr_left fun d known => ?_
    have inside : p.place d ∈ p.modules.flatMap (declared p.vocabulary) := placed ▸ List.mem_map_of_mem known
    obtain ⟨n, _, here⟩ := List.mem_flatMap.1 inside
    obtain ⟨e, _, same⟩ := List.mem_map.1 here
    have found : p.modules[d.module]? = some n := (congrArg (·.1) same).symm
    have bound := (List.getElem?_eq_some_iff.1 found).1
    simp only [place, extend, List.getElem?_append_left bound]
  have new (n : Nat) : (classesIn p.vocabulary { m with classes := [] } p.modules.length n [] none m.body).map
      (extend p m).place = declared p.vocabulary m := by
    have here : ∀ d ∈ classesIn p.vocabulary { m with classes := [] } p.modules.length n [] none m.body,
        (extend p m).place d = (some m, d.unnumbered) := by
      intro d member
      rw [place, classesInModule _ _ _ _ _ _ _ d member]
      simp [extend]
    have same := classesInAgree (v := p.vocabulary) (m := { m with classes := [] }) rfl rfl m.body p.modules.length 0 n 0 []
      none none rfl
    rw [List.map_congr_left here, declared]
    simpa [Function.comp_def] using congrArg (List.map fun d => (some m, d)) same
  have modules : (extend p m).modules = p.modules ++ [m] := rfl
  have vocabulary : (extend p m).vocabulary = p.vocabulary := rfl
  unfold Placed at placed ⊢
  rw [modules, vocabulary, List.flatMap_append, List.flatMap_singleton, ← placed, ← old, ← new p.decls.length,
    ← List.map_append]
  rfl

theorem extendAllPlaced (ms : List Module) {p : Program} (placed : p.Placed) : (ms.foldl extend p).Placed := by
  induction ms generalizing p with
  | nil => exact placed
  | cons m ms ih => exact ih (extendPlaced placed m)

/-- Two programs of the same modules, added in different orders. -/
structure Shuffled (p p' : Program) : Prop where
  vocabulary : p.vocabulary = p'.vocabulary
  modules : p.modules.Perm p'.modules
  names : (p.modules.map (·.name)).Nodup
  decls : (p.decls.map p.place).Perm (p'.decls.map p'.place)

theorem addShuffled {v : Vocabulary} {sources sources' : List ModuleSource} (order : sources.Perm sources')
    (names : (sources.map (·.name)).Nodup) {p : Program} (added : sources.foldlM addSource { vocabulary := v } = .ok p) :
    ∃ p', sources'.foldlM addSource { vocabulary := v } = .ok p' ∧ Shuffled p p' := by
  have names' : (sources'.map (·.name)).Nodup := (order.map _).nodup names
  rw [addAllLoaded _ _ (by simpa using names)] at added
  rw [addAllLoaded _ _ (by simpa using names')]
  cases read : sources.mapM (loaded v) with
  | error e => rw [read] at added; cases added
  | ok ms =>
    rw [read] at added
    cases Except.ok.inj added
    obtain ⟨ms', read', same⟩ := mapMRearranged id order (fun _ _ => rfl) read
    have permuted : ms.flatten.Perm ms'.flatten := by simpa using (by simpa using same : ms.Perm ms').flatten
    have start : Placed { vocabulary := v } := rfl
    obtain ⟨known, modules⟩ := extendAll ms.flatten { vocabulary := v }
    obtain ⟨known', modules'⟩ := extendAll ms'.flatten { vocabulary := v }
    refine ⟨_, by rw [read']; rfl, by rw [known, known'], ?_, ?_, ?_⟩
    · simpa [modules, modules'] using permuted
    · simpa [modules, loadedAllNames read] using names
    · rw [extendAllPlaced ms.flatten start, extendAllPlaced ms'.flatten start, known, known', modules, modules']
      exact permuted.flatMap_right _

theorem shuffledSymm {p p' : Program} (shuffled : Shuffled p p') : Shuffled p' p :=
  ⟨shuffled.vocabulary.symm, shuffled.modules.symm, (shuffled.modules.map _).nodup shuffled.names, shuffled.decls.symm⟩

theorem shuffledDecls {p p' : Program} (shuffled : Shuffled p p') :
    (p.decls.map (·.unnumbered)).Perm (p'.decls.map (·.unnumbered)) := by
  simpa [Function.comp_def, place] using shuffled.decls.map (·.2)

theorem classNamedSearch (p : Program) (name : String) : (p.classNamed? name).map (·.unnumbered) =
    ((p.decls.map (·.unnumbered)).reverse.find? fun d => d.symbol.qualifiedName == name).map (·.symbol) := by
  rw [← List.map_reverse, List.find?_map, classNamed?]
  simp [Function.comp_def, ClassDecl.unnumbered]

/- Of several classes with one name the last counts, so this needs distinct names. -/
theorem classNamedAnywhere {p p' : Program} (shuffled : Shuffled p p')
    (distinct : (p.decls.map (·.symbol.qualifiedName)).Nodup) (name : String) :
    (p.classNamed? name).map (·.unnumbered) = (p'.classNamed? name).map (·.unnumbered) := by
  have distinct : ((p.decls.map (·.unnumbered)).reverse.map (·.symbol.qualifiedName)).Nodup := by
    simpa [Function.comp_def, ClassDecl.unnumbered] using distinct
  have order := ((List.reverse_perm _).trans (shuffledDecls shuffled)).trans (List.reverse_perm _).symm
  rw [classNamedSearch, classNamedSearch, findKeyPerm order distinct name]

/-! The graph. -/

def topLevel (p : Program) (bs : List (List Binding)) : TopLevel := bs.flatten.foldl p.apply {}

structure Builds [CharacterNames] (p : Program) (bs : List (List Binding)) (entries : List ClassEntry) (g : Graph) : Prop where
  bound : p.modules.mapM (moduleBindings p.vocabulary) = .ok bs
  elaborated : p.decls.mapM ({ p with modules := p.modules.map registered }).elaborate = .ok entries
  built : Graph.build entries (p.topLevel bs).aliases (p.addDecorated (p.topLevel bs)).owners = .ok g

section
variable {charset : CharacterNames}

theorem buildBuilds {p : Program} {g : Graph} (done : p.build.2 = .ok g) : ∃ bs entries, Builds p bs entries g := by
  have result := bindModulesApply p p.modules {}
  unfold build at done
  cases bound : p.modules.mapM (moduleBindings p.vocabulary) with
  | error e =>
    rw [bound] at result
    simp only [result, Except.map] at done
    cases done
  | ok bs =>
    rw [bound] at result
    have registers := bindModulesRegister result
    simp only [result, registers, Except.map] at done
    unfold graphOf at done
    split at done
    · cases done
    · rename_i entries elaborated
      split at done
      · cases done
      · rename_i built
        cases Except.ok.inj done
        exact ⟨bs, entries, bound, elaborated, built⟩

theorem buildsBuild {p : Program} {bs : List (List Binding)} {entries : List ClassEntry} {g : Graph}
    (builds : Builds p bs entries g) : p.build.2 = .ok g := by
  have result := bindModulesApply p p.modules {}
  rw [builds.bound] at result
  have registers := bindModulesRegister result
  have built : Graph.build entries (List.foldl p.apply {} bs.flatten).aliases
      (addDecorated { p with modules := p.modules.map registered } (List.foldl p.apply {} bs.flatten)).owners = .ok g :=
    builds.built
  simp only [build, result, registers, Except.map, graphOf, builds.elaborated, built]

/-- What a class is elaborated to, from what it is without its numbers. -/
def elaboration [CharacterNames] (v : Vocabulary) (k : Option Module × ClassDecl) : TypeReader.Reading ClassEntry :=
  match k.1 with
  | some m => (elaborateClass ⟨v, registered m, k.2.scope⟩ k.2).map (·.unnumbered)
  | none => .ok { symbol := k.2.symbol }

theorem elaboratePlaced (p : Program) (d : ClassDecl) :
    (elaborate { p with modules := p.modules.map registered } d).map (·.unnumbered) = elaboration p.vocabulary (p.place d) := by
  have found : (p.modules.map registered)[d.module]? = p.modules[d.module]?.map registered := List.getElem?_map ..
  unfold elaborate elaboration place
  rw [found]
  cases p.modules[d.module]? with
  | none => rfl
  | some m => exact (elaborateUnnumbered d).symm

theorem elaborateMember {p : Program} {d : ClassDecl} {e : ClassEntry} (made : p.elaborate d = .ok e) :
    e.symbol = d.symbol ∧ ∀ m ∈ e.members, ∀ t ∈ m.declaredType, t.hasElements = true := by
  unfold elaborate at made
  split at made
  · exact ⟨elaborateSymbol made, elaborateElements made⟩
  · cases Except.ok.inj made
    exact ⟨rfl, by simp⟩

variable {p p' : Program}

theorem buildsDecls {bs : List (List Binding)} {entries : List ClassEntry} {g : Graph} (builds : Builds p bs entries g) :
    p.decls.map (·.symbol) = g.entries.map (·.symbol) ∧ (p.decls.map (·.symbol.qualifiedName)).Nodup := by
  have source := Graph.buildSource builds.built
  have symbols : p.decls.map (·.symbol) = g.entries.map (·.symbol) := by
    rw [source.entries]
    exact relatedMap (mapMEach builds.elaborated) fun d _ e made => (elaborateMember made).1.symm
  have names := congrArg (List.map (·.qualifiedName)) symbols
  simp only [List.map_map, Function.comp_def] at names
  exact ⟨symbols, names ▸ source.names⟩

theorem topLevelAliases {bs : List (List Binding)} (bound : p.modules.mapM (moduleBindings p.vocabulary) = .ok bs) :
    (p.topLevel bs).aliases =
      (p.modules.flatMap (ownAliases p.vocabulary)).foldl (fun table a => bindKey a.1 a.2 table) [] := by
  rw [topLevel, applyAliases, collectedAliases bound]

theorem ownersListed (p : Program) (bs : List (List Binding)) (s : Symbol) :
    s ∈ (p.addDecorated (p.topLevel bs)).owners ↔
      (∃ called, .owner called ∈ bs.flatten ∧ p.classNamed? called = some s) ∨
      ∃ d ∈ p.decls, d.isSingleton p.vocabulary = true ∧ p.classNamed? d.symbol.qualifiedName = some s := by
  rw [decoratedOwners, topLevel, applyOwners]
  simp

theorem ownersKnown {bs : List (List Binding)} {s : Symbol} (listed : s ∈ (p.addDecorated (p.topLevel bs)).owners) :
    ∃ d ∈ p.decls, d.symbol = s := by
  have known {name : String} (found : p.classNamed? name = some s) : ∃ d ∈ p.decls, d.symbol = s := by
    obtain ⟨d, search, same⟩ := Option.map_eq_some_iff.1 found
    exact ⟨d, List.mem_reverse.1 (List.mem_of_find?_eq_some search), same⟩
  rcases (ownersListed p bs s).1 listed with ⟨_, _, found⟩ | ⟨_, _, _, found⟩
  · exact known found
  · exact known found

theorem ownersShuffled (shuffled : Shuffled p p') {bs bs' : List (List Binding)} (same : bs.flatten.Perm bs'.flatten)
    (named : ∀ name, (p.classNamed? name).map (·.unnumbered) = (p'.classNamed? name).map (·.unnumbered)) {s : Symbol}
    (listed : s ∈ (p.addDecorated (p.topLevel bs)).owners) :
    ∃ s' ∈ (p'.addDecorated (p'.topLevel bs')).owners, s'.unnumbered = s.unnumbered := by
  have twin {name : String} (found : p.classNamed? name = some s) :
      ∃ s', p'.classNamed? name = some s' ∧ s'.unnumbered = s.unnumbered := by
    have other := named name
    rw [found, Option.map_some, eq_comm, Option.map_eq_some_iff] at other
    exact other
  rcases (ownersListed p bs s).1 listed with ⟨called, inside, found⟩ | ⟨d, known, marked, found⟩
  · obtain ⟨s', found', unnumbered⟩ := twin found
    exact ⟨s', (ownersListed p' bs' s').2 (.inl ⟨called, same.mem_iff.1 inside, found'⟩), unnumbered⟩
  · obtain ⟨s', found', unnumbered⟩ := twin found
    obtain ⟨d', known', decl⟩ := List.mem_map.1 ((shuffledDecls shuffled).mem_iff.1 (List.mem_map_of_mem known))
    have name : d'.symbol.qualifiedName = d.symbol.qualifiedName := Symbol.sameName (congrArg (·.symbol) decl)
    have decorators : d'.decorators = d.decorators := congrArg (·.decorators) decl
    have marked' : d'.isSingleton p'.vocabulary = true := by
      rw [ClassDecl.isSingleton, decorators, ← shuffled.vocabulary]
      exact marked
    exact ⟨s', (ownersListed p' bs' s').2 (.inr ⟨d', known', marked', name ▸ found'⟩), unnumbered⟩

theorem buildShuffled (shuffled : Shuffled p p') {g : Graph} (done : p.build.2 = .ok g) :
    ∃ g', p'.build.2 = .ok g' ∧ g.Rearranged g' := by
  obtain ⟨bs, entries, bound, elaborated, built⟩ := buildBuilds done
  have named := classNamedAnywhere shuffled (buildsDecls ⟨bound, elaborated, built⟩).2
  obtain ⟨bs', bound', blocks⟩ := mapMRearranged id shuffled.modules (fun _ _ => rfl) bound
  have placed' : ∀ d ∈ p'.decls, (elaborate { p' with modules := p'.modules.map registered } d).map (·.unnumbered) =
      elaboration p.vocabulary (p'.place d) := by
    intro d _
    rw [shuffled.vocabulary]
    exact elaboratePlaced p' d
  obtain ⟨entries', elaborated', order⟩ := mapMKeyed shuffled.decls (fun d _ => elaboratePlaced p d) placed' elaborated
  have bound' : p'.modules.mapM (moduleBindings p'.vocabulary) = .ok bs' := shuffled.vocabulary ▸ bound'
  have same : bs.flatten.Perm bs'.flatten := (by simpa using blocks : bs.Perm bs').flatten
  have table (name : String) :
      valueOf? name ((p.topLevel bs).aliases.foldl (fun table a => bindKey a.1 a.2 table) []) =
        valueOf? name ((p'.topLevel bs').aliases.foldl (fun table a => bindKey a.1 a.2 table) []) := by
    rw [topLevelAliases bound, topLevelAliases bound', bindAllAgain, bindAllAgain, ← shuffled.vocabulary]
    exact aliasesAnyOrder _ shuffled.modules shuffled.names name
  have owners (s : Symbol) : s ∈ (p.addDecorated (p.topLevel bs)).owners.map (·.unnumbered) ↔
      s ∈ (p'.addDecorated (p'.topLevel bs')).owners.map (·.unnumbered) := by
    constructor
    · intro member
      obtain ⟨o, listed, rfl⟩ := List.mem_map.1 member
      exact List.mem_map.2 (ownersShuffled shuffled same named listed)
    · intro member
      obtain ⟨o, listed, rfl⟩ := List.mem_map.1 member
      exact List.mem_map.2 (ownersShuffled (shuffledSymm shuffled) same.symm (fun name => (named name).symm) listed)
  have known' : ∀ s ∈ (p'.addDecorated (p'.topLevel bs')).owners, ∃ e ∈ entries', e.symbol = s := by
    intro s listed
    obtain ⟨d, declared, rfl⟩ := ownersKnown listed
    obtain ⟨e, inside, made⟩ := relatedRight (mapMEach elaborated').flip d declared
    exact ⟨e, inside, (elaborateMember made).1⟩
  obtain ⟨g', built', rearranged⟩ := Graph.buildRearranged order table owners known' built
  exact ⟨g', buildsBuild ⟨bound', elaborated', built'⟩, rearranged⟩

theorem buildTold {g : Graph} (done : p.build.2 = .ok g) :
    ∀ e ∈ g.entries, ∀ m ∈ e.members, ∀ t ∈ m.declaredType, t.text?.isSome := by
  obtain ⟨bs, entries, _, elaborated, built⟩ := buildBuilds done
  rw [(Graph.buildSource built).entries]
  intro e known m inside t declared
  obtain ⟨d, _, made⟩ := relatedRight (mapMEach elaborated) e known
  exact TypeRef.textOfElements t ((elaborateMember made).2 m inside t declared)

theorem sourcesShuffled {s : Settings} {sources sources' : List ModuleSource} (order : sources.Perm sources')
    (names : (sources.map (·.name)).Nodup) {g : Graph} (done : graphOfSources s sources = .ok g) :
    ∃ g', graphOfSources s sources' = .ok g' ∧ g.Rearranged g' ∧ g.ChecksAlike g' := by
  obtain ⟨p, added, built⟩ := bindOk done
  obtain ⟨p', added', shuffled⟩ := addShuffled order names added
  obtain ⟨g', built', rearranged⟩ := buildShuffled shuffled built
  refine ⟨g', ?_, rearranged, Graph.rearrangedChecks rearranged (buildTold built)⟩
  unfold graphOfSources ofSettings
  rw [added']
  exact built'

/-- Modules with distinct names can be added in any order: either all orders make a graph or none does. The graphs have the same
classes, with the same members and parents, the same aliases and the same owners of singletons, and all their checks find the
same. -/
theorem moduleOrderIrrelevant (s : Settings) {sources sources' : List ModuleSource} (order : sources.Perm sources')
    (names : (sources.map (·.name)).Nodup) :
    ((∃ e, graphOfSources s sources = .error e) ↔ ∃ e, graphOfSources s sources' = .error e) ∧
      ∀ g g', graphOfSources s sources = .ok g → graphOfSources s sources' = .ok g' →
        (g.entries.map (·.unnumbered)).Perm (g'.entries.map (·.unnumbered)) ∧
        (g.entries.map (·.symbol.qualifiedName)).Nodup ∧
        (∀ name, valueOf? name g.aliases = valueOf? name g'.aliases) ∧
        (∀ o, o ∈ g.staticOwners.map (·.unnumbered) ↔ o ∈ g'.staticOwners.map (·.unnumbered)) ∧ g.ChecksAlike g' := by
  have names' : (sources'.map (·.name)).Nodup := (order.map _).nodup names
  refine ⟨⟨failsToo fun g' done => ?_, failsToo fun g done => ?_⟩, fun g g' done done' => ?_⟩
  · obtain ⟨g, made, _⟩ := sourcesShuffled order.symm names' done
    exact ⟨g, made⟩
  · obtain ⟨g', made, _⟩ := sourcesShuffled order names done
    exact ⟨g', made⟩
  obtain ⟨h, made, rearranged, alike⟩ := sourcesShuffled order names done
  cases Except.ok.inj (made.symm.trans done')
  exact ⟨rearranged.entries, rearranged.names, rearranged.aliases, rearranged.owners, alike⟩

end

/-- A module that uses an alias of a second one, which makes an instance of the class behind it. -/
def twoModules : List ModuleSource :=
  [{ name := "app", code := "from lib import Store\n\n@singleton\nclass App:\n    store: Final[Store] = 0\n" },
   { name := "lib", isPackage := true, code := "Store = Box\n\nclass Box:\n    items = []\n\nbox = Box()\n" }]

theorem twoModulesAnyOrder : ∃ g g', graphOfSources {} twoModules = .ok g ∧ graphOfSources {} twoModules.reverse = .ok g' ∧
    (g.check {}).map (fun r => (r.result.visitedClasses, r.result.diagnostics.map (·.symbol))) =
      .ok (["lib.Box", "app.App"], ["lib.Box.items"]) ∧
    (g.entries.map (·.unnumbered)).Perm (g'.entries.map (·.unnumbered)) ∧ g.ChecksAlike g' := by
  obtain ⟨fails, alike⟩ := moduleOrderIrrelevant {} twoModules.reverse_perm.symm (by decide)
  have seen : ((graphOfSources {} twoModules).toOption.any fun g =>
      (g.check {}).map (fun r => (r.result.visitedClasses, r.result.diagnostics.map (·.symbol))) =
        .ok (["lib.Box", "app.App"], ["lib.Box.items"])) = true := by decide +kernel
  cases done : graphOfSources {} twoModules with
  | error e => rw [done] at seen; cases seen
  | ok g =>
    rw [done] at seen
    cases done' : graphOfSources {} twoModules.reverse with
    | error e =>
      obtain ⟨e, failed⟩ := fails.2 ⟨e, done'⟩
      rw [done] at failed
      cases failed
    | ok g' =>
      obtain ⟨entries, _, _, _, same⟩ := alike g g' done done'
      exact ⟨g, g', rfl, rfl, of_decide_eq_true seen, entries, same⟩

end Program
end SharedState
