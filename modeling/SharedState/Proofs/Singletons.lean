import SharedState.Proofs.ModuleOrder
import SharedState.Proofs.Widening

/-! Which classes own a singleton. A call at the top level of a module makes an instance of the class that has the called name.
A type with that name may denote a class behind an alias; the call does not. -/
namespace SharedState

open SharedState.Source SharedState.Text

/- A name that denotes a single class is the name of that class or of an alias. -/
theorem Graph.nameOrAlias {g : Graph} {name : String} {c : Symbol} (denotes : g.classSymbols (.named name) = [c]) :
    g.lookup name = some c ∨ g.lookup name = none ∧ (valueOf? name g.aliases).isSome = true := by
  have denoted : Denotes g (.named name) c := memClassSymbols.1 (by simp [denotes])
  cases denoted with
  | named isClass => exact .inl isClass
  | aliased noClass bound _ => exact .inr ⟨noClass, by simp [bound]⟩

namespace Program

def calledName? : Stmt → Option String
  | .assign _ (.call func _) => some func.fullName
  | .annAssign _ _ (some (.call func _)) => some func.fullName
  | _ => none

/-- The qualified name of what a statement makes an instance of. The declaration of a type alias makes none. -/
def instantiated? (m : Module) (s : Stmt) : Option String :=
  if declaresAlias m s then none else (calledName? s).map (m.resolve [])

variable {p : Program} {m : Module} {v : Vocabulary}

theorem valueOwners (targets : List Expr) (value : Expr) (called : String) :
    .owner called ∈ valueBindings m targets value ↔
      (calledName? (.assign targets value)).map (m.resolve []) = some called := by
  cases value with
  | call func args => simp [valueBindings, calledName?, eq_comm]
  | _ => simp [valueBindings, calledName?, isDotted]

section
variable {charset : CharacterNames}

theorem statementOwners {s : Stmt} {bs : List Binding} (made : statementBindings v m s = .ok bs) (called : String) :
    .owner called ∈ bs ↔ instantiated? m s = some called := by
  unfold statementBindings at made
  split at made
  · rename_i target type value
    have same : calledName? (.annAssign target type (some value)) = calledName? (.assign [target] value) := by
      cases value <;> rfl
    split at made
    · -- such a statement may bind an alias, but its value is never tried as a call
      rename_i declares
      obtain ⟨a, _, made⟩ := bindOk made
      rw [instantiated?, if_pos declares]
      split at made <;> cases Except.ok.inj made <;> simp
    · rename_i declares
      cases Except.ok.inj made
      rw [instantiated?, if_neg declares, same]
      exact valueOwners [target] value called
  · rename_i targets value
    cases Except.ok.inj made
    exact valueOwners targets value called
  · rename_i noValue noAssign
    cases Except.ok.inj made
    have none : calledName? s = none := by
      unfold calledName?
      split
      · exact absurd rfl (noAssign _ _)
      · exact absurd rfl (noValue _ _ _)
      · rfl
    simp [instantiated?, none]

theorem moduleOwners {bs : List Binding} (made : moduleBindings v m = .ok bs) (called : String) :
    .owner called ∈ bs ↔ ∃ s ∈ (registered m).body, instantiated? (registered m) s = some called := by
  unfold moduleBindings at made
  cases collected : m.body.mapM (statementBindings v (registered m)) with
  | error e => rw [collected] at made; cases made
  | ok found =>
    rw [collected] at made
    cases Except.ok.inj made
    rw [mapMFlatten collected, registeredBody]
    constructor
    · rintro ⟨s, inside, bs, stated, bound⟩
      exact ⟨s, inside, (statementOwners stated called).1 bound⟩
    · rintro ⟨s, inside, made⟩
      obtain ⟨bs, stated⟩ := mapMDone collected s inside
      exact ⟨s, inside, bs, stated, (statementOwners stated called).2 made⟩

theorem boundOwners {ms : List Module} {bs : List (List Binding)} (bound : ms.mapM (moduleBindings v) = .ok bs) (called : String) :
    .owner called ∈ bs.flatten ↔ ∃ m ∈ ms.map registered, ∃ s ∈ m.body, instantiated? m s = some called := by
  rw [mapMFlatten bound]
  constructor
  · rintro ⟨m, inside, bs, made, here⟩
    exact ⟨registered m, List.mem_map_of_mem inside, (moduleOwners made called).1 here⟩
  · rintro ⟨_, listed, stated⟩
    obtain ⟨m, inside, rfl⟩ := List.mem_map.1 listed
    obtain ⟨bs, made⟩ := mapMDone bound m inside
    exact ⟨m, inside, bs, made, (moduleOwners made called).2 stated⟩

/-! The classes of a program and the classes of its graph. -/

theorem buildModules {g : Graph} (done : p.build.2 = .ok g) : p.build.1.modules = p.modules.map registered := by
  obtain ⟨bs, entries, builds⟩ := buildBuilds done
  have result := bindModulesApply p p.modules {}
  rw [builds.bound] at result
  simp only [build, result, bindModulesRegister result, Except.map]

theorem classNamedIff (distinct : (p.decls.map (·.symbol.qualifiedName)).Nodup) (name : String) (c : Symbol) :
    p.classNamed? name = some c ↔ c ∈ p.decls.map (·.symbol) ∧ c.qualifiedName = name := by
  have reversed : (p.decls.reverse.map (·.symbol.qualifiedName)).Nodup := by simpa using distinct
  constructor
  · intro found
    obtain ⟨d, search, rfl⟩ := Option.map_eq_some_iff.1 found
    exact ⟨List.mem_map_of_mem (List.mem_reverse.1 (List.mem_of_find?_eq_some search)), by simpa using List.find?_some search⟩
  · rintro ⟨listed, rfl⟩
    obtain ⟨d, known, rfl⟩ := List.mem_map.1 listed
    rw [classNamed?, findKey reversed (List.mem_reverse.2 known)]
    rfl

theorem ownersBuilt {g : Graph} (done : p.build.2 = .ok g) (c : Symbol) :
    c ∈ g.staticOwners ↔ c ∈ g.entries.map (·.symbol) ∧
      ((∃ m ∈ p.build.1.modules, ∃ s ∈ m.body, instantiated? m s = some c.qualifiedName) ∨
        ∃ d ∈ p.decls, d.isSingleton p.vocabulary = true ∧ d.symbol = c) := by
  obtain ⟨bs, entries, builds⟩ := buildBuilds done
  obtain ⟨symbols, distinct⟩ := buildsDecls builds
  rw [(Graph.buildParts builds.built).2, ownersListed, buildModules done, ← symbols]
  simp only [boundOwners builds.bound, classNamedIff distinct]
  constructor
  · rintro (⟨_, stated, known, rfl⟩ | ⟨d, declared, decorated, known, named⟩)
    · exact ⟨known, .inl stated⟩
    · obtain ⟨d', declared', rfl⟩ := List.mem_map.1 known
      cases List.inj_on_of_nodup_map distinct declared' declared named
      exact ⟨known, .inr ⟨d, declared, decorated, rfl⟩⟩
  · rintro ⟨known, stated | ⟨d, declared, decorated, rfl⟩⟩
    · exact .inl ⟨_, stated, known, rfl⟩
    · exact .inr ⟨d, declared, decorated, known, rfl⟩

/-- A class owns a singleton if and only if some module calls it by its own qualified name, once names are resolved, or a decorator
says so. Thus an instance that is made under a name for the one class `c` is found, unless the name is an alias or the statement
declares one. -/
theorem singletonsExact {g : Graph} (done : p.build.2 = .ok g) (c : Symbol) :
    (c ∈ g.staticOwners ↔ c ∈ g.entries.map (·.symbol) ∧
      ((∃ m ∈ p.build.1.modules, ∃ s ∈ m.body, instantiated? m s = some c.qualifiedName) ∨
        ∃ d ∈ p.decls, d.isSingleton p.vocabulary = true ∧ d.symbol = c)) ∧
    ∀ m ∈ p.build.1.modules, ∀ s ∈ m.body, ∀ n, calledName? s = some n → g.classSymbols (.named (m.resolve [] n)) = [c] →
      c ∈ g.staticOwners ∨ declaresAlias m s = true ∨
        g.lookup (m.resolve [] n) = none ∧ (valueOf? (m.resolve [] n) g.aliases).isSome = true := by
  refine ⟨ownersBuilt done c, fun m inside s stated n called denotes => ?_⟩
  cases declares : declaresAlias m s with
  | true => exact .inr (.inl rfl)
  | false =>
    refine (Graph.nameOrAlias denotes).imp (fun found => ?_) .inr
    obtain ⟨e, known, rfl, named⟩ := Graph.lookupKnown found
    have made : instantiated? m s = some e.symbol.qualifiedName := by simp [instantiated?, declares, called, named]
    exact (ownersBuilt done e.symbol).2 ⟨List.mem_map_of_mem known, .inl ⟨m, inside, s, stated, made⟩⟩

def hasInstance [CharacterNames] (p : Program) (g : Graph) (n name : String) : Bool :=
  p.build.1.modules.any fun m => m.body.any fun s => calledName? s = some n && !declaresAlias m s &&
    (g.classSymbols (.named (m.resolve [] n))).map (·.qualifiedName) = [name]

theorem instanceHeld {g : Graph} {n name : String} (held : p.hasInstance g n name = true) :
    ∃ m ∈ p.build.1.modules, ∃ s ∈ m.body, ∃ c, calledName? s = some n ∧ declaresAlias m s = false ∧
      g.classSymbols (.named (m.resolve [] n)) = [c] ∧ c.qualifiedName = name := by
  obtain ⟨m, inside, held⟩ := List.any_eq_true.1 held
  obtain ⟨s, stated, held⟩ := List.any_eq_true.1 held
  simp only [Bool.and_eq_true, decide_eq_true_eq, Bool.not_eq_true', List.map_eq_singleton_iff] at held
  obtain ⟨⟨called, plain⟩, c, denotes, named⟩ := held
  exact ⟨m, inside, s, stated, c, called, plain, denotes, named⟩

theorem builtFrom [CharacterNames] (sources : List ModuleSource) (holds : Program → Graph → Bool)
    (seen : ((sources.foldlM addSource (ofSettings {})).toOption.any fun p => p.build.2.toOption.any (holds p)) = true) :
    ∃ p g, sources.foldlM addSource (ofSettings {}) = .ok p ∧ p.build.2 = .ok g ∧ holds p g = true := by
  cases added : sources.foldlM addSource (ofSettings {}) with
  | error e => rw [added] at seen; cases seen
  | ok p =>
    rw [added] at seen
    have seen : p.build.2.toOption.any (holds p) = true := seen
    cases built : p.build.2 with
    | error e => rw [built] at seen; cases seen
    | ok g =>
      rw [built] at seen
      exact ⟨p, g, rfl, built, seen⟩

end

/-- An instance of a nested class, by way of an import under another name. -/
def renamedInstance : List ModuleSource :=
  [{ name := "lib", code := "class Box:\n    class Inner:\n        items = []\n" },
   { name := "app", code := "from lib import Box as B\n\ninner: B.Inner = B.Inner()\n" }]

theorem renamedInstanceFound : ∃ p g c, renamedInstance.foldlM addSource (ofSettings {}) = .ok p ∧ p.build.2 = .ok g ∧
    c ∈ g.staticOwners ∧ c.qualifiedName = "lib.Box.Inner" := by
  obtain ⟨p, g, added, built, seen⟩ := builtFrom renamedInstance
    (fun p g => p.hasInstance g "B.Inner" "lib.Box.Inner" && g.aliases.isEmpty) (by decide +kernel)
  obtain ⟨held, noAliases⟩ := Bool.and_eq_true_iff.1 seen
  obtain ⟨m, inside, s, stated, c, called, plain, denotes, named⟩ := instanceHeld held
  refine ⟨p, g, c, added, built, ?_, named⟩
  rcases (singletonsExact built c).2 m inside s stated "B.Inner" called denotes with owner | declares | ⟨_, aliased⟩
  · exact owner
  · rw [plain] at declares
    cases declares
  · simp [List.isEmpty_iff.1 noAliases, valueOf?] at aliased

/-- An instance that is made under an alias. -/
def aliasedInstance : List ModuleSource :=
  [{ name := "main", code := "class Registry:\n    items = []\n\nR = Registry\nREGISTRY = R()\n" }]

/-- The check of this program succeeds, although the class of the instance holds mutable state. -/
theorem aliasedInstanceMissed : ∃ p g m s c, aliasedInstance.foldlM addSource (ofSettings {}) = .ok p ∧ p.build.2 = .ok g ∧
    m ∈ p.build.1.modules ∧ s ∈ m.body ∧ calledName? s = some "R" ∧ declaresAlias m s = false ∧
    g.classSymbols (.named (m.resolve [] "R")) = [c] ∧ c ∉ g.staticOwners ∧
    (g.check {}).map (·.result.success) = .ok true ∧ (g.checkFrom {} [c]).map (·.result.success) = .ok false := by
  obtain ⟨p, g, added, built, seen⟩ := builtFrom aliasedInstance
    (fun p g => p.hasInstance g "R" "main.Registry" && (g.staticOwners.isEmpty && ((g.check {}).map (·.result.success) = .ok true &&
      g.entries.all fun e => (g.checkFrom {} [e.symbol]).map (·.result.success) = .ok false))) (by decide +kernel)
  simp only [Bool.and_eq_true, List.isEmpty_iff, decide_eq_true_eq, List.all_eq_true] at seen
  obtain ⟨held, noOwners, succeeds, exposed⟩ := seen
  obtain ⟨m, inside, s, stated, c, called, plain, denotes, _⟩ := instanceHeld held
  have known : c ∈ g.entries.map (·.symbol) := Graph.denotesClass (Graph.memClassSymbols.1 (by rw [denotes]; simp))
  obtain ⟨e, listed, rfl⟩ := List.mem_map.1 known
  exact ⟨p, g, m, s, e.symbol, added, built, inside, stated, called, plain, denotes, by simp [noOwners], succeeds, exposed e listed⟩

end Program
end SharedState
