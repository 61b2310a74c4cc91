import SharedState.Proofs.ClassMembers

/-! Graphs of programs. Every module that is added keeps the program regular, and what is built from a regular program is
a graph that a document can hold, with legible types. -/
namespace SharedState

open SharedState.Source SharedState.Text

namespace Program

structure Regular (p : Program) : Prop where
  filled : "" ∉ p.vocabulary.markers
  modules : ∀ m ∈ p.modules, m.Regular
  declared : Declared 0 none p.decls

theorem classTable {found : List ClassDecl} (each : ∀ d ∈ found, d.Regular) {table : List (String × String)}
    (names : ∀ c ∈ table, DottedName c.2) :
    ∀ c ∈ found.foldl (fun t d => bindKey (dotted d.scope) d.symbol.qualifiedName t) table, DottedName c.2 := by
  induction found generalizing table with
  | nil => exact names
  | cons d found ih =>
    refine ih (fun e member => each e (by simp [member])) fun c member => ?_
    rcases memBindKey member with rfl | old
    · exact (each d (by simp)).named
    · exact names c old

theorem addRegular {p q : Program} (regular : p.Regular) {code : String} {name : DottedPath} {path : Option String}
    {isPackage : Bool} (added : p.add code name.text path isPackage = .ok q) : q.Regular := by
  unfold add at added
  split at added
  · cases added
  · simp only at added
    split at added
    · cases added
    · cases added
    · rename_i body _
      cases Except.ok.inj added
      have imports := moduleImportsDotted name isPackage body
      have plain : ∀ file : String, Module.Regular
          { name := name.text, path := file, isPackage, body, imports := moduleImports name.text isPackage body } :=
        fun file => ⟨⟨name, rfl⟩, by simp, by simp, imports⟩
      have found := fun file => classesInDeclared regular.filled (plain file) p.modules.length body p.decls.length []
        none (aroundNone _)
      refine ⟨regular.filled, fun m member => ?_, declaredAppend regular.declared (by simpa using found _)⟩
      rcases List.mem_append.1 member with old | new
      · exact regular.modules m old
      · rw [List.mem_singleton.1 new]
        exact ⟨⟨name, rfl⟩, classTable (found _).each (by simp), by simp, imports⟩

end Program

/-! What the top level of modules binds. -/

namespace Program

/-- Aliases have a name, and a type that is legible or that has no name. -/
def AliasesRegular (t : TopLevel) : Prop := ∀ a ∈ t.aliases, a.1 ≠ "" ∧ (a.2.Legible ∨ a.2 = .named "")

theorem addAliasRegular {t : TopLevel} (regular : AliasesRegular t) {name : String} (named : name ≠ "") {type : TypeRef}
    (legible : type.Legible ∨ type = .named "") : AliasesRegular (t.addAlias name type) := by
  intro a member
  rcases memBindKey member with rfl | old
  · exact ⟨named, legible⟩
  · exact regular a old

theorem addOwnerRegular {t : TopLevel} (regular : AliasesRegular t) (owner : Option Symbol) :
    AliasesRegular (t.addOwner owner) := by
  cases owner with
  | none => exact regular
  | some s =>
    simp only [TopLevel.addOwner]
    split
    · exact regular
    · exact regular

theorem namedLegible {m : Module} (regular : m.Regular) (e : Expr) :
    (TypeRef.named (m.resolve [] e.fullName)).Legible ∨ TypeRef.named (m.resolve [] e.fullName) = .named "" := by
  rcases Module.resolveMaybe regular [] (nameOrNone e) with empty | name
  · exact .inr (congrArg TypeRef.named empty)
  · exact .inl (TypeRef.legibleName name)

theorem bindValueRegular (p : Program) {m : Module} (regular : m.Regular) {t : TopLevel} (aliases : AliasesRegular t)
    (targets : List Expr) (value : Expr) : AliasesRegular (p.bindValue m t targets value) := by
  unfold bindValue
  split
  · exact addOwnerRegular aliases _
  · split
    · simp only
      have legible := namedLegible regular value
      generalize targets.filterMap targetName? = ids
      induction ids generalizing t with
      | nil => exact aliases
      | cons id ids ih =>
        rw [List.foldl_cons]
        refine ih ?_
        split
        · exact aliases
        · exact addAliasRegular aliases (joinedFilled m.name id) legible
    · exact aliases

variable {charset : CharacterNames}

theorem bindStatementRegular {p : Program} (filled : "" ∉ p.vocabulary.markers) {m : Module} (regular : m.Regular)
    (t : TopLevel) (s : Stmt) (u : TopLevel) (aliases : AliasesRegular t) (done : p.bindStatement m t s = .ok u) :
    AliasesRegular u := by
  unfold bindStatement at done
  split at done
  · split at done
    · obtain ⟨a, read, done⟩ := bindOk done
      have converts := Viewpoint.convertReadable (p := p.viewpoint m []) ⟨filled, regular⟩ read
      split at done
      · rename_i typed _
        cases Except.ok.inj done
        exact addAliasRegular aliases (joinedFilled m.name _) (.inl (.inl (converts.type _ typed)))
      · cases Except.ok.inj done
        exact aliases
    · cases Except.ok.inj done
      exact bindValueRegular p regular aliases _ _
  · cases Except.ok.inj done
    exact bindValueRegular p regular aliases _ _
  · cases Except.ok.inj done
    exact aliases

theorem bindModulesRegular {p : Program} (filled : "" ∉ p.vocabulary.markers) {modules : List Module}
    (regular : ∀ m ∈ modules, m.Regular) {t u : TopLevel} (aliases : AliasesRegular t)
    (done : (p.bindModules modules t).2 = .ok u) :
    (∀ m ∈ (p.bindModules modules t).1, m.Regular) ∧ AliasesRegular u := by
  induction modules generalizing t with
  | nil =>
    cases Except.ok.inj done
    exact ⟨by simp [bindModules], aliases⟩
  | cons m modules ih =>
    have rest : ∀ n ∈ modules, n.Regular := fun n member => regular n (by simp [member])
    have first := registerAllRegular (regular m (by simp)) m.body
    cases bound : p.bindModule m t with
    | mk n result =>
      have registered : m.body.foldl registerAliases m = n := congrArg Prod.fst bound
      rw [registered] at first
      cases result with
      | error e =>
        simp only [bindModules, bound] at done
        cases done
      | ok v =>
        simp only [bindModules, bound] at done ⊢
        have folded : n.body.foldlM (p.bindStatement n) t = .ok v := by
          have same := congrArg Prod.snd bound
          simp only [bindModule, registered] at same
          exact same
        obtain ⟨others, last⟩ := ih rest (foldlMKept (bindStatementRegular filled first) aliases folded) done
        refine ⟨fun o member => ?_, last⟩
        rcases List.mem_cons.1 member with rfl | later
        · exact first
        · exact others o later

end Program

/-! The graph. -/

/-- A graph as programs give it. -/
structure Graph.Sourced (g : Graph) : Prop where
  portable : g.Portable
  types : ∀ e ∈ g.entries, ∀ t ∈ e.types, t.Legible
  aliases : ∀ a ∈ g.aliases, a.1 ≠ "" ∧ (a.2.Legible ∨ a.2 = .named "")

/-- Entries in the order of the declarations that they elaborate make up classes that a document can hold. -/
theorem elaboratedPortable {decls : List ClassDecl} (declared : Declared 0 none decls) {g : Graph}
    (related : List.Forall₂ (fun d e => d.Regular ∧ Elaborated d e) decls g.entries) :
    g.entries.map (·.symbol.serial) = List.range g.entries.length ∧ ∀ e ∈ g.entries, e.symbol.PortableClass g := by
  have symbols : decls.map (·.symbol) = g.entries.map (·.symbol) :=
    relatedMap related fun d _ e made => made.2.symbol.symm
  have size : decls.length = g.entries.length := related.length_eq
  have serials : g.entries.map (·.symbol.serial) = List.range g.entries.length := by
    have numbers := congrArg (List.map (·.serial)) symbols
    simp only [List.map_map, Function.comp_def] at numbers
    rw [← numbers, declared.serials, size, List.range_eq_range']
  refine ⟨serials, fun e member => ?_⟩
  obtain ⟨d, inside, regular, made⟩ := relatedRight related e member
  have number : e.symbol.serial ∈ g.entries.map (·.symbol.serial) := List.mem_map.2 ⟨e, member, rfl⟩
  rw [serials, List.mem_range] at number
  rw [made.symbol] at number ⊢
  refine ⟨regular.kept, regular.kind, regular.untyped, regular.fixed, dottedNonempty regular.named, fun o owned => ?_, ?_⟩
  · rcases declared.owners d inside o owned with outside | ⟨c, known, rfl⟩
    · cases outside
    · have listed : c.symbol ∈ g.entries.map (·.symbol) := symbols ▸ List.mem_map.2 ⟨c, known, rfl⟩
      exact List.mem_map.1 listed
  · have depth := regular.depth
    omega

namespace Program

variable {charset : CharacterNames}

theorem elaborateMade {p : Program} (regular : p.Regular) {d : ClassDecl} (declared : d.Regular) {e : ClassEntry}
    (made : p.elaborate d = .ok e) : Elaborated d e := by
  unfold elaborate at made
  split at made
  · rename_i m found
    exact elaborateClassMade (p := p.viewpoint m d.scope)
      ⟨regular.filled, regular.modules m (List.mem_of_getElem? found)⟩ d declared.named made
  · cases Except.ok.inj made
    exact ⟨rfl, rfl, by simp, by simp [ClassEntry.types]⟩

theorem graphOfSourced {p : Program} (regular : p.Regular) {t : TopLevel} (aliases : AliasesRegular t) {g : Graph}
    (built : p.graphOf t = .ok g) : g.Sourced := by
  unfold graphOf at built
  split at built
  · cases built
  · rename_i entries elaborated
    split at built
    · cases built
    · rename_i whole
      cases Except.ok.inj built
      have source := Graph.buildSource whole
      have related : List.Forall₂ (fun d e => d.Regular ∧ Elaborated d e) p.decls g.entries := by
        rw [source.entries]
        have both := (List.forall₂_and_left _ _).2 ⟨regular.declared.each, mapMEach elaborated⟩
        exact both.imp fun d e pair => ⟨pair.1, elaborateMade regular pair.1 pair.2⟩
      have each : ∀ e ∈ g.entries, ∃ d, Elaborated d e := fun e member => by
        obtain ⟨d, _, _, made⟩ := relatedRight related e member
        exact ⟨d, made⟩
      obtain ⟨serials, classes⟩ := elaboratedPortable regular.declared related
      refine ⟨⟨serials, source.names, classes, fun e member => ?_, fun e member m inside => ?_, source.keys, source.owners,
        source.ownersKnown⟩, fun e member => ?_, fun a member => aliases a (source.aliases a member)⟩
      · obtain ⟨d, made⟩ := each e member
        exact made.serials
      · obtain ⟨d, made⟩ := each e member
        rw [made.symbol]
        exact made.members m inside
      · obtain ⟨d, made⟩ := each e member
        exact made.types

theorem buildSourced {p : Program} (regular : p.Regular) {g : Graph} (built : p.build.2 = .ok g) : g.Sourced := by
  unfold build at built
  cases bound : p.bindModules p.modules {} with
  | mk modules result =>
    simp only [bound] at built
    cases result with
    | error e => cases built
    | ok t =>
      have done : (p.bindModules p.modules {}).2 = .ok t := by rw [bound]
      obtain ⟨kept, aliases⟩ := bindModulesRegular regular.filled regular.modules (by simp [AliasesRegular]) done
      rw [bound] at kept
      exact graphOfSourced (p := { p with modules }) ⟨regular.filled, kept, regular.declared⟩ aliases built

end Program
end SharedState
