import SharedState.Proofs.Names
import SharedState.Proofs.Sessions

/-! Graphs that are built more than once. A build registers aliases, which are read while they are registered: an alias may hide the
name that makes a later annotation declare one, but it never makes up such a name, so a single pass finds them all. -/
namespace SharedState

open SharedState.Source SharedState.Text

namespace Program

section
variable {m : Module}

theorem aliasForm (ordinary : m.name ∉ typingModules) {w : String} (word : PlainWord w) :
    typingForm (m.name ++ "." ++ w) = "" := by
  rw [typingForm, qualifierInside m.name word]
  simp [ordinary]

theorem scopedClassAliases (m : Module) (aliases : List String) (n : String) (depth : Nat) (scope : List String) :
    ({ m with aliases } : Module).scopedClass? n depth scope = m.scopedClass? n depth scope := by
  induction depth with
  | zero => rw [Module.scopedClass?, Module.scopedClass?]
  | succ depth ih => rw [Module.scopedClass?, Module.scopedClass?, ih]

/-- More aliases make a name mean the alias, or leave its meaning as it is. -/
theorem resolveMore {few many : List String} (less : few ⊆ many) (n : String) :
    ({ m with aliases := many } : Module).resolve [] n = ({ m with aliases := few } : Module).resolve [] n ∨
      n ∈ many ∧ ({ m with aliases := many } : Module).resolve [] n = m.name ++ "." ++ n := by
  simp only [Module.resolve, scopedClassAliases]
  cases m.scopedClass? n _ [] with
  | some found => exact .inl rfl
  | none =>
    by_cases known : n ∈ many
    · exact .inr ⟨known, by simp [known]⟩
    · have unknown : n ∉ few := fun member => known (less member)
      exact .inl (by simp [known, unknown])

theorem declaresAliasLess (ordinary : m.name ∉ typingModules) {few many : List String} (less : few ⊆ many)
    (plain : ∀ a ∈ many, PlainWord a) {s : Stmt} (declares : declaresAlias { m with aliases := many } s = true) :
    declaresAlias { m with aliases := few } s = true := by
  cases s with
  | annAssign target type value =>
    rw [declaresAlias] at declares ⊢
    rcases resolveMore (m := m) less type.fullName with same | ⟨known, hidden⟩
    · rwa [same] at declares
    · rw [hidden, aliasForm ordinary (plain _ known)] at declares
      cases declares
  | _ => cases declares

theorem aliasNamesLess (ordinary : m.name ∉ typingModules) {few many : List String} (less : few ⊆ many)
    (plain : ∀ a ∈ many, PlainWord a) (s : Stmt) :
    aliasNames { m with aliases := many } s ⊆ aliasNames { m with aliases := few } s := by
  intro a member
  cases s with
  | annAssign target type value =>
    simp only [aliasNames] at member ⊢
    by_cases declares : declaresAlias { m with aliases := many } (.annAssign target type value) = true
    · rw [if_pos (declaresAliasLess ordinary less plain declares)]
      rwa [if_pos declares] at member
    · rw [if_neg declares] at member
      cases member
  | _ => exact member

theorem addNameMember (known : List String) (name a : String) : a ∈ addName known name ↔ a ∈ known ∨ a = name := by
  unfold addName
  split
  · rename_i inside
    constructor
    · exact .inl
    · rintro (old | rfl)
      · exact old
      · simpa using inside
  · simp

theorem addNamesMember (names known : List String) (a : String) : a ∈ names.foldl addName known ↔ a ∈ known ∨ a ∈ names := by
  induction names generalizing known with
  | nil => simp
  | cons n names ih => rw [List.foldl_cons, ih, addNameMember, List.mem_cons, or_assoc]

theorem addNamesIdle {names known : List String} (inside : names ⊆ known) : names.foldl addName known = known := by
  induction names with
  | nil => rfl
  | cons n names ih =>
    have same : addName known n = known := if_pos (by simpa using inside (List.mem_cons_self ..))
    rw [List.foldl_cons, same]
    exact ih fun a member => inside (List.mem_cons_of_mem _ member)

theorem registerGrows (body : List Stmt) (m : Module) : m.aliases ⊆ (body.foldl registerAliases m).aliases := by
  induction body generalizing m with
  | nil => exact fun _ member => member
  | cons s body ih => exact fun a member => ih _ ((addNamesMember _ _ a).2 (.inl member))

theorem registerPlain (body : List Stmt) (plain : ∀ a ∈ m.aliases, PlainWord a) :
    ∀ a ∈ (body.foldl registerAliases m).aliases, PlainWord a := by
  induction body generalizing m with
  | nil => exact plain
  | cons s body ih => exact ih (addNamesPlain aliasNamesPlain plain)

theorem registerCloses (ordinary : m.name ∉ typingModules) (plain : ∀ a ∈ m.aliases, PlainWord a) (body : List Stmt) :
    ∀ s ∈ body, aliasNames (body.foldl registerAliases m) s ⊆ (body.foldl registerAliases m).aliases := by
  induction body generalizing m with
  | nil => simp
  | cons first body ih =>
    intro s member
    rcases List.mem_cons.1 member with rfl | later
    · -- When the statement was passed, fewer names were aliases, so it made at least those it makes now.
      have fewer : aliasNames ((s :: body).foldl registerAliases m) s ⊆ aliasNames m s := by
        rw [registerRest]
        exact aliasNamesLess ordinary (registerGrows _ m) (registerPlain _ plain) s
      exact fun a here => registerGrows body _ ((addNamesMember _ _ a).2 (.inr (fewer here)))
    · exact ih (m := registerAliases m first) ordinary (addNamesPlain aliasNamesPlain plain) s later

theorem registerIdle {body : List Stmt} (closed : ∀ s ∈ body, aliasNames m s ⊆ m.aliases) :
    body.foldl registerAliases m = m := by
  induction body with
  | nil => rfl
  | cons s body ih =>
    have same : registerAliases m s = m := by
      rw [registerAliases, addNamesIdle (closed s (by simp))]
    rw [List.foldl_cons, same]
    exact ih fun s later => closed s (by simp [later])

theorem registeredTwice (ordinary : m.name ∉ typingModules) (plain : ∀ a ∈ m.aliases, PlainWord a) :
    registered (registered m) = registered m := by
  have closed := registerCloses ordinary plain m.body
  rw [registered, registeredBody]
  exact registerIdle closed

end

/-! What a build gives depends on the program with all its aliases registered. -/

def settled (p : Program) : Program := { p with modules := p.modules.map registered }

def bodyBindings [CharacterNames] (v : Vocabulary) (m : Module) : TypeReader.Reading (List Binding) :=
  (m.body.mapM (statementBindings v m)).map List.flatten

def outcome [CharacterNames] (p : Program) : Except ProgramError Graph :=
  match p.modules.mapM (bodyBindings p.vocabulary) with
  | .error e => .error (.literal e)
  | .ok bs => p.graphOf (p.topLevel bs)

section
variable {charset : CharacterNames}

theorem buildSettled (p : Program) : p.build.2 = p.settled.outcome := by
  have bindings : p.settled.modules.mapM (bodyBindings p.settled.vocabulary) = p.modules.mapM (moduleBindings p.vocabulary) := by
    simp only [settled, List.mapM_map, Function.comp_def, bodyBindings, registeredBody]
    rfl
  have result := bindModulesApply p p.modules {}
  rw [outcome, bindings]
  cases bound : p.modules.mapM (moduleBindings p.vocabulary) with
  | error e =>
    rw [bound] at result
    simp only [build, result, Except.map]
  | ok bs =>
    rw [bound] at result
    simp only [build, result, bindModulesRegister result, Except.map]
    rfl

/-- Programs whose modules have names of their own, none of a typing module, and aliases that are words. -/
def Ordinary (p : Program) : Prop := ∀ m ∈ p.modules, m.name ∉ typingModules ∧ ∀ a ∈ m.aliases, PlainWord a

section
variable {p p' q : Program}

theorem settledNames (p : Program) : p.settled.modules.map (·.name) = p.modules.map (·.name) := by
  simp only [settled, List.map_map]
  exact List.map_congr_left fun m _ => by rw [Function.comp, registeredRest]

variable {charset : CharacterNames}

theorem buildOrdinary (ordinary : p.Ordinary) : p.build.1.Ordinary := by
  rw [buildProgram]
  intro m' inside
  obtain ⟨m, known, rfl | rfl⟩ := relatedRight (bindModulesEach p p.modules {}) m' inside
  · exact ordinary m' known
  · obtain ⟨name, plain⟩ := ordinary m known
    exact ⟨by rwa [registeredRest], registerPlain m.body plain⟩

theorem buildKeeps (ordinary : p.Ordinary) : p.build.1.settled = p.settled := by
  have same : p.modules.map registered = (p.bindModules p.modules {}).1.map registered :=
    relatedMap (bindModulesEach p p.modules {}) fun m known m' kept => by
      rcases kept with rfl | rfl
      · rfl
      · exact (registeredTwice (ordinary m known).1 (ordinary m known).2).symm
  rw [buildProgram, settled, settled, same]

theorem extendOrdinary (ordinary : p.Ordinary) {m : Module} (named : m.name ∉ typingModules) (fresh : m.aliases = []) :
    (p.extend m).Ordinary := by
  intro m' inside
  rcases List.mem_append.1 inside with old | new
  · exact ordinary m' old
  · cases List.mem_singleton.1 new
    exact ⟨named, by simp [fresh]⟩

theorem settledParts (same : p.settled = p'.settled) : p.vocabulary = p'.vocabulary ∧
    p.modules.map registered = p'.modules.map registered ∧ p.decls = p'.decls := by
  simpa [settled] using same

theorem extendSettled (same : p.settled = p'.settled) (m : Module) : (p.extend m).settled = (p'.extend m).settled := by
  obtain ⟨vocabulary, modules, decls⟩ := settledParts same
  have length : p.modules.length = p'.modules.length := by simpa using congrArg List.length modules
  simp only [settled, extend, List.map_append, vocabulary, decls, modules, length]

theorem addSettled (same : p.settled = p'.settled) {s : ModuleSource} (done : p.addSource s = .ok q) :
    ∃ q', p'.addSource s = .ok q' ∧ q.settled = q'.settled := by
  have names : p.modules.map (·.name) = p'.modules.map (·.name) := by rw [← settledNames, same, settledNames]
  have possible : ∃ q', p'.addSource s = .ok q' := (addSucceeds p' s).2 (names ▸ (addSucceeds p s).1 ⟨q, done⟩)
  obtain ⟨q', done'⟩ := possible
  obtain ⟨m, read, rfl, _⟩ := addedModule done
  obtain ⟨m', read', rfl, _⟩ := addedModule done'
  rw [← (settledParts same).1, read] at read'
  cases read'
  exact ⟨_, done', extendSettled same m⟩

theorem stepSettled {s : Step} (kept : p.refused s = false) (ordinary : p.Ordinary)
    (names : ∀ source ∈ s.source?, source.name ∉ typingModules) (same : p.settled = p'.settled) :
    ∃ q, s.source?.toList.foldlM addSource p' = .ok q ∧ (p.next s).settled = q.settled ∧ (p.next s).Ordinary := by
  cases adds : s.adds with
  | false =>
    cases s with
    | build =>
      rw [nextBuild]
      exact ⟨p', rfl, (buildKeeps ordinary).trans same, buildOrdinary ordinary⟩
    | _ => cases adds
  | true =>
    obtain ⟨source, given, q, done⟩ := (acceptedSource adds).1 kept
    obtain ⟨q', done', same'⟩ := addSettled same done
    obtain ⟨m, _, extended, name, _, fresh⟩ := addedModule done
    have named : m.name ∉ typingModules := name ▸ names source given
    rw [nextSource given done, given]
    refine ⟨q', ?_, same', extended ▸ extendOrdinary ordinary named fresh⟩
    simp [done']

theorem sessionSettled {steps : List Step} (smooth : Smooth p steps) (ordinary : p.Ordinary)
    (names : ∀ source ∈ steps.filterMap Step.source?, source.name ∉ typingModules) (same : p.settled = p'.settled) :
    ∃ q, (steps.filterMap Step.source?).foldlM addSource p' = .ok q ∧ (p.after steps).settled = q.settled := by
  induction smooth generalizing p' with
  | nil p => exact ⟨p', rfl, same⟩
  | @cons p s rest kept _ ih =>
    have split : (s :: rest).filterMap Step.source? = s.source?.toList ++ rest.filterMap Step.source? := by
      cases given : s.source? <;> simp [given]
    rw [split] at names ⊢
    have first : ∀ source ∈ s.source?, source.name ∉ typingModules := fun source given =>
      names source (List.mem_append_left _ (Option.mem_toList.2 given))
    obtain ⟨q, added, same', ordinary'⟩ := stepSettled kept ordinary first same
    obtain ⟨r, rest, ends⟩ := ih ordinary' (fun source later => names source (List.mem_append_right _ later)) same'
    rw [List.foldlM_append, added]
    exact ⟨r, rest, ends⟩

end

theorem smoothBefore {p : Program} {before later : List Step} (smooth : Smooth p (before ++ later)) : Smooth p before := by
  induction before generalizing p with
  | nil => exact .nil p
  | cons s before ih =>
    cases smooth with
    | cons kept rest => exact .cons kept (ih rest)

/-- In every session in which no module is refused, each build gives what a single build gives of a program with the same modules,
added in the same order, provided that no module has the name of a typing module. -/
theorem buildsRepeatable {s : Settings} {steps before later : List Step} (smooth : Smooth (ofSettings s) steps)
    (names : ∀ source ∈ steps.filterMap Step.source?, source.name ∉ typingModules) (split : steps = before ++ .build :: later) :
    ((ofSettings s).after before).build.2 = graphOfSources s (before.filterMap Step.source?) := by
  subst split
  have start : (ofSettings s).Ordinary := by simp [Ordinary, ofSettings]
  have early : ∀ source ∈ before.filterMap Step.source?, source.name ∉ typingModules := fun source member =>
    names source (by simpa using .inl (by simpa using member))
  obtain ⟨q, added, ends⟩ := sessionSettled (smoothBefore smooth) start early rfl
  rw [graphOfSources, added]
  calc ((ofSettings s).after before).build.2 = ((ofSettings s).after before).settled.outcome := buildSettled _
    _ = q.settled.outcome := by rw [ends]
    _ = q.build.2 := (buildSettled q).symm

end

/-- An alias that hides the name by which another was recognised, so that the second build finds less to register. -/
def hidingSession : List Step :=
  [.add { code := "Node: TypeAlias = int\nTypeAlias = Node\nclass A:\n  x: Node\n", name := "m" }, .build,
    .add { code := "class B: pass\n", name := "n" }, .build]

theorem hidingSessionRepeats : Smooth (ofSettings {}) hidingSession ∧
    ((ofSettings {}).after hidingSession).modules.map (·.aliases) = [["Node", "TypeAlias"], []] ∧
    (graphOfSources {} (hidingSession.filterMap Step.source?)).toOption.map (·.entries.length) = some 2 ∧
    ((ofSettings {}).after (hidingSession.take 3)).build.2 = graphOfSources {} (hidingSession.filterMap Step.source?) := by
  have seen : ((ofSettings {}).accepted hidingSession).length = 4 ∧
      ((ofSettings {}).after hidingSession).modules.map (·.aliases) = [["Node", "TypeAlias"], []] ∧
      (graphOfSources {} (hidingSession.filterMap Step.source?)).toOption.map (·.entries.length) = some 2 := by decide +kernel
  have smooth : Smooth (ofSettings {}) hidingSession := acceptedAll seen.1
  have split : hidingSession = hidingSession.take 3 ++ .build :: [] := rfl
  exact ⟨smooth, seen.2.1, seen.2.2, buildsRepeatable smooth (by decide) split⟩

end Program
end SharedState
