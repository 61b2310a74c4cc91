import SharedState.Files.Discovery
import SharedState.Proofs.ModuleOrder

/-! Sessions with a program that is changed in place: modules are added, class by class, and graphs are built. A module that is refused
is refused before the first of its classes is declared, so the session goes on as if it had not been tried. -/
namespace SharedState

open SharedState.Source SharedState.Text

/-- A program while a module is added to it: with the classes of the module so far, and those around the current place, the
innermost last. -/
structure Intake where
  program : Program
  classes : List (String × String) := []
  stack : List (String × Symbol) := []

namespace Intake

abbrev Visit := EStateM SourceError Intake Unit

def declareAll (i : Intake) (found : List ClassDecl) : Intake :=
  { i with
    program := { i.program with decls := i.program.decls ++ found }
    classes := found.foldl (fun t d => bindKey (dotted d.scope) d.symbol.qualifiedName t) i.classes }

def push (i : Intake) (name : String) (s : Symbol) : Intake := { i with stack := i.stack ++ [(name, s)] }

def pop (i : Intake) : Intake := { i with stack := i.stack.dropLast }

def declaration (i : Intake) (m : Module) (name : Identifier) (decorators bases : List Expr) (body : List Stmt)
    (start : Position) : ClassDecl :=
  declareClass i.program.vocabulary m i.program.modules.length i.program.decls.length (i.stack.map (·.1))
    (i.stack.getLast?.map (·.2)) name decorators bases body start

mutual
/-- Declares the classes of a statement where they are met. Functions are not looked into. -/
def visit (m : Module) : Stmt → Visit
  | .classDef name decorators bases body start => do
    let d := (← get).declaration m name decorators bases body start
    modify fun i => (i.declareAll [d]).push name.text d.symbol
    visitAll m body
    modify pop
  | .compound body => visitAll m body
  | _ => pure ()
def visitAll (m : Module) : List Stmt → Visit
  | [] => pure ()
  | s :: rest => do
    visit m s
    visitAll m rest
end

theorem declareAppend (i : Intake) (first second : List ClassDecl) :
    (i.declareAll first).declareAll second = i.declareAll (first ++ second) := by
  simp [declareAll]

mutual
theorem visitDeclares (m : Module) : (s : Stmt) → ∀ i : Intake,
    visit m s i = .ok () (i.declareAll (classesOf i.program.vocabulary m i.program.modules.length i.program.decls.length
      (i.stack.map (·.1)) (i.stack.getLast?.map (·.2)) s))
  | .classDef name decorators bases body start, i => by
    have inner := visitAllDeclares m body
      ((i.declareAll [i.declaration m name decorators bases body start]).push name.text
        (i.declaration m name decorators bases body start).symbol)
    rw [visit, classesOf]
    -- The body is visited with the class on the stack, from where the last step takes it again.
    change EStateM.bind (visitAll m body) (fun _ => modify pop) _ = _
    rw [EStateM.bind, inner]
    change EStateM.Result.ok () (pop _) = _
    simp [declareAll, push, pop, declaration]
  | .compound body, i => by
    rw [visit, classesOf]
    exact visitAllDeclares m body i
  | .assign _ _, i | .annAssign _ _ _, i | .importNames _, i | .importFrom _ _ _, i | .functionDef _ _ _ _ _ _, i | .other, i => by
    simp [visit, classesOf, declareAll, pure, EStateM.pure]
theorem visitAllDeclares (m : Module) : (body : List Stmt) → ∀ i : Intake,
    visitAll m body i = .ok () (i.declareAll (classesIn i.program.vocabulary m i.program.modules.length i.program.decls.length
      (i.stack.map (·.1)) (i.stack.getLast?.map (·.2)) body))
  | [], i => by
    simp [visitAll, classesIn, declareAll, pure, EStateM.pure]
  | s :: rest, i => by
    have first := visitDeclares m s i
    have later := visitAllDeclares m rest (i.declareAll (classesOf i.program.vocabulary m i.program.modules.length
      i.program.decls.length (i.stack.map (·.1)) (i.stack.getLast?.map (·.2)) s))
    rw [declareAppend] at later
    rw [visitAll, classesIn]
    simp only [bind, EStateM.bind, first]
    simpa [declareAll] using later
end

end Intake

namespace Program

def takeIn (m : Module) : EStateM SourceError Program (List (String × String)) := fun p =>
  match Intake.visitAll m m.body { program := p } with
  | .ok _ i => .ok i.classes i.program
  | .error e i => .error e i.program

def addParsed (s : ModuleSource) : EStateM SourceError Program Unit := do
  let place := s.path.filter fun path => !path.isEmpty
  match parseModule s.code with
  | .error .malformed => throw (.program (.malformed (place.getD s.name)))
  | .error .mixedSorts => throw (.program (.literal .mixedSorts))
  | .ok body =>
    let m : Module :=
      { name := s.name, path := place.getD ("<" ++ s.name ++ ">"), isPackage := s.isPackage, body,
        imports := moduleImports s.name s.isPackage body }
    let classes ← takeIn m
    modify fun p => { p with modules := p.modules ++ [{ m with classes }] }

def addInPlace (s : ModuleSource) : EStateM SourceError Program Unit := do
  let p ← get
  if p.modules.any fun m => m.name == s.name then throw (.program (.moduleTwice s.name)) else addParsed s

/-- The module of a file. Without a name it is called after the file, or the directory of a package. -/
def fileSource (path : FilePath) (module : Option String) (code : String) : ModuleSource :=
  let isPackage := path.stem == "__init__"
  let own := if isPackage then path.parent.name else path.stem
  { code, name := (module.filter fun m => !m.isEmpty).getD own, path := some path.text, isPackage }

inductive Step where
  | add (s : ModuleSource)
  | addFile (t : FileTree) (path : FilePath) (module : Option String)
  | build

namespace Step

def adds : Step → Bool
  | build => false
  | _ => true

/-- The module that a step tries to add, if there is a text to read. -/
def source? : Step → Option ModuleSource
  | add s => some s
  | addFile t path module => (t.readText path).toOption.map (fileSource path module)
  | build => none

/-- Performs a step in place. What a step that fails has changed stays changed. -/
def perform [CharacterNames] : Step → EStateM SourceError Program (Option Graph)
  | add s => do
    addInPlace s
    return none
  | addFile t path module => do
    match t.readText path with
    | .error e => throw (.unreadable path.text e)
    | .ok code => addInPlace (fileSource path module code)
    return none
  | build => fun p =>
    match p.build with
    | (p, .ok g) => .ok (some g) p
    | (p, .error e) => .error (.program e) p

end Step

/-- An attempt to change a program, where a failure leaves it as it was. -/
def attempt {α : Type} (p : Program) (a : α) : Except SourceError Program → EStateM.Result SourceError Program α
  | .ok q => .ok a q
  | .error e => .error e p

theorem takeInDeclares (m : Module) (p : Program) :
    takeIn m p = .ok ((classesIn p.vocabulary m p.modules.length p.decls.length [] none m.body).foldl
        (fun t d => bindKey (dotted d.scope) d.symbol.qualifiedName t) [])
      { p with decls := p.decls ++ classesIn p.vocabulary m p.modules.length p.decls.length [] none m.body } := by
  rw [takeIn, Intake.visitAllDeclares]
  rfl

theorem placeFilter (path : Option String) :
    (path.filter fun s => !s.isEmpty) = match path with
      | some s => if s.isEmpty then none else some s
      | none => none := by
  cases path with
  | none => rfl
  | some s => cases empty : s.isEmpty <;> simp [Option.filter, empty]

theorem addsInPlace (p : Program) (s : ModuleSource) :
    addInPlace s p = attempt p () ((p.addSource s).mapError .program) := by
  have first : addInPlace s p = (if (p.modules.any fun m => m.name == s.name) = true then throw (.program (.moduleTwice s.name))
      else addParsed s : EStateM SourceError Program Unit) p := rfl
  rw [first]
  unfold addSource add
  by_cases taken : (p.modules.any fun m => m.name == s.name) = true
  · rw [if_pos taken, if_pos taken]
    rfl
  · rw [if_neg taken, if_neg taken]
    simp only [addParsed, placeFilter]
    cases parseModule s.code with
    | error e => cases e <;> rfl
    | ok body =>
      change EStateM.bind (takeIn _) _ p = _
      rw [EStateM.bind, takeInDeclares]
      rfl

theorem attemptReturns {α β : Type} {x : EStateM SourceError Program α} {p : Program} {a : α} {e : Except SourceError Program}
    (done : x p = attempt p a e) (b : β) : (do let _ ← x; return b : EStateM SourceError Program β) p = attempt p b e := by
  simp only [bind, EStateM.bind, done]
  cases e <;> rfl

variable {charset : CharacterNames}

theorem performAdd (p : Program) (s : ModuleSource) :
    Step.perform (.add s) p = attempt p none ((p.addSource s).mapError .program) :=
  attemptReturns (addsInPlace p s) none

theorem nameFilter (module : Option String) (own : String) :
    (module.filter fun s => !s.isEmpty).getD own = match module with
      | some s => if s.isEmpty then own else s
      | none => own := by
  cases module with
  | none => rfl
  | some s => cases empty : s.isEmpty <;> simp [Option.filter, empty]

theorem addFileSource {t : FileTree} {path : FilePath} {code : String} (read : t.readText path = .ok code) (p : Program)
    (module : Option String) :
    p.addFile t path module = (p.addSource (fileSource path module code)).mapError .program := by
  simp only [addFile, read, fileSource, addSource, nameFilter]
  cases p.add code _ _ _ <;> rfl

theorem performAddFile (p : Program) (t : FileTree) (path : FilePath) (module : Option String) :
    Step.perform (.addFile t path module) p = attempt p none (p.addFile t path module) := by
  cases read : t.readText path with
  | error e =>
    simp only [Step.perform, addFile, read]
    rfl
  | ok code =>
    rw [addFileSource read]
    simp only [Step.perform, read]
    exact attemptReturns (addsInPlace p _) none

/-! Sessions. -/

def next [CharacterNames] (p : Program) (s : Step) : Program :=
  match s.perform p with
  | .ok _ q => q
  | .error _ q => q

def after [CharacterNames] (p : Program) (steps : List Step) : Program := steps.foldl next p

def refused [CharacterNames] (p : Program) (s : Step) : Bool :=
  s.adds && match s.perform p with
    | .ok _ _ => false
    | .error _ _ => true

/-- A session without the modules that are refused in its course. -/
def accepted [CharacterNames] (p : Program) : List Step → List Step
  | [] => []
  | s :: rest => if p.refused s then (p.next s).accepted rest else s :: (p.next s).accepted rest

def told? [CharacterNames] (p : Program) : Step → Option (Except ProgramError Graph)
  | .build => some p.build.2
  | _ => none

def graphs [CharacterNames] (p : Program) : List Step → List (Except ProgramError Graph)
  | [] => []
  | s :: rest => (p.told? s).toList ++ (p.next s).graphs rest

/-- Sessions in whose course no module is refused. -/
inductive Smooth [CharacterNames] : Program → List Step → Prop
  | nil (p : Program) : Smooth p []
  | cons {p : Program} {s : Step} {rest : List Step} (accepted : p.refused s = false) (later : Smooth (p.next s) rest) :
    Smooth p (s :: rest)

theorem performAttempts {s : Step} (adds : s.adds = true) (p : Program) : ∃ result, s.perform p = attempt p none result := by
  cases s with
  | build => cases adds
  | add s => exact ⟨_, performAdd p s⟩
  | addFile t path module => exact ⟨_, performAddFile p t path module⟩

theorem refusedNext {p : Program} {s : Step} (refused : p.refused s = true) : p.next s = p := by
  obtain ⟨adds, failed⟩ := Bool.and_eq_true_iff.1 refused
  obtain ⟨result, performed⟩ := performAttempts adds p
  rw [performed] at failed
  rw [next, performed]
  cases result with
  | error e => rfl
  | ok q => cases failed

theorem performSource {s : Step} {source : ModuleSource} (given : s.source? = some source) (p : Program) :
    s.adds = true ∧ s.perform p = attempt p none ((p.addSource source).mapError .program) := by
  cases s with
  | build => cases given
  | add s =>
    cases given
    exact ⟨rfl, performAdd p source⟩
  | addFile t path module =>
    cases read : t.readText path with
    | error e => simp [Step.source?, read, Except.toOption] at given
    | ok code =>
      have same : fileSource path module code = source := by simpa [Step.source?, read, Except.toOption] using given
      rw [performAddFile, addFileSource read, same]
      exact ⟨rfl, rfl⟩

theorem nextSource {p q : Program} {s : Step} {source : ModuleSource} (given : s.source? = some source)
    (done : p.addSource source = .ok q) : p.next s = q := by
  rw [next, (performSource given p).2, done]
  rfl

theorem unreadRefused {p : Program} {s : Step} (adds : s.adds = true) (unread : s.source? = none) : p.refused s = true := by
  cases s with
  | build => cases adds
  | add s => cases unread
  | addFile t path module =>
    cases read : t.readText path with
    | error e => simp [refused, Step.adds, performAddFile, addFile, read, attempt]
    | ok code => simp [Step.source?, read, Except.toOption] at unread

theorem acceptedSource {p : Program} {s : Step} (adds : s.adds = true) :
    p.refused s = false ↔ ∃ source, s.source? = some source ∧ ∃ q, p.addSource source = .ok q := by
  cases given : s.source? with
  | none => simp [unreadRefused adds given]
  | some source =>
    rw [refused, (performSource given p).2, adds]
    cases done : p.addSource source <;> simp [attempt, Except.mapError, done]

theorem addSucceeds (p : Program) (s : ModuleSource) :
    (∃ q, p.addSource s = .ok q) ↔ (∃ body, parseModule s.code = .ok body) ∧ s.name ∉ p.modules.map (·.name) := by
  have taken : (p.modules.any fun m => m.name == s.name) = true ↔ s.name ∈ p.modules.map (·.name) := by simp
  unfold addSource add
  by_cases known : s.name ∈ p.modules.map (·.name)
  · simp [taken.2 known, known]
  · rw [if_neg (mt taken.1 known)]
    cases parseModule s.code with
    | error e => cases e <;> simp
    | ok body => simpa using known

theorem addedModule {p q : Program} {s : ModuleSource} (done : p.addSource s = .ok q) :
    ∃ m, loaded p.vocabulary s = .ok [m] ∧ q = p.extend m ∧ m.name = s.name ∧ parseModule s.code = .ok m.body ∧
      m.aliases = [] := by
  have fresh := ((addSucceeds p s).1 ⟨q, done⟩).2
  rw [addLoaded fun m known same => fresh (List.mem_map.2 ⟨m, known, same⟩)] at done
  cases read : loaded p.vocabulary s with
  | error e => rw [read] at done; cases done
  | ok ms =>
    obtain ⟨m, rfl, facts⟩ := loadedModule read
    rw [read] at done
    exact ⟨m, rfl, (Except.ok.inj done).symm, facts⟩

/-- Building registers aliases, in the modules it gets to, and changes nothing else. -/
theorem bindModulesEach (p : Program) (ms : List Module) (t : TopLevel) :
    List.Forall₂ (fun m m' => m' = m ∨ m' = registered m) ms (p.bindModules ms t).1 := by
  induction ms generalizing t with
  | nil => exact .nil
  | cons m ms ih =>
    rw [bindModules, bindModuleApplies]
    cases moduleBindings p.vocabulary m with
    | error e => exact .cons (.inr rfl) (List.forall₂_same.2 fun _ _ => .inl rfl)
    | ok bs => exact .cons (.inr rfl) (ih _)

theorem buildProgram (p : Program) : p.build.1 = { p with modules := (p.bindModules p.modules {}).1 } := by
  unfold build
  rcases p.bindModules p.modules {} with ⟨modules, _ | _⟩ <;> rfl

theorem nextBuild (p : Program) : p.next .build = p.build.1 := by
  simp only [next, Step.perform]
  rcases p.build with ⟨q, _ | _⟩ <;> rfl

theorem nextNames {p : Program} {s : Step} (accepted : p.refused s = false) :
    (p.next s).modules.map (·.name) = p.modules.map (·.name) ++ s.source?.toList.map (·.name) := by
  cases adds : s.adds with
  | false =>
    have same : p.modules.map (·.name) = (p.bindModules p.modules {}).1.map (·.name) :=
      relatedMap (bindModulesEach p p.modules {}) fun m _ m' kept => by
        rcases kept with rfl | rfl
        · rfl
        · rw [registeredRest]
    cases s with
    | build =>
      rw [nextBuild, buildProgram, Step.source?]
      simpa using same.symm
    | _ => cases adds
  | true =>
    obtain ⟨source, given, q, done⟩ := (acceptedSource adds).1 accepted
    obtain ⟨m, _, extended, name, _⟩ := addedModule done
    rw [nextSource given done, extended, given]
    simp [extend, name]

theorem acceptedSublist (p : Program) (steps : List Step) : (p.accepted steps).Sublist steps := by
  induction steps generalizing p with
  | nil => exact .slnil
  | cons s steps ih =>
    rw [accepted]
    split
    · exact .cons s (ih _)
    · exact .cons_cons s (ih _)

section
variable {p : Program} {s : Step} {charset : CharacterNames}

theorem acceptedSkips (refused : p.refused s = true) (steps : List Step) : p.accepted (s :: steps) = p.accepted steps := by
  rw [accepted, if_pos refused, refusedNext refused]

theorem acceptedKeeps (kept : p.refused s = false) (steps : List Step) :
    p.accepted (s :: steps) = s :: (p.next s).accepted steps := by
  simp [accepted, kept]

theorem afterSkips (refused : p.refused s = true) (steps : List Step) : p.after (s :: steps) = p.after steps :=
  congrArg (·.after steps) (refusedNext refused)

theorem graphsSkip (refused : p.refused s = true) (steps : List Step) : p.graphs (s :: steps) = p.graphs steps := by
  rw [graphs, refusedNext refused]
  cases s with
  | build => cases refused
  | _ => rfl

end

theorem acceptedRun [CharacterNames] (p : Program) (steps : List Step) : Smooth p (p.accepted steps) ∧
    p.after (p.accepted steps) = p.after steps ∧ p.graphs (p.accepted steps) = p.graphs steps := by
  induction steps generalizing p with
  | nil => exact ⟨.nil p, rfl, rfl⟩
  | cons s steps ih =>
    cases refused : p.refused s with
    | true =>
      rw [acceptedSkips refused, afterSkips refused, graphsSkip refused]
      exact ih p
    | false =>
      obtain ⟨smooth, same, told⟩ := ih (p.next s)
      rw [acceptedKeeps refused]
      exact ⟨.cons refused smooth, same, congrArg (_ ++ ·) told⟩

theorem acceptedAll {p : Program} {steps : List Step} (all : (p.accepted steps).length = steps.length) : Smooth p steps := by
  have smooth := (acceptedRun p steps).1
  rwa [(acceptedSublist p steps).eq_of_length all] at smooth

theorem smoothNames {p : Program} {steps : List Step} (smooth : Smooth p steps) :
    (p.after steps).modules.map (·.name) = p.modules.map (·.name) ++ (steps.filterMap Step.source?).map (·.name) := by
  induction smooth with
  | nil p => simp [after]
  | @cons p s rest kept _ ih =>
    have first := nextNames kept
    change ((p.next s).after rest).modules.map (·.name) = _
    rw [ih, first, List.append_assoc]
    cases given : s.source? <;> simp [given]

/-- In every session, a module that is refused leaves the program as it was. So the session ends in the same program, and its builds
tell the same, as without all modules refused in its course; and a module can be added exactly if there is a text that can be read
and no module of its name is there already, be it from the start or accepted on the way. -/
theorem refusedLeaveNothing (p : Program) (steps : List Step) :
    (∀ (q : Program) (s : ModuleSource), Step.perform (.add s) q = attempt q none ((q.addSource s).mapError .program)) ∧
    (∀ (q : Program) (t : FileTree) (path : FilePath) (module : Option String),
      Step.perform (.addFile t path module) q = attempt q none (q.addFile t path module)) ∧
    (∀ (q : Program) (s : Step), q.refused s = true → q.next s = q) ∧
    (p.accepted steps).Sublist steps ∧ Smooth p (p.accepted steps) ∧
    p.after (p.accepted steps) = p.after steps ∧ p.graphs (p.accepted steps) = p.graphs steps ∧
    ∀ s : Step, s.adds = true → ((p.after steps).refused s = false ↔
      ∃ source body, s.source? = some source ∧ parseModule source.code = .ok body ∧ source.name ∉ p.modules.map (·.name) ∧
        ∀ other ∈ (p.accepted steps).filterMap Step.source?, other.name ≠ source.name) := by
  obtain ⟨smooth, same, told⟩ := acceptedRun p steps
  refine ⟨performAdd, performAddFile, fun q s => refusedNext, acceptedSublist p steps, smooth, same, told, fun s adds => ?_⟩
  have names := smoothNames smooth
  rw [same] at names
  rw [acceptedSource adds]
  simp only [addSucceeds, names, List.mem_append, not_or]
  constructor
  · rintro ⟨source, given, ⟨body, read⟩, free, others⟩
    exact ⟨source, body, given, read, free, fun other taken same => others (List.mem_map.2 ⟨other, taken, same⟩)⟩
  · rintro ⟨source, body, given, read, free, others⟩
    refine ⟨source, given, ⟨body, read⟩, free, fun taken => ?_⟩
    obtain ⟨other, member, same⟩ := List.mem_map.1 taken
    exact others other member same

end Program
end SharedState
