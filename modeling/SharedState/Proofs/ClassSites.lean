import SharedState.Proofs.Addresses
import SharedState.Proofs.Annotations
import SharedState.Proofs.Declarations
import SharedState.Proofs.Sessions

/-! Where the classes of a program are declared: at the class statements whose addresses lead through no function, in the order of these
addresses. -/
namespace SharedState

open SharedState.Source SharedState.Text

/-- A class is declared from the statement at its address, and inside the nearest class around it: one that is known, or else the one
around all of them. -/
structure Site (w : View) (scope : List String) (outer : Option Symbol) (known : List Nat → ClassDecl → Prop) (a : List Nat)
    (d : ClassDecl) : Prop where
  statement : ∃ name decorators start, w a = some (.classDef name decorators d.bases d.body start) ∧
    d.decorators = decorators.map decoratorName
  scope : d.scope = scope ++ w.path a
  nested : ∀ b, w.enclosing? a = some b → ∃ e, known b e ∧ d.symbol.owner? = some e.symbol
  outermost : w.enclosing? a = none → d.symbol.owner? = outer

structure Sited (w : View) (scope : List String) (outer : Option Symbol) (sites : List (List Nat × ClassDecl)) : Prop where
  order : (sites.map (·.1)).Pairwise (· < ·)
  exact : ∀ a, a ∈ sites.map (·.1) ↔ w.Static a
  each : ∀ x ∈ sites, Site w scope outer (fun b e => (b, e) ∈ sites) x.1 x.2

section
variable {w : View} {scope : List String} {outer : Option Symbol} {known known' : List Nat → ClassDecl → Prop}
  {sites : List (List Nat × ClassDecl)}

theorem siteMono (more : ∀ b e, known b e → known' b e) {a : List Nat} {d : ClassDecl} (site : Site w scope outer known a d) :
    Site w scope outer known' a d := by
  refine ⟨site.statement, site.scope, fun b near => ?_, site.outermost⟩
  obtain ⟨e, here, owner⟩ := site.nested b near
  exact ⟨e, more b e here, owner⟩

theorem siteBelow (plain : w.Plain) (i : Nat) (a : List Nat) (d : ClassDecl) :
    Site w scope outer known (i :: a) d ↔ Site (w.below i) scope outer (fun b e => known (i :: b) e) a d := by
  have path := View.plainPath plain i a
  have near := View.plainEnclosing plain i a
  constructor
  · intro site
    refine ⟨site.statement, path ▸ site.scope, fun b found => ?_, fun none => site.outermost (by rw [near, none]; rfl)⟩
    exact site.nested (i :: b) (by rw [near, found]; rfl)
  · intro site
    refine ⟨site.statement, path ▸ site.scope, fun b found => ?_, fun none => ?_⟩
    · rw [near] at found
      obtain ⟨c, inner, rfl⟩ := Option.map_eq_some_iff.1 found
      exact site.nested c inner
    · rw [near, Option.map_eq_none_iff] at none
      exact site.outermost none

theorem siteNested {name : String} (root : w.classAt? [] = some name) {i : Nat} {a : List Nat} {c d : ClassDecl}
    (here : known [] c) (site : Site (w.below i) (scope ++ [name]) (some c.symbol) (fun b e => known (i :: b) e) a d) :
    Site w scope outer known (i :: a) d := by
  have near := View.enclosingBelow w i a
  simp only [root, Option.isSome_some, if_true] at near
  refine ⟨site.statement, ?_, fun b found => ?_, fun none => ?_⟩
  · rw [View.pathBelow, root, site.scope, List.append_assoc]
    rfl
  · cases inner : (w.below i).enclosing? a with
    | none =>
      rw [near, inner] at found
      cases Option.some.inj found
      exact ⟨c, here, site.outermost inner⟩
    | some b' =>
      rw [near, inner] at found
      cases Option.some.inj found
      exact site.nested b' inner
  · rw [near] at none
    simp at none

theorem sitedNil : Sited (View.forest []) scope outer [] :=
  ⟨.nil, fun a => by simpa using fun static => by simpa using View.forestStatic static, by simp⟩

theorem sitedSingle {s : Stmt} (sited : Sited s.at? scope outer sites) :
    Sited (View.forest [s]) scope outer (sites.map fun x => (0 :: x.1, x.2)) := by
  have below : (View.forest [s]).below 0 = s.at? := rfl
  have plain := View.forestPlain [s]
  refine ⟨?_, fun a => ?_, fun x member => ?_⟩
  · simpa [List.pairwise_map, Function.comp_def] using sited.order
  · have inside := sited.exact
    rcases a with _ | ⟨_ | i, a⟩
    · simpa using View.rootNotStatic plain
    · rw [View.plainStatic plain, below, ← inside]
      simp
    · simpa using fun static => by simpa using View.forestStatic static
  · obtain ⟨y, old, rfl⟩ := List.mem_map.1 member
    refine (siteBelow plain 0 y.1 y.2).2 (siteMono (fun b e here => ?_) (sited.each y old))
    exact List.mem_map.2 ⟨(b, e), here, rfl⟩

theorem sitedAppend {ss ts : List Stmt} {first second : List (List Nat × ClassDecl)}
    (front : Sited (View.forest ss) scope outer first) (back : Sited (View.forest ts) scope outer second) :
    Sited (View.forest (ss ++ ts)) scope outer (first ++ second.map fun x => (View.shift ss.length x.1, x.2)) := by
  have plain := View.forestPlain (ss ++ ts)
  have early {a : List Nat} (member : a ∈ first.map (·.1)) := View.forestStatic ((front.exact a).1 member)
  have late {a : List Nat} (member : a ∈ second.map (·.1)) := View.forestStatic ((back.exact a).1 member)
  have addresses : (first ++ second.map fun x => (View.shift ss.length x.1, x.2)).map (·.1) =
      first.map (·.1) ++ (second.map (·.1)).map (View.shift ss.length) := by simp
  refine ⟨?_, fun a => ?_, fun x member => ?_⟩
  · rw [addresses, List.pairwise_append]
    refine ⟨front.order, back.order.map _ fun _ _ => View.shiftLess _, fun a before b after => ?_⟩
    obtain ⟨i, a, rfl, inside⟩ := early before
    obtain ⟨b, moved, rfl⟩ := List.mem_map.1 after
    obtain ⟨j, b, rfl, _⟩ := late moved
    exact List.cons_lt_cons_iff.2 (.inl (by omega))
  · rw [addresses, List.mem_append]
    cases a with
    | nil =>
      refine iff_of_false ?_ (View.rootNotStatic plain)
      rintro (before | after)
      · obtain ⟨_, _, empty, _⟩ := early before
        cases empty
      · obtain ⟨b, moved, empty⟩ := List.mem_map.1 after
        obtain ⟨j, b, rfl, _⟩ := late moved
        cases empty
    | cons i a =>
      -- The first position tells which of the two lists the address leads into.
      rw [View.plainStatic plain]
      by_cases inside : i < ss.length
      · rw [View.forestFront ts inside, ← View.plainStatic (View.forestPlain ss), ← front.exact]
        refine or_iff_left fun moved => ?_
        obtain ⟨b, moved, same⟩ := List.mem_map.1 moved
        obtain ⟨j, b, rfl, _⟩ := late moved
        cases same
        omega
      · obtain ⟨j, rfl⟩ := Nat.exists_eq_add_of_le (Nat.le_of_not_lt inside)
        rw [View.forestBack, ← View.plainStatic (View.forestPlain ts), ← back.exact]
        constructor
        · rintro (before | after)
          · obtain ⟨_, _, same, known⟩ := early before
            cases same
            exact absurd known inside
          · obtain ⟨b, moved, same⟩ := List.mem_map.1 after
            obtain ⟨k, b, rfl, _⟩ := late moved
            obtain ⟨index, rfl⟩ := List.cons.inj same
            cases Nat.add_left_cancel index
            exact moved
        · exact fun here => .inr (List.mem_map.2 ⟨j :: a, here, rfl⟩)
  · rcases List.mem_append.1 member with old | moved
    · obtain ⟨i, a, here, inside⟩ := early (List.mem_map_of_mem old)
      obtain ⟨_, d⟩ := x
      cases here
      have site := (siteBelow (View.forestPlain ss) i a d).1 (front.each _ old)
      rw [← View.forestFront ts inside] at site
      exact siteMono (fun b e known => List.mem_append_left _ known) ((siteBelow plain i a d).2 site)
    · obtain ⟨⟨_, d⟩, old, rfl⟩ := List.mem_map.1 moved
      obtain ⟨i, a, here, _⟩ := late (List.mem_map_of_mem old)
      cases here
      have site := (siteBelow (View.forestPlain ts) i a d).1 (back.each _ old)
      rw [← View.forestBack ss] at site
      refine (siteBelow plain _ a d).2 (siteMono (fun b e known => ?_) site)
      exact List.mem_append_right _ (List.mem_map.2 ⟨(i :: b, e), known, rfl⟩)

theorem sitedPlain {s : Stmt} (unnamed : s.className? = none) (ordinary : s.isFunction = false)
    (sited : Sited (View.forest s.body) scope outer sites) : Sited s.at? scope outer sites := by
  have plain : View.Plain s.at? := fun t root => by
    cases Option.some.inj root
    exact ⟨unnamed, ordinary⟩
  have inner := View.forestPlain s.body
  refine ⟨sited.order, fun a => ?_, fun x member => ?_⟩
  · rw [sited.exact]
    cases a with
    | nil => exact iff_of_false (View.rootNotStatic inner) (View.rootNotStatic plain)
    | cons i a => exact (View.plainStatic inner i a).trans (View.plainStatic plain i a).symm
  · obtain ⟨i, a, here, _⟩ := View.forestStatic ((sited.exact _).1 (List.mem_map_of_mem member))
    obtain ⟨_, d⟩ := x
    cases here
    exact (siteBelow plain i a d).2 ((siteBelow inner i a d).1 (sited.each _ member))

theorem sitedFunction {s : Stmt} (unnamed : s.className? = none) (function : s.isFunction = true) :
    Sited s.at? scope outer [] := by
  refine ⟨.nil, fun a => ?_, by simp⟩
  have here : View.classAt? s.at? [] = none := unnamed
  cases a with
  | nil => simp [View.Static, here]
  | cons i a =>
    have root : s.at? [] = some s := rfl
    simp [View.staticBelow, root, function]

theorem sitedClass {d : ClassDecl} {name : Identifier} {decorators : List Expr} {start : Position}
    (declared : d.decorators = decorators.map decoratorName) (inside : d.scope = scope ++ [name.text])
    (owner : d.symbol.owner? = outer) (sited : Sited (View.forest d.body) d.scope (some d.symbol) sites) :
    Sited (Stmt.classDef name decorators d.bases d.body start).at? scope outer (([], d) :: sites) := by
  have inner := View.forestPlain d.body
  have root : View.classAt? (Stmt.classDef name decorators d.bases d.body start).at? [] = some name.text := rfl
  refine ⟨?_, fun a => ?_, fun x member => ?_⟩
  · refine List.pairwise_cons.2 ⟨fun a later => ?_, sited.order⟩
    obtain ⟨i, b, rfl, _⟩ := View.forestStatic ((sited.exact a).1 later)
    exact List.nil_lt_cons i b
  · rw [List.map_cons, List.mem_cons, sited.exact]
    cases a with
    | nil =>
      refine iff_of_true (.inl rfl) ⟨by rw [root]; rfl, ?_⟩
      intro b member s here
      cases List.mem_singleton.1 member
      cases Option.some.inj here
      rfl
    | cons i a =>
      have ordinary : ∀ s, (Stmt.classDef name decorators d.bases d.body start).at? [] = some s → s.isFunction = false := by
        intro s here
        cases Option.some.inj here
        rfl
      rw [View.plainStatic inner, View.staticBelow]
      exact ⟨fun known => ⟨ordinary, known.resolve_left (by simp)⟩, fun static => .inr static.2⟩
  · rcases List.mem_cons.1 member with rfl | later
    · exact ⟨⟨name, decorators, start, rfl, declared⟩, inside, by simp [View.enclosing?], fun _ => owner⟩
    · obtain ⟨i, a, here, _⟩ := View.forestStatic ((sited.exact _).1 (List.mem_map_of_mem later))
      obtain ⟨_, e⟩ := x
      cases here
      have site := (siteBelow inner i a e).1 (sited.each _ later)
      exact siteNested root (List.mem_cons_self ..) (siteMono (fun b e known => List.mem_cons_of_mem _ known) (inside ▸ site))

end

mutual
theorem sitesOf (v : Vocabulary) (m : Module) (index : Nat) : (s : Stmt) → ∀ (serial : Nat) (scope : List String)
    (outer : Option Symbol), ∃ sites : List (List Nat × ClassDecl),
      sites.map (·.2) = classesOf v m index serial scope outer s ∧ Sited s.at? scope outer sites
  | .classDef name decorators bases body start, serial, scope, outer => by
    have owner := declareOwner v m index serial scope outer name decorators bases body start
    obtain ⟨inner, same, sited⟩ := sitesIn v m index body (serial + 1) (scope ++ [name.text])
      (some (declareClass v m index serial scope outer name decorators bases body start).symbol)
    refine ⟨([], declareClass v m index serial scope outer name decorators bases body start) :: inner, ?_,
      sitedClass rfl rfl owner sited⟩
    rw [classesOf, List.map_cons, same]
  | .compound body, serial, scope, outer => by
    obtain ⟨sites, same, sited⟩ := sitesIn v m index body serial scope outer
    exact ⟨sites, by rw [same, classesOf], sitedPlain rfl rfl sited⟩
  | .functionDef _ _ _ _ _ _, serial, scope, outer => ⟨[], rfl, sitedFunction rfl rfl⟩
  | .assign _ _, _, _, _ | .annAssign _ _ _, _, _, _ | .importNames _, _, _, _ | .importFrom _ _ _, _, _, _ | .other, _, _, _ =>
    ⟨[], rfl, sitedPlain rfl rfl sitedNil⟩
theorem sitesIn (v : Vocabulary) (m : Module) (index : Nat) : (body : List Stmt) → ∀ (serial : Nat) (scope : List String)
    (outer : Option Symbol), ∃ sites : List (List Nat × ClassDecl),
      sites.map (·.2) = classesIn v m index serial scope outer body ∧ Sited (View.forest body) scope outer sites
  | [], _, _, _ => ⟨[], rfl, sitedNil⟩
  | s :: rest, serial, scope, outer => by
    obtain ⟨here, same, sited⟩ := sitesOf v m index s serial scope outer
    obtain ⟨later, same', sited'⟩ := sitesIn v m index rest (serial + (classesOf v m index serial scope outer s).length) scope outer
    refine ⟨_, ?_, sitedAppend (sitedSingle sited) sited'⟩
    rw [classesIn, ← same', ← same]
    simp [Function.comp_def]
end

/-! Names. -/

/-- A class around others has the name of its path inside the module. -/
structure NamedAround (m : Module) (scope : List String) (outer : Option Symbol) : Prop where
  top : outer = none → scope = []
  inner : ∀ o, outer = some o → scope ≠ [] ∧ o.qualifiedName = m.name ++ "." ++ dotted scope

theorem declareNamed {m : Module} {scope : List String} {outer : Option Symbol} (around : NamedAround m scope outer) (v : Vocabulary)
    (index serial : Nat) (name : Identifier) (decorators bases : List Expr) (body : List Stmt) (start : Position) :
    (declareClass v m index serial scope outer name decorators bases body start).symbol.qualifiedName =
      m.name ++ "." ++ dotted (scope ++ [name.text]) := by
  cases outer with
  | none =>
    rw [around.top rfl]
    simp [declareClass, Symbol.qualifiedName, dotted]
  | some o =>
    obtain ⟨filled, outside⟩ := around.inner o rfl
    simp only [declareClass, Symbol.qualifiedInside, outside, dotted]
    rw [String.intercalate_append_of_ne_nil filled (by simp)]
    simp [String.append_assoc]

mutual
theorem classesOfNamed (v : Vocabulary) (m : Module) (index : Nat) : (s : Stmt) → ∀ (serial : Nat) (scope : List String)
    (outer : Option Symbol), NamedAround m scope outer → ∀ d ∈ classesOf v m index serial scope outer s,
      d.symbol.qualifiedName = m.name ++ "." ++ dotted d.scope ∧ d.symbol.isClass = true
  | .classDef name decorators bases body start, serial, scope, outer, around => by
    have named := declareNamed around v index serial name decorators bases body start
    intro d member
    rw [classesOf] at member
    rcases List.mem_cons.1 member with rfl | nested
    · exact ⟨named, declareKind v m index serial scope outer name decorators bases body start⟩
    · refine classesInNamed v m index body _ _ _ ⟨by simp, fun o same => ?_⟩ d nested
      cases same
      exact ⟨by simp, named⟩
  | .compound body, serial, scope, outer, around => by
    rw [classesOf]
    exact classesInNamed v m index body serial scope outer around
  | .assign _ _, _, _, _, _ | .annAssign _ _ _, _, _, _, _ | .importNames _, _, _, _, _ | .importFrom _ _ _, _, _, _, _
  | .functionDef _ _ _ _ _ _, _, _, _, _ | .other, _, _, _, _ => by simp [classesOf]
theorem classesInNamed (v : Vocabulary) (m : Module) (index : Nat) : (body : List Stmt) → ∀ (serial : Nat) (scope : List String)
    (outer : Option Symbol), NamedAround m scope outer → ∀ d ∈ classesIn v m index serial scope outer body,
      d.symbol.qualifiedName = m.name ++ "." ++ dotted d.scope ∧ d.symbol.isClass = true
  | [], _, _, _, _ => by simp [classesIn]
  | s :: rest, serial, scope, outer, around => by
    intro d member
    rw [classesIn] at member
    rcases List.mem_append.1 member with first | later
    · exact classesOfNamed v m index s serial scope outer around d first
    · exact classesInNamed v m index rest _ scope outer around d later
end

namespace Program

/-- The statements of all modules; the first position of an address is that of the module. -/
def view (p : Program) : View := View.forest (p.modules.map fun m => .compound m.body)

/-- The qualified name of a class at an address: that of the module and the path inside it. -/
def nameAt? (p : Program) (a : List Nat) : Option String := do
  let i ← a.head?
  let m ← p.modules[i]?
  return m.name ++ "." ++ dotted (p.view.path a)

structure Surveyed (p : Program) (sites : List (List Nat × ClassDecl)) : Prop where
  decls : sites.map (·.2) = p.decls
  sited : Sited p.view [] none sites
  homes : ∀ x ∈ sites, x.1.head? = some x.2.module
  named : ∀ d ∈ p.decls, d.symbol.isClass = true ∧ ∃ m, p.modules[d.module]? = some m ∧
    d.symbol.qualifiedName = m.name ++ "." ++ dotted d.scope

theorem extendSurveyed {p : Program} {sites : List (List Nat × ClassDecl)} (surveyed : p.Surveyed sites) (m : Module) :
    ∃ sites', (p.extend m).Surveyed sites' := by
  obtain ⟨here, same, sited⟩ := sitesIn p.vocabulary { m with classes := [] } p.modules.length m.body p.decls.length [] none
  have single : Sited (View.forest [.compound m.body]) [] none (here.map fun x => (0 :: x.1, x.2)) :=
    sitedSingle (sitedPlain rfl rfl sited)
  have statements : (p.extend m).view = View.forest ((p.modules.map fun m => .compound m.body) ++ [.compound m.body]) := by
    simp [view, extend]
  have new : ∀ d ∈ here.map (·.2), d.module = p.modules.length := by
    rw [same]
    exact classesInModule _ _ _ _ _ _ _
  refine ⟨_, ?_, statements ▸ sitedAppend surveyed.sited single, fun x member => ?_, fun d member => ?_⟩
  · simp [surveyed.decls, extend, same, Function.comp_def]
  · rcases List.mem_append.1 member with old | moved
    · exact surveyed.homes x old
    · obtain ⟨y, single, rfl⟩ := List.mem_map.1 moved
      obtain ⟨z, found, rfl⟩ := List.mem_map.1 single
      simp [View.shift, new z.2 (List.mem_map_of_mem found)]
  · rcases List.mem_append.1 member with old | fresh
    · obtain ⟨kind, m', home, name⟩ := surveyed.named d old
      refine ⟨kind, m', ?_, name⟩
      simp [extend, List.getElem?_append_left (List.getElem?_eq_some_iff.1 home).1, home]
    · obtain ⟨name, kind⟩ := classesInNamed _ _ _ _ _ _ _ ⟨fun _ => rfl, by simp⟩ d fresh
      exact ⟨kind, m, by simp [extend, new d (same ▸ fresh)], name⟩

theorem extendAllSurveyed (ms : List Module) {p : Program} {sites : List (List Nat × ClassDecl)} (surveyed : p.Surveyed sites) :
    ∃ sites', (ms.foldl extend p).Surveyed sites' := by
  induction ms generalizing p sites with
  | nil => exact ⟨sites, surveyed⟩
  | cons m ms ih =>
    obtain ⟨sites', next⟩ := extendSurveyed surveyed m
    exact ih next

theorem addedModules {sources : List ModuleSource} {p q : Program} (added : sources.foldlM addSource p = .ok q) :
    ∃ ms, q = ms.foldl extend p ∧
      List.Forall₂ (fun s m => m.name = s.name ∧ parseModule s.code = .ok m.body) sources ms := by
  induction sources generalizing p with
  | nil => exact ⟨[], (Except.ok.inj added).symm, .nil⟩
  | cons s sources ih =>
    rw [List.foldlM_cons] at added
    obtain ⟨next, done, rest⟩ := bindOk added
    obtain ⟨m, _, rfl, name, read, _⟩ := addedModule done
    obtain ⟨ms, rfl, each⟩ := ih rest
    exact ⟨m :: ms, rfl, .cons ⟨name, read⟩ each⟩

section
variable {charset : CharacterNames}

/-! When a build fails. -/

theorem buildFails {p : Program} {e : ProgramError} (failed : p.build.2 = .error e) :
    (∃ l, e = .literal l) ∨ ∃ f, e = .graph f := by
  simp only [build] at failed
  cases result : (p.bindModules p.modules {}).2 with
  | error l =>
    simp only [result] at failed
    cases failed
    exact .inl ⟨l, rfl⟩
  | ok t =>
    simp only [result, graphOf] at failed
    split at failed
    · cases failed
      exact .inl ⟨_, rfl⟩
    · split at failed
      · cases failed
        exact .inr ⟨_, rfl⟩
      · cases failed

theorem buildsDistinct {p : Program} (classes : ∀ d ∈ p.decls, d.symbol.isClass = true) (clean : p.annotationFault? = none)
    (distinct : (p.decls.map (·.symbol.qualifiedName)).Nodup) : ∃ g, p.build.2 = .ok g := by
  rw [annotationsFault, Option.or_eq_none_iff, faultNone, faultNone] at clean
  obtain ⟨⟨bs, bound⟩, entries, elaborated⟩ := clean
  have symbols : p.decls.map (·.symbol) = entries.map (·.symbol) :=
    relatedMap (mapMEach elaborated) fun d _ e made => (elaborateMember made).1.symm
  have same (s : Symbol) : (∃ d ∈ p.decls, d.symbol = s) ↔ ∃ e ∈ entries, e.symbol = s := by
    rw [← List.mem_map, symbols, List.mem_map]
  have kinds : ∀ e ∈ entries, e.symbol.isClass = true := by
    intro e member
    obtain ⟨d, declared, here⟩ := (same e.symbol).2 ⟨e, member, rfl⟩
    exact here ▸ classes d declared
  have names : (entries.map (·.symbol.qualifiedName)).Nodup := by
    have names := congrArg (List.map (·.qualifiedName)) symbols
    simp only [List.map_map, Function.comp_def] at names
    exact names ▸ distinct
  obtain ⟨g, built⟩ := Graph.buildSucceeds (p.topLevel bs).aliases kinds names fun s listed => (same s).1 (ownersKnown listed)
  exact ⟨g, buildsBuild ⟨bound, elaborated, built⟩⟩

theorem buildClashes {p : Program} (classes : ∀ d ∈ p.decls, d.symbol.isClass = true) (clean : p.annotationFault? = none) :
    ((∃ g, p.build.2 = .ok g) ↔ (p.decls.map (·.symbol.qualifiedName)).Nodup) ∧
      ((∃ e, p.build.2 = .error (.graph e)) ↔ ¬ (p.decls.map (·.symbol.qualifiedName)).Nodup) := by
  have builds : (∃ g, p.build.2 = .ok g) ↔ (p.decls.map (·.symbol.qualifiedName)).Nodup := by
    refine ⟨fun ⟨g, done⟩ => ?_, buildsDistinct classes clean⟩
    obtain ⟨_, _, parts⟩ := buildBuilds done
    exact (buildsDecls parts).2
  refine ⟨builds, ?_⟩
  rw [← builds]
  constructor
  · rintro ⟨e, failed⟩ ⟨g, done⟩
    rw [failed] at done
    cases done
  · intro fails
    cases result : p.build.2 with
    | ok g => exact absurd ⟨g, result⟩ fails
    | error e =>
      -- A literal is no reason here, so it is the graph that is refused.
      rcases buildFails result with ⟨l, rfl⟩ | ⟨f, rfl⟩
      · rw [buildLiteral, clean] at result
        cases result
      · exact ⟨f, rfl⟩

/-- Two class statements with the same qualified name. -/
def Clash (p : Program) : Prop := ∃ a b, p.view.Static a ∧ p.view.Static b ∧ a ≠ b ∧ p.nameAt? a = p.nameAt? b

section
variable {p : Program} {sites : List (List Nat × ClassDecl)} (surveyed : p.Surveyed sites)
include surveyed

theorem surveyedName {x : List Nat × ClassDecl} (member : x ∈ sites) : p.nameAt? x.1 = some x.2.symbol.qualifiedName := by
  have declared : x.2 ∈ p.decls := surveyed.decls ▸ List.mem_map_of_mem member
  obtain ⟨_, m, home, name⟩ := surveyed.named x.2 declared
  have scope := (surveyed.sited.each x member).scope
  simp [nameAt?, surveyed.homes x member, home, name, scope]

theorem surveyedClash : p.Clash ↔ ¬ (p.decls.map (·.symbol.qualifiedName)).Nodup := by
  have addresses : (sites.map (·.1)).Nodup := surveyed.sited.order.imp fun less => ne_of_lt less
  have names : (p.decls.map (·.symbol.qualifiedName)).map some = (sites.map (·.1)).map p.nameAt? := by
    rw [← surveyed.decls]
    simp only [List.map_map]
    exact List.map_congr_left fun x member => (surveyedName surveyed member).symm
  rw [← List.nodup_map_iff (fun _ _ => Option.some.inj), names, List.nodup_map_iff_inj_on addresses]
  simp only [surveyed.sited.exact]
  constructor
  · rintro ⟨a, b, here, there, apart, same⟩ unique
    exact apart (unique a here b there same)
  · intro repeated
    by_contra unique
    exact repeated fun a here b there same => by_contra fun apart => unique ⟨a, b, here, there, apart, same⟩

end

/-- The classes of the modules added to a program are the class statements that are in no function, each once: module by module, in
the order of the text, outer classes before those nested in them. Each has the name of its module and of the classes around it, and
the nearest of these is its owner. If the literals in annotations are sound, a graph is refused exactly if two such statements have the
same name. -/
theorem classesSurveyed {s : Settings} {sources : List ModuleSource} {p : Program}
    (added : sources.foldlM addSource (ofSettings s) = .ok p) :
    List.Forall₂ (fun source m => m.name = source.name ∧ parseModule source.code = .ok m.body) sources p.modules ∧
    (∃ sites : List (List Nat × ClassDecl), sites.map (·.2) = p.decls ∧ (sites.map (·.1)).Pairwise (· < ·) ∧
      (∀ a, a ∈ sites.map (·.1) ↔ p.view.Static a) ∧
      ∀ a d, (a, d) ∈ sites →
        (∃ name decorators start, p.view a = some (.classDef name decorators d.bases d.body start)) ∧
        p.nameAt? a = some d.symbol.qualifiedName ∧
        (p.view.enclosing? a = none → d.symbol.owner? = none) ∧
        ∀ b, p.view.enclosing? a = some b → ∃ e, (b, e) ∈ sites ∧ d.symbol.owner? = some e.symbol) ∧
    (p.annotationFault? = none →
      ((∃ e, p.build.2 = .error (.graph e)) ↔ p.Clash) ∧ ((∃ g, p.build.2 = .ok g) ↔ ¬ p.Clash)) := by
  obtain ⟨ms, rfl, each⟩ := addedModules added
  have start : (ofSettings s).Surveyed [] := ⟨rfl, sitedNil, by simp, by simp [ofSettings]⟩
  obtain ⟨sites, surveyed⟩ := extendAllSurveyed ms start
  obtain ⟨_, modules⟩ := extendAll ms (ofSettings s)
  have clash := surveyedClash surveyed
  refine ⟨?_, ⟨sites, surveyed.decls, surveyed.sited.order, surveyed.sited.exact, fun a d member => ?_⟩, fun clean => ?_⟩
  · rw [modules]
    simpa [ofSettings] using each
  · obtain ⟨⟨name, decorators, begins, here, _⟩, _, nested, outermost⟩ := surveyed.sited.each _ member
    exact ⟨⟨name, decorators, begins, here⟩, surveyedName surveyed member, outermost, nested⟩
  · obtain ⟨builds, fails⟩ := buildClashes (fun d declared => (surveyed.named d declared).1) clean
    rw [clash, not_not]
    exact ⟨fails, builds⟩

end

/-- A nested class of one module against a class of another, beside a class in a block and one in a function. -/
def nestedAndDotted : List ModuleSource :=
  [{ code := "class b:\n  class C: pass\nif x:\n  class D: pass\ndef f():\n  class E: pass\n", name := "a" },
    { code := "class C: pass\n", name := "a.b" }]

theorem nestedAndDottedClash : ∃ p, nestedAndDotted.foldlM addSource (ofSettings {}) = .ok p ∧
    p.decls.map (·.symbol.qualifiedName) = ["a.b", "a.b.C", "a.D", "a.b.C"] ∧ p.annotationFault? = none ∧ p.Clash ∧
    ∃ e, p.build.2 = .error (.graph e) := by
  have seen : (nestedAndDotted.foldlM addSource (ofSettings {})).toOption.any (fun p =>
      p.decls.map (·.symbol.qualifiedName) == ["a.b", "a.b.C", "a.D", "a.b.C"] && p.annotationFault?.isNone &&
        p.build.2.toOption.isNone) = true := by decide +kernel
  cases added : nestedAndDotted.foldlM addSource (ofSettings {}) with
  | error e => rw [added] at seen; cases seen
  | ok p =>
    rw [added] at seen
    simp only [Except.toOption, Option.any_some, Bool.and_eq_true, beq_iff_eq, Option.isNone_iff_eq_none] at seen
    obtain ⟨⟨names, clean⟩, failed⟩ := seen
    obtain ⟨refuses, builds⟩ := (classesSurveyed added).2.2 clean
    have clash : p.Clash := by
      by_contra apart
      obtain ⟨g, done⟩ := builds.2 apart
      rw [done] at failed
      cases failed
    exact ⟨p, rfl, names, clean, clash, refuses.2 clash⟩

end Program
end SharedState
