import SharedState.Proofs.Declarations
import SharedState.Proofs.Sessions

/-! Written graphs. The text of a graph is read back as the document that was written, and every graph that is built from modules can
be written, whatever they are called and wherever they come from. -/
namespace SharedState

open SharedState.Source SharedState.Text

namespace Graph

/- Whatever is written is read again: the names of aliases are distinct, and all else was checked when it was written. -/
theorem writtenParse {g : Graph} {doc : Document} (names : (g.aliases.map (·.1)).Nodup) (written : g.toDocument = .ok doc) :
    g.dump = .ok doc.render ∧ Document.parse doc.render = .ok doc := by
  obtain ⟨⟨classes, _⟩, rfl⟩ := (writtenIff g doc).1 written
  refine ⟨by rw [dump, written]; rfl, Document.parseRendered ⟨fun c member => ?_, ?_⟩⟩
  · obtain ⟨e, inside, rfl⟩ := List.mem_map.1 member
    exact classes e inside
  · simpa [document, own, Function.comp_def] using names

end Graph

/-! What modules declare can be written. -/

theorem elementsTold {t : TypeRef} (full : t.hasElements = true) : t.Told := by
  obtain ⟨text, told⟩ := Option.isSome_iff_exists.1 (TypeRef.textOfElements t full)
  rw [TypeRef.Told, TypeRef.shownOf told, told]

structure ClassDecl.Located (d : ClassDecl) : Prop where
  named : d.symbol.qualifiedName ≠ ""
  placed : ∀ l ∈ d.symbol.location, 1 ≤ l.line ∧ 1 ≤ l.column

theorem declareLocated (v : Vocabulary) (m : Module) (index serial : Nat) (scope : List String) (outer : Option Symbol)
    (name : Identifier) (decorators bases : List Expr) (body : List Stmt) (start : Position) :
    (declareClass v m index serial scope outer name decorators bases body start).Located := by
  cases outer with
  | none =>
    exact ⟨by simp [declareClass, Symbol.qualifiedName], placedAt m.path start⟩
  | some o =>
    refine ⟨?_, placedAt m.path start⟩
    simp only [declareClass, Symbol.qualifiedInside]
    exact joinedFilled _ _

section
variable {p : Viewpoint} {d : ClassDecl} {charset : CharacterNames}

theorem statedValid {m : Declaration} (stated : Stated p d m) (cls : Symbol) (serial : Nat) :
    (cls.inside { m with serial }).spec.Valid := by
  cases stated with
  | field id sort noted start ofInstance =>
    refine ⟨wordNonempty id.plain.1, ?_, fun other => ?_, placesValid (placedAt p.module.path start)⟩
    · rcases sort with rfl | rfl <;> rfl
    · rcases sort with rfl | rfl <;> cases other
  | function name decorators start isMember =>
    exact ⟨wordNonempty name.plain.1, isMember, fun _ => rfl, placesValid (placedAt p.module.path start)⟩
  | accessor name decorators start noted =>
    exact ⟨wordNonempty name.plain.1, rfl, fun _ => rfl, placesValid (placedAt p.module.path start)⟩
  | nested name start =>
    exact ⟨wordNonempty name.plain.1, rfl, fun _ => rfl, placesValid (placedAt p.module.path start)⟩

theorem elaborateValid {e : ClassEntry} (made : elaborateClass p d = .ok e) : ∀ m ∈ e.members, m.spec.Valid := by
  unfold elaborateClass at made
  obtain ⟨found, declared, made⟩ := bindOk made
  obtain ⟨parents, _, made⟩ := bindOk made
  cases Except.ok.inj made
  intro m member
  obtain ⟨n, inside, rfl⟩ := List.mem_map.1 member
  rcases addedMembers inside with impossible | ⟨o, here, serial, rfl⟩
  · cases impossible
  · exact statedValid (bodyStated declared o here) d.symbol serial

theorem elaborateTold {e : ClassEntry} (made : elaborateClass p d = .ok e) : ∀ t ∈ e.own.types, t.Told := by
  intro t typed
  rcases List.mem_append.1 typed with declared | parent
  · obtain ⟨m, member, declared⟩ := List.mem_filterMap.1 declared
    exact elementsTold (elaborateElements made m (List.mem_filter.1 member).1 t declared)
  · exact elementsTold (elaborateParents made t parent)

end

namespace Program

variable {charset : CharacterNames}

theorem elaborateWritten {p : Program} {d : ClassDecl} (located : d.Located) {e : ClassEntry} (made : p.elaborate d = .ok e)
    (kind : e.symbol.isClass = true) : e.own.spec.Valid ∧ ∀ t ∈ e.own.types, t.Told := by
  have symbol := (elaborateMember made).1
  have members : (∀ m ∈ e.members, m.spec.Valid) ∧ ∀ t ∈ e.own.types, t.Told := by
    unfold elaborate at made
    split at made
    · exact ⟨elaborateValid made, elaborateTold made⟩
    · cases Except.ok.inj made
      exact ⟨by simp, by simp [ClassEntry.own, ClassEntry.types]⟩
  obtain ⟨named, placed⟩ := located
  rw [← symbol] at named placed
  refine ⟨⟨named, ClassEntry.ownerFirst e.own, kind, fun m member => ?_, placesValid placed⟩, members.2⟩
  obtain ⟨n, inside, rfl⟩ := List.mem_map.1 member
  exact members.1 n (List.mem_filter.1 inside).1

theorem aliasTold {v : Vocabulary} {m : Module} {name : String} {type : TypeRef} (aliased : Aliased v m name type) : type.Told := by
  cases aliased with
  | name plain target => exact elementsTold rfl
  | written plain read typed => exact elementsTold ((TypeReader.convertClosed (TypeRef.elementsClosed _) read).type type typed)

theorem buildWritten {p : Program} (located : ∀ d ∈ p.decls, d.Located) {g : Graph} (done : p.build.2 = .ok g) :
    ∃ doc, g.toDocument = .ok doc := by
  obtain ⟨bs, entries, bound, elaborated, built⟩ := buildBuilds done
  have source := Graph.buildSource built
  have each : ∀ e ∈ g.entries, e.own.spec.Valid ∧ ∀ t ∈ e.own.types, t.Told := by
    intro e known
    obtain ⟨d, declared, made⟩ := relatedRight (mapMEach elaborated) e (source.entries ▸ known)
    exact elaborateWritten (located d declared) made (source.kinds e known)
  refine ⟨_, (g.writtenIff _).2 ⟨⟨fun e member => ?_, fun t typed => ?_⟩, rfl⟩⟩
  · obtain ⟨f, inside, rfl⟩ := List.mem_map.1 member
    exact (each f inside).1
  · rcases List.mem_append.1 typed with within | aliased
    · obtain ⟨e, member, here⟩ := List.mem_flatMap.1 within
      obtain ⟨f, inside, rfl⟩ := List.mem_map.1 member
      exact (each f inside).2 t here
    · obtain ⟨a, inside, rfl⟩ := List.mem_map.1 aliased
      have listed := source.aliases a inside
      rw [topLevelAliases bound] at listed
      have own := ((bindAllKept _ [] (by simp)).2 a listed).resolve_right (by simp)
      obtain ⟨m, _, here⟩ := List.mem_flatMap.1 own
      exact aliasTold (ownAliased here)

theorem nextLocated {p : Program} (located : ∀ d ∈ p.decls, d.Located) (s : Step) : ∀ d ∈ (p.next s).decls, d.Located := by
  cases refused : p.refused s with
  | true => rwa [refusedNext refused]
  | false =>
    cases adds : s.adds with
    | false =>
      cases s with
      | build =>
        rw [nextBuild, buildProgram]
        exact located
      | _ => cases adds
    | true =>
      obtain ⟨source, given, q, done⟩ := (acceptedSource adds).1 refused
      obtain ⟨m, _, extended, _⟩ := addedModule done
      rw [nextSource given done, extended]
      intro d member
      rcases List.mem_append.1 member with old | new
      · exact located d old
      · exact classesInEach (declareLocated _ _ _) _ _ _ _ d new

theorem afterLocated {p : Program} (located : ∀ d ∈ p.decls, d.Located) (steps : List Step) :
    ∀ d ∈ (p.after steps).decls, d.Located := by
  induction steps generalizing p with
  | nil => exact located
  | cons s steps ih => exact ih (nextLocated located s)

end Program

theorem documentsDecode :
    (∀ (s : Settings) (steps : List Program.Step) (g : Graph), ((Program.ofSettings s).after steps).build.2 = .ok g →
      ∃ doc, g.toDocument = .ok doc) ∧
    ∀ (classes : List ClassEntry) (aliases : List (String × TypeRef)) (owners : List Symbol) (g : Graph) (doc : Document),
      Graph.build classes aliases owners = .ok g → g.toDocument = .ok doc →
        ∃ text, g.dump = .ok text ∧ Document.parse text = .ok doc := by
  constructor
  · intro s steps g done
    exact Program.buildWritten (Program.afterLocated (by simp [Program.ofSettings]) steps) done
  · intro classes aliases owners g doc built written
    obtain ⟨dumped, read⟩ := Graph.writtenParse (Graph.buildSource built).keys written
    exact ⟨doc.render, dumped, read⟩

/- A module whose name has to be escaped, with a nested class, an alias and a member that is no term. -/
def quotedSession : List Program.Step :=
  [.build, .add { code := "class A:\n  class B: pass\n  @x.deleter\n  def x(self): pass\nT = A\n", name := "\"\n😀" }]

theorem quotedSessionDecodes : ∃ g doc text, ((Program.ofSettings {}).after quotedSession).build.2 = .ok g ∧
    g.entries.map (·.symbol.qualifiedName) = ["\"\n😀.A", "\"\n😀.A.B"] ∧ g.toDocument = .ok doc ∧ g.dump = .ok text ∧
    Document.parse text = .ok doc := by
  have facts : ((Program.ofSettings {}).after quotedSession).build.2.toOption.map (·.entries.map (·.symbol.qualifiedName)) =
      some ["\"\n😀.A", "\"\n😀.A.B"] := by decide +kernel
  cases done : ((Program.ofSettings {}).after quotedSession).build.2 with
  | error e =>
    rw [done] at facts
    cases facts
  | ok g =>
    rw [done] at facts
    obtain ⟨bs, entries, _, _, built⟩ := Program.buildBuilds done
    obtain ⟨doc, written⟩ := documentsDecode.1 {} quotedSession g done
    obtain ⟨text, dumped, read⟩ := documentsDecode.2 _ _ _ g doc built written
    exact ⟨g, doc, text, rfl, Option.some.inj facts, written, dumped, read⟩

end SharedState
