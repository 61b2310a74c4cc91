import Mathlib.Data.List.Find
import SharedState.Proofs.Attempts
import SharedState.Proofs.Findings

/-! More markers. Walks over a graph and over the same graph with more markers part at the first symbol that is exempt in the
second only, and then meet what is left in another order. What they reach is compared instead: whatever is reached with more
markers is reached without them. -/
namespace SharedState

structure Declaration.Extends (d e : Declaration) : Prop where
  same : e = { d with markers := e.markers }
  more : d.markers ⊆ e.markers

/-- The second symbol is the first one with more markers on it or on what is around it. -/
structure Symbol.Extends (s t : Symbol) : Prop where
  own : s.toDeclaration.Extends t.toDeclaration
  around : List.Forall₂ Declaration.Extends s.enclosing t.enclosing

theorem Declaration.extendsLook {d e : Declaration} (more : d.Extends e) : d.look = e.look := by
  rw [more.same]
  rfl

namespace Symbol

variable {s t : Symbol}

theorem extendsLook (more : s.Extends t) : s.look = t.look := by
  have around : s.enclosing.map (·.look) = t.enclosing.map (·.look) :=
    relatedMap more.around fun _ _ _ more => Declaration.extendsLook more
  rw [look, look, Declaration.extendsLook more.own, around]

theorem extendsKind (more : s.Extends t) : t.kind = s.kind := congrArg (·.kind) more.own.same

theorem extendsMutable (more : s.Extends t) : t.mutable = s.mutable := congrArg (·.mutable) more.own.same

theorem extendsType (more : s.Extends t) : t.declaredType = s.declaredType := congrArg (·.declaredType) more.own.same

end Symbol

theorem Exemption.coversMore (x : Exemption) {s t : Symbol} (more : s.Extends t) (counts : x.covers t = false) :
    x.covers s = false := by
  obtain ⟨d, ds⟩ := s
  obtain ⟨e, es⟩ := t
  obtain ⟨own, around⟩ := more
  simp only [covers, Bool.or_eq_false_iff, List.contains_eq_mem, decide_eq_false_iff_not] at counts ⊢
  refine ⟨⟨fun h => counts.1.1 (own.more h), fun h => counts.1.2 (own.more h)⟩, ?_⟩
  cases around with
  | nil => rfl
  | @cons _ owner _ _ first rest =>
    have kind := congrArg (·.kind) first.same
    have plain : (owner.kind == Kind.enumHolder) = false := counts.2
    rwa [kind] at plain

def ClassEntry.renamed (f : Symbol → Symbol) (e : ClassEntry) : ClassEntry :=
  { symbol := f e.symbol, members := e.members.map f, parents := e.parents }

namespace Graph

def symbols (g : Graph) : List Symbol := g.entries.flatMap fun e => e.symbol :: e.members

/-- The second graph is the first one with more markers: each symbol, also each root outside the graph, has become another
one that differs from it in markers only, and different symbols have stayed different. -/
structure Annotated (f : Symbol → Symbol) (roots : List Symbol) (g g' : Graph) : Prop where
  entries : g'.entries = g.entries.map (·.renamed f)
  aliases : g'.aliases = g.aliases
  marked : ∀ s ∈ g.symbols ++ roots, s.Extends (f s)
  distinct : ∀ s ∈ g.symbols ++ roots, ∀ t ∈ g.symbols ++ roots, f s = f t → s = t

variable {f : Symbol → Symbol} {roots : List Symbol} {g g' : Graph}

theorem classSymbol {e : ClassEntry} (known : e ∈ g.entries) : e.symbol ∈ g.symbols :=
  List.mem_flatMap.mpr ⟨e, known, by simp⟩

theorem annotatedLookup (annotated : Annotated f roots g g') (name : String) : g'.lookup name = (g.lookup name).map f := by
  have names : ∀ e ∈ g.entries, ((f e.symbol).qualifiedName == name) = (e.symbol.qualifiedName == name) := by
    intro e known
    have look := Symbol.extendsLook (annotated.marked e.symbol (List.mem_append_left _ (classSymbol known)))
    rw [← Symbol.lookName (f e.symbol), ← look, Symbol.lookName]
  rw [lookup, lookup, annotated.entries, List.find?_map, Option.map_map, Option.map_map]
  exact congrArg _ (List.find?_congr names)

theorem annotatedEntry (annotated : Annotated f roots g g') {c : Symbol} (known : c ∈ g.symbols ++ roots) :
    g'.entry? (f c) = (g.entry? c).map (·.renamed f) := by
  have same : ∀ e ∈ g.entries, (f e.symbol == f c) = (e.symbol == c) := by
    intro e inside
    rw [Bool.eq_iff_iff, beq_iff_eq, beq_iff_eq]
    exact ⟨annotated.distinct _ (List.mem_append_left _ (classSymbol inside)) _ known, congrArg f⟩
  unfold entry?
  rw [annotated.entries, List.find?_map]
  exact congrArg _ (List.find?_congr same)

def Becomes (f : Symbol → Symbol) (roots : List Symbol) (g : Graph) (s t : Symbol) : Prop :=
  t = f s ∧ s ∈ g.symbols ++ roots

theorem annotatedMirrors (annotated : Annotated f roots g g') (x : Exemption) :
    Mirrors (Becomes f roots g) (Becomes f roots g) x g g' where
  found := by
    intro name c' found
    rw [annotatedLookup annotated, Option.map_eq_some_iff] at found
    obtain ⟨c, found, same⟩ := found
    obtain ⟨e, search, rfl⟩ := Option.map_eq_some_iff.mp found
    exact ⟨e.symbol, found, same.symm, List.mem_append_left _ (classSymbol (List.mem_of_find?_eq_some search))⟩
  missing := by
    intro name missing
    rwa [annotatedLookup annotated, Option.map_eq_none_iff] at missing
  aliases name := by rw [annotated.aliases]
  entries := by
    rintro c _ e' ⟨rfl, known⟩ found
    rw [annotatedEntry annotated known, Option.map_eq_some_iff] at found
    obtain ⟨e, found, rfl⟩ := found
    refine ⟨e, found, rfl, fun m' listed => ?_⟩
    obtain ⟨m, inside, rfl⟩ := List.mem_map.mp listed
    refine ⟨m, inside, rfl, List.mem_append_left _ ?_⟩
    exact List.mem_flatMap.mpr ⟨e, List.mem_of_find?_eq_some found, by simp [inside]⟩
  classCounts := by
    rintro c _ ⟨rfl, known⟩
    exact Exemption.coversMore x (annotated.marked c known)
  memberCounts := by
    rintro m _ ⟨rfl, known⟩
    exact Exemption.coversMore x (annotated.marked m known)
  alike := by
    rintro m _ ⟨rfl, known⟩
    have more := annotated.marked m known
    exact ⟨Symbol.extendsKind more, Symbol.extendsMutable more, Symbol.extendsType more⟩

/-- If a run comes to an end, so does the run with more markers. It visits no other classes, flags no other symbols, and
finds nothing else. -/
theorem markingNarrows (annotated : Annotated f roots g g') (s : Settings) {run : CheckRun}
    (done : g.checkFrom s roots = .ok run) :
    ∃ run', g'.checkFrom s (roots.map f) = .ok run' ∧
      run'.result.visitedClasses ⊆ run.result.visitedClasses ∧ run'.result.diagnostics ⊆ run.result.diagnostics ∧
      (s.checkReentrant = true → ∃ w w', roots.foldlM (s.scanner g).scan {} = .ok w ∧
        (roots.map f).foldlM (s.scanner g').scan {} = .ok w' ∧
        w'.visited ⊆ w.visited.map f ∧ w'.flagged ⊆ w.flagged.map f) := by
  cases on : s.checkReentrant with
  | false =>
    rw [checkOff g on] at done
    cases Except.ok.inj done
    exact ⟨_, checkOff g' on _, by simp, by simp, by simp⟩
  | true =>
    obtain ⟨w, scanned⟩ := checkDone on done
    rw [checkOn on scanned] at done
    cases Except.ok.inj done
    have exact := Scanner.scanExact scanned
    have starts : ∀ r' ∈ roots.map f, ∃ r ∈ roots, Becomes f roots g r r' := by
      intro r' listed
      obtain ⟨r, start, rfl⟩ := List.mem_map.mp listed
      exact ⟨r, start, rfl, List.mem_append_right _ start⟩
    have follows := mirrorsFollows (annotatedMirrors annotated s.exemption) starts
    have looks : ∀ a b, Becomes f roots g a b → a.look = b.look := by
      rintro a _ ⟨rfl, known⟩
      exact Symbol.extendsLook (annotated.marked a known)
    have classes : ∀ r ∈ roots.map f, r.isClass = true := by
      intro r' listed
      obtain ⟨r, start, rfl⟩ := List.mem_map.mp listed
      have kind := Symbol.extendsKind (annotated.marked r (List.mem_append_right _ start))
      rw [Symbol.isClass, kind]
      exact Scanner.scanClasses scanned r start
    obtain ⟨w', scanned'⟩ := Scanner.followsReturns follows rfl looks exact classes
    have exact' := Scanner.scanExact scanned'
    obtain ⟨visited, found⟩ := Scanner.followsShown follows rfl looks looks exact exact'
    refine ⟨_, checkOn on scanned', visited, found, fun _ => ⟨w, w', scanned, scanned', fun c' inside => ?_, fun m' flagged => ?_⟩⟩
    · obtain ⟨c, ⟨rfl, _⟩, reached⟩ := Scanner.followsReached follows ((exact'.visited c').mp inside)
      exact List.mem_map_of_mem ((exact.visited c).mpr reached)
    · obtain ⟨c', reached, exposed⟩ := (exact'.flagged m').mp flagged
      obtain ⟨c, m, ⟨rfl, _⟩, before, declared⟩ := Scanner.followsExposed follows reached exposed
      exact List.mem_map_of_mem ((exact.flagged m).mpr ⟨c, before, declared⟩)

/-- Marks every class of this name, also where it is around others. -/
def withhold (name : String) (s : Symbol) : Symbol :=
  let mark (d : Declaration) : Declaration := if d.name == name then { d with markers := "unshared" :: d.markers } else d
  { toDeclaration := mark s.toDeclaration, enclosing := s.enclosing.map mark }

theorem withholdExtends (name : String) (s : Symbol) : s.Extends (withhold name s) := by
  have each (d : Declaration) :
      d.Extends (if d.name == name then { d with markers := "unshared" :: d.markers } else d) := by
    split
    · exact ⟨rfl, List.subset_cons_self _ _⟩
    · exact ⟨rfl, List.Subset.refl _⟩
  exact ⟨each _, List.forall₂_map_right_iff.mpr (List.forall₂_same.mpr fun d _ => each d)⟩

theorem mutualParentsNarrowed :
    ∃ run run', mutualParents.checkFrom {} mutualParents.staticOwners = .ok run ∧
      Graph.checkFrom { mutualParents with entries := mutualParents.entries.map (·.renamed (withhold "B")) } {}
        (mutualParents.staticOwners.map (withhold "B")) = .ok run' ∧
      run.result.visitedClasses = ["A", "B"] ∧ run'.result.visitedClasses ⊆ run.result.visitedClasses ∧
      run'.result.diagnostics ⊆ run.result.diagnostics := by
  have annotated : Annotated (withhold "B") mutualParents.staticOwners mutualParents
      { mutualParents with entries := mutualParents.entries.map (·.renamed (withhold "B")) } :=
    ⟨rfl, rfl, fun s _ => withholdExtends "B" s, by decide +kernel⟩
  obtain ⟨run, done, visited⟩ : ∃ run, mutualParents.checkFrom {} mutualParents.staticOwners = .ok run ∧
      run.result.visitedClasses = ["A", "B"] := ⟨_, rfl, by decide +kernel⟩
  obtain ⟨run', done', classes, found, _⟩ := markingNarrows annotated {} done
  exact ⟨run, run', done, done', visited, classes, found⟩

end Graph
end SharedState
