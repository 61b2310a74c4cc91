import SharedState.Proofs.Building
import SharedState.Proofs.Findings

/-! The same classes in another order. Symbols are numbered as they are met, so their numbers change with the order; what two
such graphs have in common is compared without the numbers, and their checks find the same. -/
namespace SharedState

def Declaration.unnumbered (d : Declaration) : Declaration := { d with serial := 0 }

def Symbol.unnumbered (s : Symbol) : Symbol :=
  { toDeclaration := s.toDeclaration.unnumbered, enclosing := s.enclosing.map (·.unnumbered) }

def ClassEntry.unnumbered (e : ClassEntry) : ClassEntry :=
  { symbol := e.symbol.unnumbered, members := e.members.map (·.unnumbered), parents := e.parents }

namespace Symbol

variable {s t : Symbol}

@[simp] theorem unnumberedName (s : Symbol) : s.unnumbered.qualifiedName = s.qualifiedName := by
  simp [qualifiedName, unnumbered, Declaration.unnumbered, Function.comp_def]

@[simp] theorem unnumberedLook (s : Symbol) : s.unnumbered.look = s.look := by
  simp [look, unnumbered, Declaration.look, Declaration.unnumbered, Function.comp_def]

@[simp] theorem unnumberedTwice (s : Symbol) : s.unnumbered.unnumbered = s.unnumbered := by
  simp [unnumbered, Declaration.unnumbered, Function.comp_def]

theorem sameName (same : s.unnumbered = t.unnumbered) : s.qualifiedName = t.qualifiedName := by
  rw [← unnumberedName s, same, unnumberedName]

theorem sameLook (same : s.unnumbered = t.unnumbered) : s.look = t.look := by
  rw [← unnumberedLook s, same, unnumberedLook]

theorem sameKind (same : s.unnumbered = t.unnumbered) : s.kind = t.kind := congrArg (·.kind) same

theorem sameClass (same : s.unnumbered = t.unnumbered) : s.isClass = t.isClass := congrArg (·.kind.isClass) same

theorem sameMutable (same : s.unnumbered = t.unnumbered) : s.mutable = t.mutable := congrArg (·.mutable) same

theorem sameType (same : s.unnumbered = t.unnumbered) : s.declaredType = t.declaredType := congrArg (·.declaredType) same

theorem sameInside (same : s.unnumbered = t.unnumbered) {d e : Declaration} (inner : d.unnumbered = e.unnumbered) :
    (s.inside d).unnumbered = (t.inside e).unnumbered :=
  congrArg₂ inside same inner

end Symbol

theorem Exemption.unnumberedCovers (x : Exemption) (s : Symbol) : x.covers s.unnumbered = x.covers s := by
  obtain ⟨d, enclosing⟩ := s
  cases enclosing <;> rfl

theorem Exemption.coversSame (x : Exemption) {s t : Symbol} (same : s.unnumbered = t.unnumbered) : x.covers s = x.covers t := by
  rw [← unnumberedCovers, same, unnumberedCovers]

namespace Graph

/-- Two graphs that differ in the order of their classes, aliases and owners only. -/
structure Rearranged (g g' : Graph) : Prop where
  entries : (g.entries.map (·.unnumbered)).Perm (g'.entries.map (·.unnumbered))
  names : (g.entries.map (·.symbol.qualifiedName)).Nodup
  kinds : ∀ e ∈ g.entries, e.symbol.isClass = true
  aliases : ∀ name, valueOf? name g.aliases = valueOf? name g'.aliases
  owners : ∀ s, s ∈ g.staticOwners.map (·.unnumbered) ↔ s ∈ g'.staticOwners.map (·.unnumbered)
  known : ∀ s ∈ g.staticOwners, ∃ e ∈ g.entries, e.symbol = s
  known' : ∀ s ∈ g'.staticOwners, ∃ e ∈ g'.entries, e.symbol = s

variable {g g' : Graph}

theorem entriesNames (entries : List ClassEntry) :
    (entries.map (·.unnumbered)).map (·.symbol.qualifiedName) = entries.map (·.symbol.qualifiedName) := by
  simp [ClassEntry.unnumbered, Function.comp_def]

theorem namesKept {entries entries' : List ClassEntry}
    (order : (entries.map (·.unnumbered)).Perm (entries'.map (·.unnumbered)))
    (names : (entries.map (·.symbol.qualifiedName)).Nodup) : (entries'.map (·.symbol.qualifiedName)).Nodup := by
  rw [← entriesNames] at names ⊢
  exact (order.map _).nodup names

theorem kindsKept {entries entries' : List ClassEntry}
    (order : (entries.map (·.unnumbered)).Perm (entries'.map (·.unnumbered)))
    (kinds : ∀ e ∈ entries, e.symbol.isClass = true) : ∀ e ∈ entries', e.symbol.isClass = true := by
  intro e' member
  obtain ⟨e, known, twin⟩ := List.mem_map.mp (order.symm.subset (List.mem_map_of_mem member))
  rw [← Symbol.sameClass (congrArg (·.symbol) twin)]
  exact kinds e known

theorem rearrangedSymm (rearranged : Rearranged g g') : Rearranged g' g where
  entries := rearranged.entries.symm
  names := namesKept rearranged.entries rearranged.names
  kinds := kindsKept rearranged.entries rearranged.kinds
  aliases name := (rearranged.aliases name).symm
  owners s := (rearranged.owners s).symm
  known := rearranged.known'
  known' := rearranged.known

/-- A class of the first graph and the one of the second graph that is the same up to its number. -/
structure Matches (g g' : Graph) (c c' : Symbol) : Prop where
  known : ∃ e ∈ g.entries, e.symbol = c
  known' : ∃ e ∈ g'.entries, e.symbol = c'
  same : c.unnumbered = c'.unnumbered

theorem entryUnique {entries : List ClassEntry} (names : (entries.map (·.symbol.qualifiedName)).Nodup) {e f : ClassEntry}
    (known : e ∈ entries) (listed : f ∈ entries) (same : e.symbol.qualifiedName = f.symbol.qualifiedName) : e = f :=
  List.inj_on_of_nodup_map names known listed same

theorem entryFound (names : (g.entries.map (·.symbol.qualifiedName)).Nodup) {e : ClassEntry} (known : e ∈ g.entries) :
    g.entry? e.symbol = some e := by
  cases found : g.entry? e.symbol with
  | none =>
    unfold entry? at found
    rw [List.find?_eq_none] at found
    exact absurd (by simp) (found e known)
  | some f =>
    have same : f.symbol = e.symbol := by simpa using List.find?_some found
    rw [entryUnique names (List.mem_of_find?_eq_some found) known (congrArg _ same)]

theorem lookupFound (names : (g.entries.map (·.symbol.qualifiedName)).Nodup) {e : ClassEntry} (known : e ∈ g.entries) :
    g.lookup e.symbol.qualifiedName = some e.symbol := by
  rw [lookup, findKey names known]
  rfl

theorem lookupKnown {name : String} {c : Symbol} (found : g.lookup name = some c) :
    ∃ e ∈ g.entries, e.symbol = c ∧ c.qualifiedName = name := by
  obtain ⟨e, search, rfl⟩ := Option.map_eq_some_iff.mp found
  exact ⟨e, List.mem_of_find?_eq_some search, rfl, by simpa using List.find?_some search⟩

theorem lookupIff (names : (g.entries.map (·.symbol.qualifiedName)).Nodup) (name : String) (c : Symbol) :
    g.lookup name = some c ↔ c ∈ g.entries.map (·.symbol) ∧ c.qualifiedName = name := by
  constructor
  · intro found
    obtain ⟨e, known, rfl, named⟩ := lookupKnown found
    exact ⟨List.mem_map_of_mem known, named⟩
  · rintro ⟨listed, rfl⟩
    obtain ⟨e, known, rfl⟩ := List.mem_map.mp listed
    exact lookupFound names known

theorem entryMatched (rearranged : Rearranged g g') {e' : ClassEntry} (known : e' ∈ g'.entries) :
    ∃ e ∈ g.entries, e.unnumbered = e'.unnumbered :=
  List.mem_map.mp (rearranged.entries.symm.subset (List.mem_map_of_mem known))

theorem entriesMatch (rearranged : Rearranged g g') {c c' : Symbol} (matched : Matches g g' c c') :
    ∃ e e', g.entry? c = some e ∧ g'.entry? c' = some e' ∧ e.unnumbered = e'.unnumbered := by
  obtain ⟨⟨e, known, rfl⟩, ⟨e', known', rfl⟩, same⟩ := matched
  refine ⟨e, e', entryFound rearranged.names known, entryFound (rearrangedSymm rearranged).names known', ?_⟩
  obtain ⟨f, listed, twin⟩ := entryMatched rearranged known'
  have name : f.symbol.qualifiedName = e.symbol.qualifiedName := by
    rw [Symbol.sameName (congrArg (·.symbol) twin), Symbol.sameName same]
  rw [← entryUnique rearranged.names listed known name, twin]

theorem rearrangedLookup (rearranged : Rearranged g g') {name : String} {c' : Symbol} (found : g'.lookup name = some c') :
    ∃ c, g.lookup name = some c ∧ Matches g g' c c' := by
  obtain ⟨e', known', rfl, named⟩ := lookupKnown found
  obtain ⟨e, known, twin⟩ := entryMatched rearranged known'
  have same : e.symbol.unnumbered = e'.symbol.unnumbered := congrArg (·.symbol) twin
  refine ⟨e.symbol, ?_, ⟨e, known, rfl⟩, ⟨e', known', rfl⟩, same⟩
  rw [← named, ← Symbol.sameName same]
  exact lookupFound rearranged.names known

theorem rearrangedMirrors (rearranged : Rearranged g g') (x : Exemption) :
    Mirrors (Matches g g') (fun m m' => m.unnumbered = m'.unnumbered) x g g' where
  found _ _ found := rearrangedLookup rearranged found
  missing := by
    intro name missing
    rw [Option.eq_none_iff_forall_ne_some]
    intro c found
    obtain ⟨c', found', _⟩ := rearrangedLookup (rearrangedSymm rearranged) found
    rw [missing] at found'
    cases found'
  aliases name := (rearranged.aliases name).symm
  entries := by
    intro c c' e' matched here
    obtain ⟨e, f', found, found', twin⟩ := entriesMatch rearranged matched
    cases Option.some.inj (found'.symm.trans here)
    have members : e.members.map (·.unnumbered) = e'.members.map (·.unnumbered) := congrArg (·.members) twin
    refine ⟨e, found, congrArg (·.parents) twin.symm, fun m' declared => ?_⟩
    exact List.mem_map.mp (members ▸ List.mem_map_of_mem declared)
  classCounts _ _ matched counts := (Exemption.coversSame x matched.same).trans counts
  memberCounts _ _ same counts := (Exemption.coversSame x same).trans counts
  alike _ _ same := ⟨(Symbol.sameKind same).symm, (Symbol.sameMutable same).symm, (Symbol.sameType same).symm⟩

theorem rearrangedFollows (rearranged : Rearranged g g') (s : Settings) :
    Scanner.Follows (Matches g g') (fun m m' => m.unnumbered = m'.unnumbered) (s.scanner g) g.staticOwners (s.scanner g')
      g'.staticOwners := by
  refine mirrorsFollows (rearrangedMirrors rearranged s.exemption) fun r' start => ?_
  obtain ⟨r, listed, same⟩ := List.mem_map.mp ((rearranged.owners _).mpr (List.mem_map_of_mem start))
  exact ⟨r, listed, rearranged.known r listed, rearranged.known' r' start, same⟩

/-- Under all settings, the checks of both graphs come to an end, visit the same classes and find the same. -/
def ChecksAlike (g g' : Graph) : Prop :=
  ∀ s : Settings, ∃ run run', g.check s = .ok run ∧ g'.check s = .ok run' ∧
    (∀ name, name ∈ run.result.visitedClasses ↔ name ∈ run'.result.visitedClasses) ∧
    ∀ d, d ∈ run.result.diagnostics ↔ d ∈ run'.result.diagnostics

theorem ownersClasses (rearranged : Rearranged g g') : ∀ r ∈ g.staticOwners, r.isClass = true := by
  intro r start
  obtain ⟨e, known, rfl⟩ := rearranged.known r start
  exact rearranged.kinds e known

theorem rearrangedChecks (rearranged : Rearranged g g')
    (told : ∀ e ∈ g.entries, ∀ m ∈ e.members, ∀ t ∈ m.declaredType, t.text?.isSome) : ChecksAlike g g' := by
  intro s
  cases on : s.checkReentrant with
  | false => exact ⟨_, _, checkOff g on _, checkOff g' on _, fun _ => Iff.rfl, fun _ => Iff.rfl⟩
  | true =>
    obtain ⟨w, scanned⟩ := toldScans (ownersClasses rearranged) told s
    have exact := Scanner.scanExact scanned
    have shown : ∀ m m' : Symbol, m.unnumbered = m'.unnumbered → m.look = m'.look := fun _ _ => Symbol.sameLook
    have follows := rearrangedFollows rearranged s
    obtain ⟨w', scanned'⟩ := Scanner.followsReturns follows rfl shown exact (ownersClasses (rearrangedSymm rearranged))
    have exact' := Scanner.scanExact scanned'
    obtain ⟨visited, found⟩ := Scanner.followsShown follows rfl (fun _ _ h => Symbol.sameLook h.same) shown exact exact'
    obtain ⟨visited', found'⟩ := Scanner.followsShown (rearrangedFollows (rearrangedSymm rearranged) s) rfl
      (fun _ _ h => Symbol.sameLook h.same) shown exact' exact
    refine ⟨_, _, checkOn on scanned, checkOn on scanned', fun name => ⟨?_, ?_⟩, fun d => ⟨?_, ?_⟩⟩
    · exact fun h => visited' h
    · exact fun h => visited h
    · exact fun h => found' h
    · exact fun h => found h

/- Building from the same parts in another order. -/
theorem buildRearranged {entries entries' : List ClassEntry} {aliases aliases' : List (String × TypeRef)}
    {owners owners' : List Symbol} (order : (entries.map (·.unnumbered)).Perm (entries'.map (·.unnumbered)))
    (bound : ∀ name, valueOf? name (aliases.foldl (fun table a => bindKey a.1 a.2 table) []) =
      valueOf? name (aliases'.foldl (fun table a => bindKey a.1 a.2 table) []))
    (same : ∀ s, s ∈ owners.map (·.unnumbered) ↔ s ∈ owners'.map (·.unnumbered))
    (known' : ∀ s ∈ owners', ∃ e ∈ entries', e.symbol = s) (done : build entries aliases owners = .ok g) :
    ∃ g', build entries' aliases' owners' = .ok g' ∧ Rearranged g g' := by
  have source := buildSource done
  obtain ⟨table, listed⟩ := buildParts done
  obtain rfl := source.entries
  obtain ⟨g', done'⟩ := buildSucceeds aliases' (kindsKept order source.kinds) (namesKept order source.names) known'
  have source' := buildSource done'
  obtain ⟨table', listed'⟩ := buildParts done'
  have owned : ∀ s, s ∈ g.staticOwners.map (·.unnumbered) ↔ s ∈ g'.staticOwners.map (·.unnumbered) := by
    simpa only [List.mem_map, listed, listed'] using same
  exact ⟨g', done', source'.entries ▸ order, source.names, source.kinds, by simpa only [table, table'] using bound, owned,
    source.ownersKnown, source'.ownersKnown⟩

end Graph
end SharedState
