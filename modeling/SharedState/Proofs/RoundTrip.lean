import SharedState.Proofs.DocumentGraph

/-! Documents written and read again. The graph of a document, written as a document and read back, is written in the same
way once more, and no check tells the two graphs apart, although their types need not be the same. -/
namespace SharedState

namespace Graph

variable {g : Graph}

theorem rereadAliases (readable : ∀ a ∈ g.aliases, a.2.Readable) :
    g.reread.aliases = g.aliases.map fun a => (a.1, a.2.reread) := by
  have listed : g.reread.aliases = g.aliases.filterMap fun a => a.2.readBack.map fun t => (a.1, t) := rfl
  rw [listed, ← List.filterMap_eq_map]
  refine List.filterMap_congr fun a member => ?_
  simp [TypeRef.readBack, TypeRef.readableFilled (readable a member)]

theorem rereadSpec {e : ClassEntry} (shown : ∀ t ∈ e.types, t.reread.shown = t.shown) :
    (e.retyped TypeRef.reread).spec = e.spec := by
  have members : (e.members.map (·.retyped TypeRef.reread)).map (·.spec) = e.members.map (·.spec) := by
    rw [List.map_map]
    refine List.map_congr_left fun m inside => ?_
    have type : (m.declaredType.map TypeRef.reread).map (·.shown) = m.declaredType.map (·.shown) := by
      cases declared : m.declaredType with
      | none => rfl
      | some t =>
        have here : t ∈ e.types := List.mem_append_left _ (List.mem_filterMap.2 ⟨m, inside, declared⟩)
        simp [shown t here]
    simp only [Function.comp_apply, Symbol.spec, Symbol.retyped, type]
  have parents : (e.parents.map TypeRef.reread).map (·.shown) = e.parents.map (·.shown) := by
    rw [List.map_map]
    exact List.map_congr_left fun t inside => shown t (List.mem_append_right _ inside)
  simp only [ClassEntry.spec, ClassEntry.retyped, members, parents]

theorem rereadText (types : ∀ t ∈ g.types, t.Readable ∧ t.arrayFree = true) {t : TypeRef} (member : t ∈ g.types) :
    t.reread.text? = t.text? := by
  rw [TypeRef.rereadTold (types t member).1, TypeRef.arrayedFree t (types t member).2]

theorem rereadDocument (types : ∀ t ∈ g.types, t.Readable ∧ t.arrayFree = true) : g.reread.document = g.document := by
  have shown : ∀ t ∈ g.types, t.reread.shown = t.shown := fun t member => by
    rw [TypeRef.shown, TypeRef.shown, rereadText types member]
  have classes : g.reread.entries.map (·.spec) = g.entries.map (·.spec) := by
    rw [reread, retyped, List.map_map]
    exact List.map_congr_left fun e known => rereadSpec fun t inside => shown t (entryType known inside)
  have aliases : (g.reread.aliases.map fun a => (a.1, a.2.shown)) = g.aliases.map fun a => (a.1, a.2.shown) := by
    rw [rereadAliases fun a member => (types _ (aliasType member)).1, List.map_map]
    exact List.map_congr_left fun a member => by simp [shown _ (aliasType member)]
  rw [document, document, classes, aliases]
  rfl

theorem rereadTypes (types : ∀ t ∈ g.types, t.Readable ∧ t.arrayFree = true) :
    ∀ t ∈ g.reread.types, t.text? = some t.shown := by
  have told : ∀ u ∈ g.types, u.reread.text? = some u.reread.shown := fun u member => by
    rw [TypeRef.shown, rereadText types member, TypeRef.readableTold (types u member).1]
    rfl
  have aliases : g.reread.aliases.map (·.2) = (g.aliases.map (·.2)).map TypeRef.reread := by
    rw [rereadAliases fun a member => (types _ (aliasType member)).1]
    simp [Function.comp_def]
  have entries : g.reread.entries.flatMap (·.types) = (g.entries.flatMap (·.types)).map TypeRef.reread := by
    rw [reread, retyped, List.flatMap_map, List.map_flatMap]
    congr 1
    funext e
    exact ClassEntry.retypedTypes TypeRef.reread e
  intro t member
  rw [Graph.types, entries, aliases, ← List.map_append] at member
  obtain ⟨u, inside, rfl⟩ := List.mem_map.1 member
  exact told u inside

end Graph

/-- A document survives being built, written, read and built again: the second text is the first one, and every check of the
second graph tells what it tells of the first. -/
theorem Document.roundTrip [CharacterNames] {text : String} {doc : Document} {g : Graph} (parsed : Document.parse text = .ok doc)
    (solid : ∀ a ∈ doc.annotations, SolidMarker a) (built : doc.toGraph = .ok g) :
    ∃ dumped again g', g.dump = .ok dumped ∧ Document.parse dumped = .ok again ∧ again.toGraph = .ok g' ∧
      g'.dump = .ok dumped ∧ ∀ s, (g'.check s).map CheckRun.shown = (g.check s).map CheckRun.shown := by
  obtain ⟨portable, types⟩ := Document.graphMade (Document.parseValid parsed) solid built
  have told : ∀ t ∈ g.types, t.text? = some t.shown := fun t member => TypeRef.readableTold (types t member).1
  have readable : ∀ e ∈ g.entries, ∀ t ∈ e.types, t.Readable := fun e known t inside =>
    (types t (Graph.entryType known inside)).1
  have aliased : ∀ a ∈ g.aliases, a.2.Readable := fun a member => (types _ (Graph.aliasType member)).1
  have legible : ∀ a ∈ g.aliases, a.2.Readable ∨ a.2 = .named "" := fun a member => .inl (aliased a member)
  have again := Graph.dumpOk (Graph.rereadPortable portable) (Graph.rereadTypes types)
  refine ⟨g.document.render, g.document, g.reread, ?_, Document.parseRendered (Graph.documentValid portable),
    Graph.graphBack portable readable legible, ?_, fun s => ?_⟩
  · rw [Graph.dump, Graph.dumpOk portable told]
    rfl
  · rw [Graph.dump, again, Graph.rereadDocument types]
    rfl
  · have retyping := Graph.rereadRetyping portable readable legible fun ⟨a, member, blank⟩ =>
      absurd blank (TypeRef.readableFilled (aliased a member))
    rw [Graph.arrayedGraph fun t member => (types t member).2] at retyping
    exact Graph.checkRetyped retyping s g.staticOwners

/-- A nested class with a type that is written without its parentheses, and an alias of an application to nothing. -/
def Document.regrouped : Document :=
  { classes :=
      [{ name := "A", annotations := ["@sharable"] },
       { name := "A.B", owner := some "A"
         members := [{ name := "x", type := some "(A | A.B) & list[:]", mutable := true }] }]
    aliases := [("T", "A.B[:]")], staticOwners := ["A.B"] }

theorem Document.regroupedRoundTrip : ∃ g dumped again g', Document.regrouped.toGraph = .ok g ∧ g.dump = .ok dumped ∧
    Document.parse dumped = .ok again ∧ again.toGraph = .ok g' ∧ g'.dump = .ok dumped ∧
      ∀ s, (g'.check s).map CheckRun.shown = (g.check s).map CheckRun.shown := by
  have valid : Document.regrouped.Valid := by
    refine ⟨fun c member => ?_, by decide⟩
    simp only [Document.regrouped, List.mem_cons, List.not_mem_nil, or_false] at member
    rcases member with rfl | rfl
    · exact ⟨by decide, by simp, rfl, by simp, by simp⟩
    · refine ⟨by decide, by simp, rfl, fun m inside => ?_, by simp⟩
      rw [List.mem_singleton.1 inside]
      exact ⟨by decide, rfl, by simp, by simp⟩
  have parsed := Document.parseRendered valid
  have solid : ∀ a ∈ Document.regrouped.annotations, SolidMarker a := by
    intro a member
    have same : a = "@sharable" := by simpa [Document.annotations, Document.regrouped] using member
    rw [same]
    exact ⟨'s', "harable".toList, by decide +kernel, by decide⟩
  have built : Document.regrouped.toGraph.isOk = true := by decide +kernel
  cases done : Document.regrouped.toGraph with
  | error e => rw [done] at built; cases built
  | ok g =>
    obtain ⟨dumped, again, g', rest⟩ := Document.roundTrip parsed solid done
    exact ⟨g, dumped, again, g', rfl, rest⟩

end SharedState
