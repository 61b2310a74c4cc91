import SharedState.Input
import SharedState.Proofs.DocumentGraph
import SharedState.Proofs.Rearrangement

/-! The order of documents and of what is in them. A document names classes, so where they stand in it changes the numbers of
symbols only. -/
namespace SharedState

namespace Document

/-! Merged documents. -/

theorem mergeClasses (docs : List Document) (start : Document) :
    (docs.foldl merge start).classes = start.classes ++ docs.flatMap (·.classes) := by
  induction docs generalizing start with
  | nil => simp
  | cons d docs ih => simp [ih, merge]

theorem mergeOwners (docs : List Document) (start : Document) :
    (docs.foldl merge start).staticOwners = start.staticOwners ++ docs.flatMap (·.staticOwners) := by
  induction docs generalizing start with
  | nil => simp
  | cons d docs ih => simp [ih, merge]

theorem mergeAliases (docs : List Document) (start : Document)
    (distinct : ((start.aliases ++ docs.flatMap (·.aliases)).map (·.1)).Nodup) :
    (docs.foldl merge start).aliases = start.aliases ++ docs.flatMap (·.aliases) := by
  induction docs generalizing start with
  | nil => simp
  | cons d docs ih =>
    have first : (start.merge d).aliases = start.aliases ++ d.aliases := by
      refine bindAllFresh _ _ (distinct.sublist ?_)
      exact List.Sublist.map _ (List.Sublist.append_left (by simp) _)
    rw [List.foldl_cons, ih _ (by simpa [first] using distinct), first]
    simp

/-- Each document has aliases of its own. -/
def Apart (docs : List Document) : Prop :=
  docs.Pairwise fun a b => List.Disjoint (a.aliases.map (·.1)) (b.aliases.map (·.1))

theorem apartKeys {docs : List Document} (valid : ∀ d ∈ docs, d.Valid) (apart : Apart docs) :
    ((docs.flatMap (·.aliases)).map (·.1)).Nodup := by
  rw [List.map_flatMap, List.nodup_flatMap]
  exact ⟨fun d member => (valid d member).aliases, apart⟩

theorem mergeValid {docs : List Document} (valid : ∀ d ∈ docs, d.Valid) (apart : Apart docs) :
    (docs.foldl merge {}).Valid := by
  have keys := apartKeys valid apart
  refine ⟨fun c member => ?_, ?_⟩
  · rw [mergeClasses] at member
    obtain ⟨d, known, inside⟩ := List.mem_flatMap.1 (by simpa using member)
    exact (valid d known).classes c inside
  · rw [mergeAliases _ _ (by simpa using keys)]
    simpa using keys

/-- The same entries in another order. -/
structure Reordered (doc doc' : Document) : Prop where
  classes : doc.classes.Perm doc'.classes
  aliases : doc.aliases.Perm doc'.aliases
  owners : doc.staticOwners.Perm doc'.staticOwners

theorem mergeReordered {docs docs' : List Document} (valid : ∀ d ∈ docs, d.Valid) (apart : Apart docs)
    (order : docs.Perm docs') : Reordered (docs.foldl merge {}) (docs'.foldl merge {}) := by
  have keys := apartKeys valid apart
  have keys' : ((docs'.flatMap (·.aliases)).map (·.1)).Nodup := ((order.flatMap_right _).map _).nodup keys
  refine ⟨?_, ?_, ?_⟩
  · simpa [mergeClasses] using order.flatMap_right _
  · rw [mergeAliases _ _ (by simpa using keys), mergeAliases _ _ (by simpa using keys')]
    simpa using order.flatMap_right _
  · simpa [mergeOwners] using order.flatMap_right _

/-! Classes are found by their names, wherever they stand. -/

theorem classNamedFind (specs : List ClassSpec) (name : String) :
    (classNamed? specs name).map (·.2) = specs.find? fun s => s.name == name := by
  have search : specs.zipIdx.map (·.1) = specs := List.zipIdx_map_fst 0 specs
  conv_rhs => rw [← search, List.find?_map]
  simp [classNamed?, Function.comp_def]

variable {specs specs' : List ClassSpec}

theorem namedAnywhere (order : specs.Perm specs') (distinct : (specs.map (·.name)).Nodup) (name : String) :
    (classNamed? specs name).map (·.2) = (classNamed? specs' name).map (·.2) := by
  rw [classNamedFind, classNamedFind]
  exact findKeyPerm order distinct name

theorem classSymbolAgrees (agree : ∀ name, (classNamed? specs name).map (·.2) = (classNamed? specs' name).map (·.2))
    (n i j : Nat) (spec : ClassSpec) :
    (classSymbol specs n (i, spec)).map (·.unnumbered) = (classSymbol specs' n (j, spec)).map (·.unnumbered) := by
  induction n generalizing i j spec with
  | zero => rfl
  | succ n ih =>
    unfold classSymbol
    cases spec.owner with
    | none => rfl
    | some owner =>
      have found := agree owner
      simp only
      cases here : classNamed? specs owner with
      | none =>
        rw [here, Option.map_none, eq_comm, Option.map_eq_none_iff] at found
        rw [found]
      | some first =>
        rw [here, Option.map_some, eq_comm, Option.map_eq_some_iff] at found
        obtain ⟨second, there, same⟩ := found
        obtain ⟨k, content⟩ := first
        obtain ⟨l, _⟩ := second
        cases same
        simp only [there]
        have above := ih k l content
        cases outer : classSymbol specs n (k, content) with
        | error e =>
          cases outer' : classSymbol specs' n (l, content) with
          | error e' => rw [outer, outer'] at above; exact above
          | ok o' => rw [outer, outer'] at above; cases above
        | ok o =>
          cases outer' : classSymbol specs' n (l, content) with
          | error e' => rw [outer, outer'] at above; cases above
          | ok o' =>
            rw [outer, outer'] at above
            exact congrArg Except.ok (Symbol.sameInside (Except.ok.inj above) rfl)

section
variable {charset : CharacterNames}

theorem memberAgrees (spec : ClassSpec) {cls cls' : Symbol} (same : cls.unnumbered = cls'.unnumbered) (i : Nat) (m : MemberSpec) :
    (memberSymbol spec cls i m).map (·.unnumbered) = (memberSymbol spec cls' i m).map (·.unnumbered) := by
  unfold memberSymbol
  refine bindAgrees (u := id) rfl fun t t' typed => ?_
  cases typed
  exact congrArg Except.ok (Symbol.sameInside same rfl)

theorem entryAgrees (agree : ∀ name, (classNamed? specs name).map (·.2) = (classNamed? specs' name).map (·.2))
    (size : specs.length = specs'.length) (spec : ClassSpec) :
    (classEntry specs spec).map (·.unnumbered) = (classEntry specs' spec).map (·.unnumbered) := by
  have place : ∃ i j content, (classNamed? specs spec.name).getD (0, spec) = (i, content) ∧
      (classNamed? specs' spec.name).getD (0, spec) = (j, content) := by
    have found := agree spec.name
    cases here : classNamed? specs spec.name with
    | none =>
      rw [here, Option.map_none, eq_comm, Option.map_eq_none_iff] at found
      exact ⟨0, 0, spec, rfl, by rw [found]; rfl⟩
    | some first =>
      rw [here, Option.map_some, eq_comm, Option.map_eq_some_iff] at found
      obtain ⟨second, there, same⟩ := found
      exact ⟨first.1, second.1, first.2, rfl, by rw [there, ← same]; rfl⟩
  obtain ⟨i, j, content, here, there⟩ := place
  unfold classEntry
  rw [here, there, size]
  refine bindAgrees (classSymbolAgrees agree _ i j content) fun s s' same => ?_
  refine bindAgrees (mapMAgrees _ fun m _ => memberAgrees spec same m.2 m.1) fun ms ms' members => ?_
  refine bindAgrees (u := id) rfl fun ps ps' parents => congrArg Except.ok ?_
  cases parents
  simp only [ClassEntry.unnumbered, same, members]

theorem ownerAgrees {entries entries' : List ClassEntry} (order : (entries.map (·.unnumbered)).Perm (entries'.map (·.unnumbered)))
    (distinct : (entries.map (·.symbol.qualifiedName)).Nodup) (name : String) :
    (ownerNamed entries name).map (·.unnumbered) = (ownerNamed entries' name).map (·.unnumbered) := by
  have search (es : List ClassEntry) : (es.map (·.unnumbered)).find? (fun e => e.symbol.qualifiedName == name) =
      (es.find? fun e => e.symbol.qualifiedName == name).map (·.unnumbered) := by
    rw [List.find?_map]
    simp [Function.comp_def, ClassEntry.unnumbered]
  rw [← Graph.entriesNames] at distinct
  have found := findKeyPerm order distinct name
  rw [search, search] at found
  unfold ownerNamed
  cases here : entries.find? fun e => e.symbol.qualifiedName == name with
  | none =>
    rw [here, Option.map_none, eq_comm, Option.map_eq_none_iff] at found
    rw [found]
  | some e =>
    rw [here, Option.map_some, eq_comm, Option.map_eq_some_iff] at found
    obtain ⟨e', there, twin⟩ := found
    rw [there]
    exact congrArg Except.ok (congrArg (·.symbol) twin).symm

theorem ownerKnown {entries : List ClassEntry} {name : String} {s : Symbol} (done : ownerNamed entries name = .ok s) :
    ∃ e ∈ entries, e.symbol = s := by
  unfold ownerNamed at done
  split at done
  · rename_i e found
    exact ⟨e, List.mem_of_find?_eq_some found, Except.ok.inj done⟩
  · cases done

theorem aliasKeys {aliases : List (String × String)} {table : List (Option (String × TypeRef))}
    (done : aliases.mapM aliasEntry = .ok table) : ((table.filterMap id).map (·.1)).Sublist (aliases.map (·.1)) := by
  have each := mapMEach done
  clear done
  induction each with
  | nil => exact .slnil
  | @cons a entry _ _ made _ ih =>
    obtain ⟨t, _, made⟩ := bindOk made
    cases Except.ok.inj made
    cases t with
    | none => exact ih.cons _
    | some t => exact ih.cons_cons _

/-! Graphs of reordered documents. -/

theorem reorderedGraph {doc doc' : Document} (valid : doc.Valid) (order : Reordered doc doc') {g : Graph}
    (done : doc.toGraph = .ok g) : ∃ g', doc'.toGraph = .ok g' ∧ g.Rearranged g' := by
  unfold toGraph at done
  obtain ⟨entries, made, done⟩ := bindOk done
  obtain ⟨aliases, bound, done⟩ := bindOk done
  obtain ⟨owners, owned, done⟩ := bindOk done
  split at done
  · rename_i h built
    cases Except.ok.inj done
    have source := Graph.buildSource built
    obtain rfl := source.entries
    have names : doc.classes.map (·.name) = g.entries.map (·.symbol.qualifiedName) :=
      relatedMap (mapMEach made) fun spec member e entered => entryName valid.classes member entered
    have agree := namedAnywhere order.classes (names ▸ source.names)
    obtain ⟨entries', made', permuted⟩ := mapMRearranged (·.unnumbered) order.classes
      (fun spec _ => entryAgrees agree order.classes.length_eq spec) made
    obtain ⟨aliases', bound', same⟩ := mapMRearranged id order.aliases (fun _ _ => rfl) bound
    obtain ⟨owners', owned', listed⟩ := mapMRearranged (·.unnumbered) order.owners
      (fun name _ => ownerAgrees permuted source.names name) owned
    have known' : ∀ s ∈ owners', ∃ e ∈ entries', e.symbol = s := by
      intro s member
      obtain ⟨name, _, found⟩ := relatedRight (mapMEach owned') s member
      exact ownerKnown found
    have keys : ((aliases.filterMap id).map (·.1)).Nodup := valid.aliases.sublist (aliasKeys bound)
    have table : ∀ name, valueOf? name ((aliases.filterMap id).foldl (fun t a => bindKey a.1 a.2 t) []) =
        valueOf? name ((aliases'.filterMap id).foldl (fun t a => bindKey a.1 a.2 t) []) := by
      have order := List.Perm.filterMap id (by simpa using same)
      have keys' : ((aliases'.filterMap id).map (·.1)).Nodup := (order.map _).nodup keys
      rw [bindAllFresh _ _ (by simpa using keys), bindAllFresh _ _ (by simpa using keys')]
      exact valueOfPerm order keys
    obtain ⟨g', built', rearranged⟩ := Graph.buildRearranged permuted table (fun s => listed.mem_iff) known' built
    refine ⟨g', ?_, rearranged⟩
    unfold toGraph
    rw [made', bound']
    simp only [bind, Except.bind, owned', built']
    rfl
  · cases done

theorem reorderedValid {doc doc' : Document} (valid : doc.Valid) (order : Reordered doc doc') : doc'.Valid :=
  ⟨fun c member => valid.classes c (order.classes.mem_iff.2 member), (order.aliases.map _).nodup valid.aliases⟩

theorem reorderedSymm {doc doc' : Document} (order : Reordered doc doc') : Reordered doc' doc :=
  ⟨order.classes.symm, order.aliases.symm, order.owners.symm⟩

theorem graphTold {doc : Document} {g : Graph} (done : doc.toGraph = .ok g) :
    ∀ e ∈ g.entries, ∀ m ∈ e.members, ∀ t ∈ m.declaredType, t.text?.isSome := by
  unfold toGraph at done
  obtain ⟨entries, made, done⟩ := bindOk done
  obtain ⟨aliases, _, done⟩ := bindOk done
  obtain ⟨owners, _, done⟩ := bindOk done
  split at done
  · rename_i h built
    cases Except.ok.inj done
    rw [(Graph.buildSource built).entries]
    intro e known m inside t declared
    obtain ⟨spec, _, made⟩ := relatedRight (mapMEach made) e known
    obtain ⟨symbol, _, made⟩ := bindOk made
    obtain ⟨members, inner, made⟩ := bindOk made
    obtain ⟨parents, _, made⟩ := bindOk made
    cases Except.ok.inj made
    obtain ⟨p, _, made⟩ := relatedRight (mapMEach inner) m inside
    obtain ⟨type, typed, made⟩ := bindOk made
    cases Except.ok.inj made
    have some : type = some t := declared
    rw [TypeRef.readableTold (documentTypeMade (some ▸ typed)).1]
    rfl
  · cases done

/-- Valid documents that have no alias in common can be merged in any order, and what is merged can be put in any order: either
all of it has a graph or none, and the checks of all these graphs find the same. -/
theorem orderIrrelevant {docs docs' : List Document} {doc' : Document} (valid : ∀ d ∈ docs, d.Valid) (apart : Apart docs)
    (order : docs.Perm docs') (inner : Reordered (docs'.foldl merge {}) doc') :
    ((∃ e, (docs.foldl merge {}).toGraph = .error e) ↔ ∃ e, doc'.toGraph = .error e) ∧
      ∀ g g', (docs.foldl merge {}).toGraph = .ok g → doc'.toGraph = .ok g' → g.ChecksAlike g' := by
  have merged := mergeReordered valid apart order
  have whole : Reordered (docs.foldl merge {}) doc' :=
    ⟨merged.classes.trans inner.classes, merged.aliases.trans inner.aliases, merged.owners.trans inner.owners⟩
  have first := mergeValid valid apart
  have second := reorderedValid first whole
  refine ⟨⟨failsToo fun g' done => ?_, failsToo fun g done => ?_⟩, fun g g' done done' => ?_⟩
  · obtain ⟨g, made, _⟩ := reorderedGraph second (reorderedSymm whole) done
    exact ⟨g, made⟩
  · obtain ⟨g', made, _⟩ := reorderedGraph first whole done
    exact ⟨g', made⟩
  obtain ⟨h, made, rearranged⟩ := reorderedGraph first whole done
  cases Except.ok.inj (made.symm.trans done')
  exact Graph.rearrangedChecks rearranged (graphTold done)

end

/-- Two classes that hold each other, in two documents; the alias of one is used in the other. -/
def halves : List Document :=
  [{ classes := [{ name := "A", members := [{ name := "b", type := some "Other" }, { name := "n", mutable := true }] }]
     staticOwners := ["A"] },
   { classes := [{ name := "B", members := [{ name := "a", type := some "list[A] | A" }, { name := "m", mutable := true }] },
       { name := "B.C", owner := some "B", parents := ["A"] }]
     aliases := [("Other", "B.C | B")], staticOwners := ["B.C", "A"] }]

theorem halvesAnyOrder : ∃ g g', (halves.foldl merge {}).toGraph = .ok g ∧
    Document.toGraph { halves.reverse.foldl merge {} with staticOwners := ["A", "A", "B.C"] } = .ok g' ∧
      g.ChecksAlike g' := by
  have inner : Reordered (halves.reverse.foldl merge {})
      { halves.reverse.foldl merge {} with staticOwners := ["A", "A", "B.C"] } := ⟨.refl _, .refl _, by decide⟩
  obtain ⟨fails, alike⟩ := orderIrrelevant (by decide +kernel) (by simp [Apart, halves]) halves.reverse_perm.symm inner
  have built : (halves.foldl merge {}).toGraph.isOk = true := by decide +kernel
  cases done : (halves.foldl merge {}).toGraph with
  | error e => rw [done] at built; cases built
  | ok g =>
    cases done' : Document.toGraph { halves.reverse.foldl merge {} with staticOwners := ["A", "A", "B.C"] } with
    | error e =>
      obtain ⟨e, failed⟩ := fails.mpr ⟨e, done'⟩
      rw [done] at failed
      cases failed
    | ok g' => exact ⟨g, g', rfl, rfl, alike g g' done done'⟩

end Document
end SharedState
