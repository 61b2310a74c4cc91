import SharedState.Proofs.Portable
import SharedState.Proofs.TypeGrammar

/-! Graphs read back from their documents. Classes come back as they were, and each type as the type that its text means,
with names for arrays taken for arrays; an alias of nothing is lost. A check does not see the parentheses. -/
namespace SharedState

open SharedState.Source SharedState.Text

/-! Reading the document back. Classes are found under their names, and owners before the classes in them. -/

theorem findNamed {specs : List ClassSpec} (distinct : (specs.map (·.name)).Nodup) {i : Nat} {s : ClassSpec}
    (here : specs[i]? = some s) (k : Nat) :
    (specs.zipIdx k).find? (fun p => p.1.name == s.name) = some (s, k + i) := by
  induction specs generalizing i k with
  | nil => simp at here
  | cons c specs ih =>
    obtain ⟨fresh, rest⟩ := List.nodup_cons.1 distinct
    rw [List.zipIdx_cons, List.find?_cons]
    cases i with
    | zero =>
      have same : c = s := by simpa using here
      simp [same]
    | succ i =>
      have later : specs[i]? = some s := by simpa using here
      have other : (c.name == s.name) = false := by
        rw [beq_eq_false_iff_ne]
        intro same
        exact fresh (List.mem_map.2 ⟨s, List.mem_of_getElem? later, same.symm⟩)
      simp only [other]
      rw [ih rest later]
      congr 2
      omega

theorem classNamedAt {specs : List ClassSpec} (distinct : (specs.map (·.name)).Nodup) {i : Nat} {s : ClassSpec}
    (here : specs[i]? = some s) : Document.classNamed? specs s.name = some (i, s) := by
  rw [Document.classNamed?, findNamed distinct here 0]
  simp

theorem placeBack (l : Option Location) : (l.map LocationSpec.ofLocation).map LocationSpec.toLocation = l := by
  cases l <;> rfl

namespace Graph

variable {g : Graph}

theorem namedClass (portable : g.Portable) {i : Nat} {e : ClassEntry} (here : g.entries[i]? = some e) :
    Document.classNamed? g.document.classes e.symbol.qualifiedName = some (i, e.spec) := by
  have distinct : (g.document.classes.map (·.name)).Nodup := by
    simpa [document, ClassEntry.spec, Function.comp_def] using portable.names
  exact classNamedAt distinct (s := e.spec) (by simp [document, here])

theorem serialAt (portable : g.Portable) {i : Nat} {e : ClassEntry} (here : g.entries[i]? = some e) :
    e.symbol.serial = i := by
  have whole := congrArg (·[i]?) portable.serials
  have bound : i < g.entries.length := (List.getElem?_eq_some_iff.1 here).1
  simpa only [List.getElem?_map, here, Option.map_some, List.getElem?_range bound, Option.some.injEq] using whole

theorem declarationBack (portable : g.Portable) {i : Nat} {e : ClassEntry} (here : g.entries[i]? = some e) :
    ({ serial := i, name := e.symbol.name, kind := e.spec.kind, markers := documentMarkers e.spec.annotations,
       location := e.spec.location.map (·.toLocation) } : Declaration) = e.symbol.toDeclaration := by
  have kept := portable.classes e (List.mem_of_getElem? here)
  have markers := documentMarkersKept kept.kept.sorted kept.kept.settled
  have untyped := kept.untyped
  have fixed := kept.fixed
  have serial := serialAt portable here
  have place := placeBack e.symbol.location
  simp only [ClassEntry.spec]
  rw [markers, place, ← serial, ← untyped, ← fixed]

theorem classSymbolBack (portable : g.Portable) (n : Nat) : ∀ (i : Nat) (e : ClassEntry), g.entries[i]? = some e →
    e.symbol.enclosing.length < n → Document.classSymbol g.document.classes n (i, e.spec) = .ok e.symbol := by
  induction n with
  | zero => intro i e _ short; omega
  | succ n ih =>
    intro i e here short
    have declared := declarationBack portable here
    have kept := portable.classes e (List.mem_of_getElem? here)
    unfold Document.classSymbol
    cases owner : e.symbol.owner? with
    | none =>
      have top := Symbol.ownerless owner
      have name : e.spec.name = e.symbol.name := by simp [ClassEntry.spec, Symbol.qualifiedName, top]
      have none : e.spec.owner = none := by simp [ClassEntry.spec, owner]
      simp only [none, name, declared]
      rw [← top]
    | some o =>
      obtain ⟨f, known, rfl⟩ := kept.owner o owner
      obtain ⟨j, there⟩ := List.getElem?_of_mem known
      have some : e.spec.owner = some f.symbol.qualifiedName := by simp [ClassEntry.spec, owner]
      obtain ⟨inside, named⟩ := Symbol.ownerName owner
      have depth : f.symbol.enclosing.length < n := by
        rw [inside] at short
        simpa [Symbol.inside] using short
      have name : String.ofList (e.spec.name.toList.drop (f.symbol.qualifiedName.length + 1)) = e.symbol.name := by
        have dot : ".".toList = ['.'] := rfl
        have spelled : e.spec.name.toList = (f.symbol.qualifiedName.toList ++ ['.']) ++ e.symbol.name.toList := by
          rw [ClassEntry.spec, named]
          simp [dot]
        have size : f.symbol.qualifiedName.length + 1 = (f.symbol.qualifiedName.toList ++ ['.']).length := by
          simp [String.length_toList]
        rw [spelled, size, List.drop_left, String.ofList_toList]
      simp only [some, namedClass portable there, ih j f there depth, name, declared]
      rw [← inside]

end Graph

/-! Types in a document. -/

namespace TypeRef

theorem readableFramed {t : TypeRef} (readable : Readable t) : Framed t.shown := by
  have grouped := alternativesGrouped readable
  rw [← shownAlternatives readable]
  exact framedGroups grouped.some grouped.full fun g here a within => framedAtom (grouped.atoms g here a within)

theorem readableFilled {t : TypeRef} (readable : Readable t) : t ≠ .named "" := by
  rintro rfl
  cases readable with
  | named name _ => exact dottedNonempty name rfl

end TypeRef

theorem framedFilled {s : String} (framed : Framed s) : (strip s).isEmpty = false := by
  obtain ⟨c, cs, shape, _⟩ := framed.first
  rw [stripFramed framed, ← Bool.not_eq_true, String.isEmpty_iff]
  rintro rfl
  cases shape

variable {charset : CharacterNames}

theorem documentTypeBack {t : TypeRef} (readable : TypeRef.Readable t) (place : String) :
    documentType (some t.shown) place = .ok (some t.reread) := by
  simp only [documentType, framedFilled (TypeRef.readableFramed readable), TypeRef.parseShown readable]
  rfl

/-- The type that is read from what a document says about a type; a blank text stands for none. -/
def TypeRef.readBack (t : TypeRef) : Option TypeRef := if t = .named "" then none else some t.reread

theorem documentTypeKept {t : TypeRef} (legible : TypeRef.Readable t ∨ t = .named "") (place : String) :
    documentType (some t.shown) place = .ok t.readBack := by
  rcases legible with readable | rfl
  · rw [documentTypeBack readable, TypeRef.readBack, if_neg (TypeRef.readableFilled readable)]
  · rfl

namespace Graph

/-- The graph that is read from the document of a graph. -/
def reread (g : Graph) : Graph := g.retyped TypeRef.reread TypeRef.readBack

def arrayed (g : Graph) : Graph := g.retyped TypeRef.arrayed fun t => some t.arrayed

variable {g : Graph} {charset : CharacterNames}

theorem memberBack {cls m : Symbol} (kept : cls.PortableMember m) (spec : ClassSpec)
    (readable : ∀ t ∈ m.declaredType, TypeRef.Readable t) :
    Document.memberSymbol spec cls m.serial m.spec = .ok (m.retyped TypeRef.reread) := by
  have type : documentType m.spec.type (spec.name ++ "." ++ m.spec.name) = .ok (m.declaredType.map TypeRef.reread) := by
    cases declared : m.declaredType with
    | none => simp [Symbol.spec, declared, documentType]
    | some t =>
      simp only [Symbol.spec, declared, Option.map_some]
      exact documentTypeBack (readable t declared) _
  have markers := documentMarkersKept kept.kept.sorted kept.kept.settled
  have place := placeBack m.location
  have nested : m.enclosing = cls.toDeclaration :: cls.enclosing := congrArg Symbol.enclosing kept.inside.symm
  rw [Document.memberSymbol, type]
  simp only [bind, Except.bind, pure, Except.pure, Symbol.spec, markers, place, Symbol.retyped, Symbol.inside, nested]

theorem entryBack (portable : g.Portable) {e : ClassEntry} (member : e ∈ g.entries)
    (readable : ∀ t ∈ e.types, TypeRef.Readable t) :
    Document.classEntry g.document.classes e.spec = .ok (e.retyped TypeRef.reread) := by
  obtain ⟨i, here⟩ := List.getElem?_of_mem member
  have size : g.document.classes.length = g.entries.length := by simp [document]
  have depth : e.symbol.enclosing.length < g.document.classes.length + 1 := by
    have := (portable.classes e member).depth
    omega
  have symbol : Document.classSymbol g.document.classes (g.document.classes.length + 1)
      ((Document.classNamed? g.document.classes e.spec.name).getD (0, e.spec)) = .ok e.symbol := by
    have found : Document.classNamed? g.document.classes e.spec.name = some (i, e.spec) := namedClass portable here
    rw [found]
    exact classSymbolBack portable _ i e here depth
  have members : (e.spec.members.zipIdx.mapM fun p => Document.memberSymbol e.spec e.symbol p.2 p.1) =
      .ok (e.members.map (·.retyped TypeRef.reread)) := by
    have numbered : e.spec.members.zipIdx = e.members.map fun m => (m.spec, m.serial) := by
      rw [List.zipIdx_eq_zip_range', ← List.zip_map']
      congr 1
      simpa [ClassEntry.spec, List.range_eq_range'] using (portable.memberSerials e member).symm
    rw [numbered, List.mapM_map]
    refine mapMOk fun m inside => memberBack (portable.members e member m inside) _ fun t declared => readable t ?_
    exact List.mem_append_left _ (List.mem_filterMap.2 ⟨m, inside, declared⟩)
  have parents : (e.spec.parents.mapM fun t => documentType (some t) ("parents of " ++ e.spec.name)) =
      .ok (e.parents.map fun t => some t.reread) := by
    have listed : e.spec.parents = e.parents.map (·.shown) := rfl
    rw [listed, List.mapM_map]
    refine mapMOk fun t inside => ?_
    rw [Function.comp_apply, documentTypeBack (readable t (List.mem_append_right _ inside))]
  rw [Document.classEntry, symbol]
  simp only [bind, Except.bind]
  rw [show _ = _ from members]
  simp only [parents, pure, Except.pure]
  simp [ClassEntry.retyped, List.filterMap_map]

theorem aliasBack {a : String × TypeRef} (legible : TypeRef.Readable a.2 ∨ a.2 = .named "") :
    Document.aliasEntry (a.1, a.2.shown) = .ok (a.2.readBack.map fun t => (a.1, t)) := by
  rw [Document.aliasEntry, documentTypeKept legible]
  rfl

theorem ownerBack (portable : g.Portable) {s : Symbol} (member : s ∈ g.staticOwners) :
    Document.ownerNamed g.entries s.qualifiedName = .ok s := by
  obtain ⟨e, known, rfl⟩ := portable.ownersKnown s member
  rw [Document.ownerNamed, findKey portable.names known]

theorem rereadPortable (portable : g.Portable) : g.reread.Portable := retypedPortable portable _ _

theorem graphBack (portable : g.Portable) (readable : ∀ e ∈ g.entries, ∀ t ∈ e.types, TypeRef.Readable t)
    (legible : ∀ a ∈ g.aliases, TypeRef.Readable a.2 ∨ a.2 = .named "") : g.document.toGraph = .ok g.reread := by
  have entries : (g.entries.map (·.spec)).mapM (Document.classEntry g.document.classes) = .ok g.reread.entries := by
    rw [List.mapM_map]
    exact mapMOk fun e member => entryBack portable member (readable e member)
  have aliases : (g.aliases.map fun a => (a.1, a.2.shown)).mapM Document.aliasEntry =
      .ok (g.aliases.map fun a => a.2.readBack.map fun t => (a.1, t)) := by
    rw [List.mapM_map]
    exact mapMOk fun a member => aliasBack (legible a member)
  have owners : (g.staticOwners.map (·.qualifiedName)).mapM (Document.ownerNamed g.reread.entries) =
      .ok (g.staticOwners.map id) := by
    rw [List.mapM_map]
    exact mapMOk fun s member => ownerBack (rereadPortable portable) member
  have dropped : (g.aliases.map fun a => a.2.readBack.map fun t => (a.1, t)).filterMap id = g.reread.aliases := by
    rw [List.filterMap_map]
    rfl
  have built : build g.reread.entries g.reread.aliases g.staticOwners = .ok g.reread := portableBuilt (rereadPortable portable)
  rw [Document.toGraph, show g.document.classes.mapM _ = _ from entries]
  simp only [bind, Except.bind]
  rw [show g.document.aliases.mapM _ = _ from aliases]
  simp only
  rw [show g.document.staticOwners.mapM _ = _ from owners]
  simp only [dropped, List.map_id]
  rw [built]
  rfl

end Graph

/-! The graph that is read back differs in how its types are written, and in aliases of nothing. -/

namespace TypeRef

theorem headsMember {args : List TypeRef} {x : String} (member : x ∈ headsAll args) : ∃ t ∈ args, x ∈ t.heads := by
  induction args with
  | nil => simp [headsAll] at member
  | cons t args ih =>
    rw [headsAll] at member
    rcases List.mem_append.1 member with first | later
    · exact ⟨t, by simp, first⟩
    · obtain ⟨u, inside, here⟩ := ih later
      exact ⟨u, by simp [inside], here⟩

theorem readableHeads {t : TypeRef} (readable : Readable t) : "" ∉ t.heads := by
  intro member
  induction readable with
  | named name _ => exact dottedNonempty name (List.mem_singleton.1 member).symm
  | applied name _ _ _ => exact dottedNonempty name (List.mem_singleton.1 member).symm
  | union _ _ ih =>
    obtain ⟨t, inside, here⟩ := headsMember member
    exact ih t inside here
  | intersection _ _ ih =>
    obtain ⟨t, inside, here⟩ := headsMember member
    exact ih t inside here
  | array _ _ => cases member

end TypeRef

theorem valueOfRead (read : TypeRef → Option TypeRef) {aliases : List (String × TypeRef)}
    (distinct : (aliases.map (·.1)).Nodup) (name : String) :
    valueOf? name (aliases.filterMap fun a => (read a.2).map fun t => (a.1, t)) = (valueOf? name aliases).bind read := by
  induction aliases with
  | nil => rfl
  | cons a aliases ih =>
    obtain ⟨fresh, rest⟩ := List.nodup_cons.1 distinct
    have later := ih rest
    obtain ⟨key, t⟩ := a
    by_cases same : key = name
    · subst same
      cases kept : read t with
      | some u => simp [kept, valueOf?]
      | none =>
        have absent : valueOf? key aliases = none := by
          cases found : valueOf? key aliases with
          | none => rfl
          | some u => exact absurd (List.mem_map.2 ⟨_, valueOfKey found, rfl⟩) fresh
        simpa [kept, valueOf?, absent] using later
    · cases kept : read t with
      | some u => simpa [kept, valueOf?, same] using later
      | none => simpa [kept, valueOf?, same] using later

namespace Graph

variable {g : Graph}

theorem aliasType {a : String × TypeRef} (member : a ∈ g.aliases) : a.2 ∈ g.types :=
  List.mem_append_right _ (List.mem_map_of_mem member)

theorem entryType {e : ClassEntry} (known : e ∈ g.entries) {t : TypeRef} (inside : t ∈ e.types) : t ∈ g.types :=
  List.mem_append_left _ (List.mem_flatMap.2 ⟨e, known, inside⟩)

/-- Without applications of names for arrays there is nothing to take for an array. -/
theorem arrayedGraph (free : ∀ t ∈ g.types, t.arrayFree = true) : g.arrayed = g := by
  have same : ∀ t ∈ g.types, t.arrayed = t := fun t member => TypeRef.arrayedFree t (free t member)
  have entries : g.entries.map (·.retyped TypeRef.arrayed) = g.entries := by
    refine (List.map_congr_left fun e known => ?_).trans (List.map_id _)
    have members : e.members.map (·.retyped TypeRef.arrayed) = e.members := by
      refine (List.map_congr_left fun m inside => ?_).trans (List.map_id _)
      have type : m.declaredType.map TypeRef.arrayed = m.declaredType := by
        cases declared : m.declaredType with
        | none => rfl
        | some t =>
          have here : t ∈ e.types := List.mem_append_left _ (List.mem_filterMap.2 ⟨m, inside, declared⟩)
          rw [Option.map_some, same t (entryType known here)]
      rw [Symbol.retyped, type, id]
    have parents : e.parents.map TypeRef.arrayed = e.parents :=
      (List.map_congr_left fun t inside => same t (entryType known (List.mem_append_right _ inside))).trans (List.map_id _)
    rw [ClassEntry.retyped, members, parents, id]
  have aliases : (g.aliases.filterMap fun a => (some a.2.arrayed).map fun t => (a.1, t)) = g.aliases := by
    refine (List.filterMap_congr fun a member => ?_).trans List.filterMap_some
    rw [Option.map_some, same a.2 (aliasType member)]
  rw [arrayed, retyped, entries, aliases]

theorem arrayedValue (portable : g.Portable) (name : String) :
    valueOf? name g.arrayed.aliases = (valueOf? name g.aliases).bind fun t => some t.arrayed :=
  valueOfRead (fun t => some t.arrayed) portable.aliases name

theorem aliasHeadsReread (portable : g.Portable) (legible : ∀ a ∈ g.aliases, TypeRef.Readable a.2 ∨ a.2 = .named "")
    (name : String) : g.reread.aliasHeads name = (g.arrayed.aliasHeads name).filter (· ≠ "") := by
  have bound : valueOf? name g.reread.aliases = (valueOf? name g.aliases).bind TypeRef.readBack :=
    valueOfRead TypeRef.readBack portable.aliases name
  rw [aliasHeads, aliasHeads, bound, arrayedValue portable]
  cases found : valueOf? name g.aliases with
  | none => rfl
  | some t =>
    rcases legible _ (valueOfKey found) with readable | blank
    · have kept : t.arrayed.heads.filter (· ≠ "") = t.arrayed.heads := by
        rw [List.filter_eq_self]
        intro x inside
        have other : x ≠ "" := fun empty => TypeRef.readableHeads (TypeRef.readableArrayed readable) (empty ▸ inside)
        simpa using other
      simp only [Option.bind_some, TypeRef.readBack, if_neg (TypeRef.readableFilled readable), kept]
      exact TypeRef.rereadHeads t
    · have empty : t = .named "" := blank
      subst empty
      rfl

theorem rereadEntries : g.reread.entries = g.arrayed.entries.map (·.retyped TypeRef.normal) := by
  have types : TypeRef.reread = TypeRef.normal ∘ TypeRef.arrayed := funext TypeRef.rereadNormal
  have members : ∀ m : Symbol, m.retyped TypeRef.reread = (m.retyped TypeRef.arrayed).retyped TypeRef.normal := by
    intro m
    simp only [Symbol.retyped, Option.map_map, types]
  rw [reread, arrayed, retyped, retyped, List.map_map]
  refine List.map_congr_left fun e _ => ?_
  simp only [Function.comp_apply, ClassEntry.retyped, List.map_map, types]
  congr 1
  exact List.map_congr_left fun m _ => (types ▸ members m :)

theorem arrayedReadable (readable : ∀ e ∈ g.entries, ∀ t ∈ e.types, TypeRef.Readable t) :
    ∀ e ∈ g.arrayed.entries, ∀ t ∈ e.types, TypeRef.Readable t := by
  intro e member t inside
  obtain ⟨d, known, rfl⟩ := List.mem_map.1 member
  rw [ClassEntry.retypedTypes] at inside
  obtain ⟨u, here, rfl⟩ := List.mem_map.1 inside
  exact TypeRef.readableArrayed (readable d known u here)

/-- A graph that is read back differs in the parentheses of its types and in aliases of nothing, and in that every
application of a name for arrays has become an array. -/
theorem rereadRetyping (portable : g.Portable) (readable : ∀ e ∈ g.entries, ∀ t ∈ e.types, TypeRef.Readable t)
    (legible : ∀ a ∈ g.aliases, TypeRef.Readable a.2 ∨ a.2 = .named "")
    (unnamed : (∃ a ∈ g.aliases, a.2 = .named "") → valueOf? "" g.aliases = none) :
    Retyping TypeRef.normal g.arrayed g.reread where
  entries := rereadEntries
  owners := rfl
  classes := by
    have same : g.reread.lookup = g.arrayed.lookup := by rw [reread, arrayed, lookupRetyped, lookupRetyped]
    refine classesAgree same (aliasHeadsReread portable legible) fun name x member dropped n path => ?_
    have empty : x = "" := by simpa using dropped
    subst empty
    have absent : valueOf? "" g.arrayed.aliases = none := by
      rw [aliasHeads, arrayedValue portable] at member
      cases found : valueOf? name g.aliases with
      | none => simp [found] at member
      | some t =>
        rw [found] at member
        rcases legible _ (valueOfKey found) with readable | blank
        · exact absurd member (TypeRef.readableHeads (TypeRef.readableArrayed readable))
        · rw [arrayedValue portable, unnamed ⟨_, valueOfKey found, blank⟩]
          rfl
    have unknown : g.arrayed.lookup "" = none := by rw [arrayed, lookupRetyped, unnamedClass portable]
    cases n <;> simp [expand, unknown, absent]
  members := by
    intro m member t declared
    obtain ⟨e, known, inside⟩ := List.mem_flatMap.1 member
    have here : t ∈ e.types := List.mem_append_left _ (List.mem_filterMap.2 ⟨m, inside, declared⟩)
    exact ⟨TypeRef.headsNormal t, TypeRef.normalTold (arrayedReadable readable e known t here)⟩
  parents := fun e known t inside => TypeRef.headsNormal t
  distinct := fun m first n second same => memberUnique (retypedPortable portable _ _) first second same

end Graph

end SharedState
