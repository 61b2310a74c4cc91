import SharedState.Proofs.Inputs

/-! What a document says. A valid document has a graph exactly if its classes have distinct names, the owners that it names are among
them, and its texts are types; and the graph has these classes, members, types and owners in the order of the document. -/
namespace SharedState

open SharedState.Source SharedState.Text

/-! Types that are written in a document. -/

/-- A text that is blank or a type. -/
def ReadsType [CharacterNames] (text : String) : Prop := strip text = "" ∨ ∃ t, parseType text = .ok (some t)

def textType? [CharacterNames] (text : String) : Option TypeRef :=
  if (strip text).isEmpty then none else (parseType text).toOption.join

theorem documentTypeIff [CharacterNames] (text : Option String) (place : String) (o : Option TypeRef) :
    documentType text place = .ok o ↔ (∀ t ∈ text, ReadsType t) ∧ o = text.bind textType? := by
  cases text with
  | none => simp [documentType, eq_comm]
  | some text =>
    simp only [documentType, textType?, ReadsType, Option.mem_def, Option.some.injEq, forall_eq', Option.bind_some]
    by_cases blank : strip text = ""
    · have empty : (strip text).isEmpty = true := by simpa using blank
      rw [if_pos empty, if_pos empty]
      simp only [blank, true_or, true_and, Except.ok.injEq]
      exact eq_comm
    · have filled : (strip text).isEmpty = false := by simpa using blank
      simp only [filled, Bool.false_eq_true, if_false, blank, false_or]
      cases parseType text with
      | error e => simp
      | ok t =>
        cases t with
        | none => simp
        | some t =>
          simp only [Except.ok.injEq, Option.some.injEq, exists_eq', true_and]
          exact eq_comm

namespace Graph

/- Owners that can be told apart by their names are listed once, where they come first. -/
theorem buildOwners {classes : List ClassEntry} {aliases : List (String × TypeRef)} {owners : List Symbol} {g : Graph}
    (done : build classes aliases owners = .ok g) (known : ∀ s ∈ owners, ∃ e ∈ g.entries, e.symbol = s) :
    g.staticOwners.map (·.qualifiedName) = (owners.map (·.qualifiedName)).eraseDups := by
  have apart : ∀ s ∈ owners, ∀ t ∈ owners, s.qualifiedName = t.qualifiedName → s = t := by
    intro s first t second same
    obtain ⟨e, here, rfl⟩ := known s first
    obtain ⟨f, there, rfl⟩ := known t second
    exact congrArg (·.symbol) (List.inj_on_of_nodup_map (buildSource done).names here there same)
  rw [(buildFirst done).2, eraseDupsMap apart]

end Graph

def ClassSpec.texts (c : ClassSpec) : List String := c.members.filterMap (·.type) ++ c.parents

namespace Document

def texts (doc : Document) : List String := doc.classes.flatMap (·.texts) ++ doc.aliases.map (·.2)

/-- What is wrong with a document. -/
inductive Defective [CharacterNames] (doc : Document) : Prop where
  | repeated (twice : ¬ (doc.classes.map (·.name)).Nodup)
  | owner {c : ClassSpec} {o : String} (here : c ∈ doc.classes) (owned : c.owner = some o) (unknown : ∀ d ∈ doc.classes, d.name ≠ o)
  | staticOwner {o : String} (here : o ∈ doc.staticOwners) (unknown : ∀ d ∈ doc.classes, d.name ≠ o)
  | text {t : String} (here : t ∈ doc.texts) (filled : strip t ≠ "") (untyped : parseType t = .ok none)

section
variable {charset : CharacterNames}

theorem soundIff {doc : Document} : ¬ doc.Defective ↔ (doc.classes.map (·.name)).Nodup ∧
    (∀ c ∈ doc.classes, ∀ o ∈ c.owner, ∃ d ∈ doc.classes, d.name = o) ∧ (∀ o ∈ doc.staticOwners, ∃ d ∈ doc.classes, d.name = o) ∧
    ∀ t ∈ doc.texts, strip t ≠ "" → parseType t ≠ .ok none := by
  constructor
  · intro sound
    refine ⟨?_, ?_, ?_, ?_⟩
    · by_contra twice
      exact sound (.repeated twice)
    · intro c here o owned
      by_contra unknown
      exact sound (.owner here owned fun d there same => unknown ⟨d, there, same⟩)
    · intro o here
      by_contra unknown
      exact sound (.staticOwner here fun d there same => unknown ⟨d, there, same⟩)
    · intro t here filled untyped
      exact sound (.text here filled untyped)
  · intro right defective
    obtain ⟨names, owners, statics, texts⟩ := right
    cases defective with
    | repeated twice => exact twice names
    | owner here owned unknown =>
      obtain ⟨d, there, same⟩ := owners _ here _ owned
      exact unknown d there same
    | staticOwner here unknown =>
      obtain ⟨d, there, same⟩ := statics _ here
      exact unknown d there same
    | text here filled untyped => exact texts _ here filled untyped

instance (doc : Document) : Decidable doc.Defective :=
  decidable_of_iff _ ((not_congr soundIff.symm).trans not_not)

structure MemberTold [CharacterNames] (cls : Symbol) (m : MemberSpec) (s : Symbol) : Prop where
  owner : s.owner? = some cls
  name : s.name = m.name
  kind : s.kind = m.kind
  type : s.declaredType = m.type.bind textType?
  mutable : s.mutable = m.mutable
  markers : s.markers = documentMarkers m.annotations
  location : s.location = m.location.map (·.toLocation)

structure ClassTold [CharacterNames] (g : Graph) (c : ClassSpec) (e : ClassEntry) : Prop where
  name : e.symbol.qualifiedName = c.name
  outermost : c.owner = none → e.symbol.owner? = none
  nested : ∀ o, c.owner = some o → ∃ outer ∈ g.entries, outer.symbol.qualifiedName = o ∧ e.symbol.owner? = some outer.symbol
  kind : e.symbol.kind = c.kind
  markers : e.symbol.markers = documentMarkers c.annotations
  location : e.symbol.location = c.location.map (·.toLocation)
  members : List.Forall₂ (MemberTold e.symbol) c.members e.members
  parents : e.parents = c.parents.filterMap textType?

/-- The graph that a document describes. -/
structure Describes [CharacterNames] (doc : Document) (g : Graph) : Prop where
  classes : List.Forall₂ (ClassTold g) doc.classes g.entries
  aliases : g.aliases = doc.aliases.filterMap fun a => (textType? a.2).map (a.1, ·)
  owners : g.staticOwners.map (·.qualifiedName) = doc.staticOwners.eraseDups
  known : ∀ s ∈ g.staticOwners, ∃ e ∈ g.entries, e.symbol = s

/-! Classes and their owners. -/

variable {specs : List ClassSpec}

theorem namedSome {name : String} {d : ClassSpec} (known : d ∈ specs) (same : d.name = name) :
    ∃ found, classNamed? specs name = some found := by
  have some : ((classNamed? specs name).map (·.2)).isSome = true := by
    rw [classNamedFind, List.find?_isSome]
    exact ⟨d, known, by simp [same]⟩
  rw [Option.isSome_map] at some
  exact Option.isSome_iff_exists.1 some

theorem ownerShorter {spec : ClassSpec} (valid : spec.Valid) {o : String} (owned : spec.owner = some o) :
    o.length < spec.name.length := by
  obtain ⟨rest, spelled⟩ := valid.owner o owned
  have sizes := congrArg List.length spelled
  simp only [List.length_append, List.length_singleton, String.length_toList] at sizes
  omega

def shorter (specs : List ClassSpec) (c : ClassSpec) : List ClassSpec := specs.filter fun d => d.name.length < c.name.length

theorem shorterFewer {c d : ClassSpec} (known : d ∈ specs) (less : d.name.length < c.name.length) :
    (shorter specs d).length < (shorter specs c).length := by
  have inner : shorter specs d = (shorter specs c).filter fun e => e.name.length < d.name.length := by
    rw [shorter, shorter, List.filter_filter]
    refine List.filter_congr fun e _ => ?_
    by_cases small : e.name.length < d.name.length
    · simp [small, Nat.lt_trans small less]
    · simp [small]
  rw [inner, List.length_filter_lt_length_iff_exists]
  exact ⟨d, List.mem_filter.2 ⟨known, by simpa using less⟩, by simp⟩

/- Owners have shorter names, so what bounds the search is never reached. -/
theorem classSymbolDone (valid : ∀ c ∈ specs, c.Valid)
    (owners : ∀ c ∈ specs, ∀ o, c.owner = some o → ∃ d ∈ specs, d.name = o) (n : Nat) :
    ∀ serial, ∀ c ∈ specs, (shorter specs c).length < n → ∃ s, classSymbol specs n (serial, c) = .ok s := by
  induction n with
  | zero =>
    intro serial c _ impossible
    omega
  | succ n ih =>
    intro serial c known enough
    unfold classSymbol
    cases owned : c.owner with
    | none => exact ⟨_, rfl⟩
    | some o =>
      obtain ⟨d, there, same⟩ := owners c known o owned
      obtain ⟨found, named⟩ := namedSome there same
      obtain ⟨inside, called⟩ := namedFound named
      -- the entry that is found may be another one of that name, which is as short
      have less := shorterFewer inside (called ▸ ownerShorter (valid c known) owned)
      obtain ⟨outer, made⟩ := ih found.1 found.2 inside (by omega)
      simp only [named, made]
      exact ⟨_, rfl⟩

theorem classSymbolOwner {n serial : Nat} {c : ClassSpec} {s : Symbol} (done : classSymbol specs (n + 1) (serial, c) = .ok s) :
    (c.owner = none → s.owner? = none) ∧ ∀ o, c.owner = some o →
      ∃ found outer, classNamed? specs o = some found ∧ classSymbol specs n found = .ok outer ∧ s.owner? = some outer := by
  unfold classSymbol at done
  cases owned : c.owner with
  | none =>
    simp only [owned] at done
    cases Except.ok.inj done
    exact ⟨fun _ => rfl, by simp⟩
  | some o =>
    simp only [owned] at done
    cases named : classNamed? specs o with
    | none => simp [named] at done
    | some found =>
      cases above : classSymbol specs n found with
      | error e => simp [named, above] at done
      | ok outer =>
        simp only [named, above] at done
        cases Except.ok.inj done
        refine ⟨by simp, ?_⟩
        intro p same
        cases Option.some.inj same
        exact ⟨found, outer, named, above, Symbol.ownerInside _ _⟩

/-! Entries in full. -/

def memberOf [CharacterNames] (cls : Symbol) (m : MemberSpec × Nat) : Symbol :=
  cls.inside
    { serial := m.2, name := m.1.name, kind := m.1.kind, declaredType := m.1.type.bind textType?, mutable := m.1.mutable,
      markers := documentMarkers m.1.annotations, location := m.1.location.map (·.toLocation) }

theorem memberIff (c : ClassSpec) (cls : Symbol) (m : MemberSpec × Nat) (s : Symbol) :
    memberSymbol c cls m.2 m.1 = .ok s ↔ (∀ t ∈ m.1.type, ReadsType t) ∧ s = memberOf cls m := by
  unfold memberSymbol
  rw [bindIff]
  simp only [documentTypeIff]
  constructor
  · intro made
    obtain ⟨t, ⟨reads, typed⟩, made⟩ := made
    rw [memberOf, ← typed]
    exact ⟨reads, (Except.ok.inj made).symm⟩
  · intro told
    obtain ⟨reads, same⟩ := told
    exact ⟨_, ⟨reads, rfl⟩, congrArg Except.ok same.symm⟩

theorem parentIff (place text : String) (o : Option TypeRef) :
    documentType (some text) place = .ok o ↔ ReadsType text ∧ o = textType? text := by
  rw [documentTypeIff]
  simp

theorem aliasIff (a : String × String) (o : Option (String × TypeRef)) :
    aliasEntry a = .ok o ↔ ReadsType a.2 ∧ o = (textType? a.2).map (a.1, ·) := by
  unfold aliasEntry
  rw [bindIff]
  simp only [parentIff]
  constructor
  · intro made
    obtain ⟨t, ⟨reads, typed⟩, made⟩ := made
    rw [← typed]
    exact ⟨reads, (Except.ok.inj made).symm⟩
  · intro told
    obtain ⟨reads, same⟩ := told
    exact ⟨_, ⟨reads, rfl⟩, congrArg Except.ok same.symm⟩

theorem entryIff (c : ClassSpec) (e : ClassEntry) :
    classEntry specs c = .ok e ↔ (∀ t ∈ c.texts, ReadsType t) ∧ ∃ cls,
      classSymbol specs (specs.length + 1) ((classNamed? specs c.name).getD (0, c)) = .ok cls ∧
      e = { symbol := cls, members := c.members.zipIdx.map (memberOf cls), parents := c.parents.filterMap textType? } := by
  have typed : (∀ m ∈ c.members.zipIdx, ∀ t ∈ m.1.type, ReadsType t) ↔ ∀ t ∈ c.members.filterMap (·.type), ReadsType t := by
    have plain : c.members.zipIdx.map (·.1) = c.members := List.zipIdx_map_fst 0 c.members
    conv_rhs => rw [← plain]
    simp only [List.forall_mem_filterMap, List.forall_mem_map, Option.mem_def]
  unfold classEntry
  simp only [bindIff, mapMIff (memberIff c _), mapMIff (parentIff _), ClassSpec.texts, List.forall_mem_append, ← typed]
  constructor
  · intro made
    obtain ⟨cls, found, members, ⟨inner, rfl⟩, parents, ⟨outer, rfl⟩, made⟩ := made
    refine ⟨⟨inner, outer⟩, cls, found, ?_⟩
    rw [← Except.ok.inj made, List.filterMap_map, Function.id_comp]
  · intro told
    obtain ⟨⟨inner, outer⟩, cls, found, rfl⟩ := told
    refine ⟨cls, found, _, ⟨inner, rfl⟩, _, ⟨outer, rfl⟩, ?_⟩
    rw [List.filterMap_map, Function.id_comp]
    rfl

theorem membersTold (cls : Symbol) (members : List MemberSpec) (k : Nat) :
    List.Forall₂ (MemberTold cls) members ((members.zipIdx k).map (memberOf cls)) := by
  induction members generalizing k with
  | nil => exact .nil
  | cons m members ih => exact .cons ⟨Symbol.ownerInside _ _, rfl, rfl, rfl, rfl, rfl, rfl⟩ (ih (k + 1))

theorem ownerFound {entries : List ClassEntry} {name : String} {s : Symbol} (done : ownerNamed entries name = .ok s) :
    ∃ e ∈ entries, e.symbol = s ∧ s.qualifiedName = name := by
  unfold ownerNamed at done
  split at done
  · rename_i e found
    cases Except.ok.inj done
    exact ⟨e, List.mem_of_find?_eq_some found, rfl, by simpa using List.find?_some found⟩
  · cases done

theorem ownerThere {entries : List ClassEntry} {name : String} {e : ClassEntry} (known : e ∈ entries)
    (named : e.symbol.qualifiedName = name) : ∃ s, ownerNamed entries name = .ok s := by
  unfold ownerNamed
  cases found : entries.find? fun e => e.symbol.qualifiedName == name with
  | some e => exact ⟨_, rfl⟩
  | none => exact absurd named (by simpa using List.find?_eq_none.1 found e known)

theorem toGraphIff {doc : Document} {g : Graph} : doc.toGraph = .ok g ↔ ∃ entries owners,
    doc.classes.mapM (classEntry doc.classes) = .ok entries ∧ (∀ a ∈ doc.aliases, ReadsType a.2) ∧
    doc.staticOwners.mapM (ownerNamed entries) = .ok owners ∧
    Graph.build entries (doc.aliases.filterMap fun a => (textType? a.2).map (a.1, ·)) owners = .ok g := by
  have table : (doc.aliases.map fun a => (textType? a.2).map fun t => (a.1, t)).filterMap id =
      doc.aliases.filterMap fun a => (textType? a.2).map (a.1, ·) := by
    rw [List.filterMap_map, Function.id_comp]
  unfold toGraph
  simp only [bindIff, mapMIff aliasIff]
  constructor
  · intro made
    obtain ⟨entries, classes, aliases, ⟨reads, rfl⟩, owners, owned, made⟩ := made
    rw [table] at made
    split at made
    · rename_i h built
      cases Except.ok.inj made
      exact ⟨entries, owners, classes, reads, owned, built⟩
    · cases made
  · intro told
    obtain ⟨entries, owners, classes, reads, owned, built⟩ := told
    refine ⟨entries, classes, _, ⟨reads, rfl⟩, owners, owned, ?_⟩
    rw [table, built]
    rfl

/-! A graph and the document that it is made from. -/

theorem placeKnown {c : ClassSpec} (distinct : (specs.map (·.name)).Nodup) (here : c ∈ specs) :
    ∃ i, classNamed? specs c.name = some (i, c) := by
  obtain ⟨i, there⟩ := List.getElem?_of_mem here
  exact ⟨i, classNamedAt distinct there⟩

theorem symbolTold (valid : ∀ c ∈ specs, c.Valid) (distinct : (specs.map (·.name)).Nodup) {c : ClassSpec} (here : c ∈ specs)
    {e : ClassEntry} (made : classEntry specs c = .ok e) :
    ∃ i, classSymbol specs (specs.length + 1) (i, c) = .ok e.symbol ∧ Symbolizes specs specs.length i c e.symbol := by
  obtain ⟨i, place⟩ := placeKnown distinct here
  have found := entrySymbol made
  rw [place, Option.getD_some] at found
  obtain ⟨n, size, symbolizes⟩ := classSymbolMade valid _ i c _ (valid c here) found
  cases Nat.succ.inj size
  exact ⟨i, found, symbolizes⟩

theorem classTold {doc : Document} (valid : doc.Valid) {g : Graph}
    (related : List.Forall₂ (fun c e => classEntry doc.classes c = .ok e) doc.classes g.entries)
    (distinct : (doc.classes.map (·.name)).Nodup) {c : ClassSpec} (here : c ∈ doc.classes) {e : ClassEntry}
    (made : classEntry doc.classes c = .ok e) : ClassTold g c e := by
  obtain ⟨i, found, symbolizes⟩ := symbolTold valid.classes distinct here made
  obtain ⟨outermost, nested⟩ := classSymbolOwner found
  obtain ⟨_, cls, _, rfl⟩ := (entryIff c e).1 made
  refine ⟨symbolizes.name, outermost, ?_, symbolizes.kind, symbolizes.markers, symbolizes.location, membersTold cls c.members 0, rfl⟩
  intro o owned
  obtain ⟨outer, symbol, named, above, owner⟩ := nested o owned
  obtain ⟨inside, called⟩ := namedFound named
  obtain ⟨f, known, rfl⟩ := ownerMade related (called ▸ named) (Nat.le_refl _) above
  obtain ⟨_, _, symbolizes⟩ := classSymbolMade valid.classes _ outer.1 outer.2 _ (valid.classes _ inside) above
  exact ⟨f, known, symbolizes.name.trans called, owner⟩

theorem graphDescribed {doc : Document} (valid : doc.Valid) {g : Graph} (done : doc.toGraph = .ok g) : doc.Describes g := by
  obtain ⟨entries, owners, made, reads, owned, built⟩ := toGraphIff.1 done
  have source := Graph.buildSource built
  obtain rfl := source.entries
  have related := mapMEach made
  have names : doc.classes.map (·.name) = g.entries.map (·.symbol.qualifiedName) :=
    relatedMap related fun c here e made => entryName valid.classes here made
  have distinct : (doc.classes.map (·.name)).Nodup := names ▸ source.names
  have called : doc.staticOwners.map id = owners.map (·.qualifiedName) := by
    refine relatedMap (mapMEach owned) fun name _ s found => ?_
    obtain ⟨_, _, _, named⟩ := ownerFound found
    exact named.symm
  have known : ∀ s ∈ owners, ∃ e ∈ g.entries, e.symbol = s := by
    intro s listed
    obtain ⟨name, _, found⟩ := relatedRight (mapMEach owned) s listed
    exact ownerKnown found
  refine ⟨relatedImp related fun c here e made => classTold valid related distinct here made, ?_, ?_, source.ownersKnown⟩
  · have keys := valid.aliases.sublist (aliasKeys ((mapMIff aliasIff).2 ⟨reads, rfl⟩))
    rw [List.filterMap_map] at keys
    rw [(Graph.buildParts built).1]
    exact bindAllFresh _ _ (by simpa using keys)
  · rw [Graph.buildOwners built known, ← called, List.map_id]

theorem graphSound {doc : Document} (valid : doc.Valid) {g : Graph} (done : doc.toGraph = .ok g) : ¬ doc.Defective := by
  have described := graphDescribed valid done
  obtain ⟨entries, owners, made, reads, owned, built⟩ := toGraphIff.1 done
  have source := Graph.buildSource built
  obtain rfl := source.entries
  have names : doc.classes.map (·.name) = g.entries.map (·.symbol.qualifiedName) :=
    relatedMap described.classes fun c _ e told => told.name.symm
  have called : ∀ e ∈ g.entries, ∃ d ∈ doc.classes, d.name = e.symbol.qualifiedName := by
    intro e known
    obtain ⟨d, there, told⟩ := relatedRight described.classes e known
    exact ⟨d, there, told.name.symm⟩
  refine soundIff.2 ⟨names ▸ source.names, ?_, ?_, ?_⟩
  · intro c here o owned
    obtain ⟨e, _, told⟩ := relatedRight described.classes.flip c here
    obtain ⟨outer, known, named, _⟩ := told.nested o owned
    exact named ▸ called outer known
  · intro o here
    obtain ⟨s, found⟩ := mapMDone owned o here
    obtain ⟨e, known, rfl, named⟩ := ownerFound found
    exact named ▸ called e known
  · intro t here filled untyped
    have typed : ReadsType t := by
      rcases List.mem_append.1 here with inside | aliased
      · obtain ⟨c, there, part⟩ := List.mem_flatMap.1 inside
        obtain ⟨e, entered⟩ := mapMDone made c there
        exact ((entryIff c e).1 entered).1 t part
      · obtain ⟨a, there, rfl⟩ := List.mem_map.1 aliased
        exact reads a there
    obtain ⟨u, parsed⟩ := typed.resolve_left filled
    rw [untyped] at parsed
    cases parsed

theorem graphExists {doc : Document} (valid : doc.Valid) (literals : ∀ t ∈ doc.texts, ∃ o, parseType t = .ok o)
    (sound : ¬ doc.Defective) : ∃ g, doc.toGraph = .ok g := by
  obtain ⟨distinct, owners, statics, texts⟩ := soundIff.1 sound
  have reads : ∀ t ∈ doc.texts, ReadsType t := by
    intro t here
    obtain ⟨o, parsed⟩ := literals t here
    cases o with
    | some u => exact .inr ⟨u, parsed⟩
    | none =>
      by_contra unread
      exact texts t here (fun blank => unread (.inl blank)) parsed
  obtain ⟨entries, made⟩ : ∃ entries, doc.classes.mapM (classEntry doc.classes) = .ok entries := by
    refine mapMAll fun c here => ?_
    obtain ⟨i, place⟩ := placeKnown distinct here
    have enough : (shorter doc.classes c).length < doc.classes.length + 1 := Nat.lt_succ_of_le (List.length_filter_le _ _)
    obtain ⟨cls, found⟩ := classSymbolDone valid.classes owners _ i c here enough
    refine ⟨_, (entryIff c _).2 ⟨fun t part => reads t ?_, cls, by rw [place]; exact found, rfl⟩⟩
    exact List.mem_append_left _ (List.mem_flatMap.2 ⟨c, here, part⟩)
  have related := mapMEach made
  have names : doc.classes.map (·.name) = entries.map (·.symbol.qualifiedName) :=
    relatedMap related fun c here e made => entryName valid.classes here made
  obtain ⟨owners, owned⟩ : ∃ owners, doc.staticOwners.mapM (ownerNamed entries) = .ok owners := by
    refine mapMAll fun name here => ?_
    obtain ⟨d, there, same⟩ := statics name here
    obtain ⟨e, known, made⟩ := relatedRight related.flip d there
    exact ownerThere known ((entryName valid.classes there made).symm.trans same)
  have isClass : ∀ e ∈ entries, e.symbol.isClass = true := by
    intro e known
    obtain ⟨c, here, made⟩ := relatedRight related e known
    obtain ⟨_, _, symbolizes⟩ := symbolTold valid.classes distinct here made
    rw [Symbol.isClass, symbolizes.kind]
    exact (valid.classes c here).kind
  have known : ∀ s ∈ owners, ∃ e ∈ entries, e.symbol = s := by
    intro s listed
    obtain ⟨name, _, found⟩ := relatedRight (mapMEach owned) s listed
    exact ownerKnown found
  obtain ⟨g, built⟩ := Graph.buildSucceeds (doc.aliases.filterMap fun a => (textType? a.2).map (a.1, ·)) isClass
    (names ▸ distinct) known
  refine ⟨g, toGraphIff.2 ⟨entries, owners, made, fun a here => reads a.2 ?_, owned, built⟩⟩
  exact List.mem_append_right _ (List.mem_map_of_mem here)

/-! Failures. -/

theorem symbolError {n : Nat} {found : Nat × ClassSpec} {e : DocumentError} (failed : classSymbol specs n found = .error e) :
    ∃ owner name, e = .unknownOwner owner name := by
  induction n generalizing found with
  | zero => exact ⟨_, _, (Except.error.inj failed).symm⟩
  | succ n ih =>
    unfold classSymbol at failed
    simp only at failed
    split at failed
    · cases failed
    · split at failed
      · exact ⟨_, _, (Except.error.inj failed).symm⟩
      · split at failed
        · rename_i above
          cases Except.error.inj failed
          exact ih above
        · cases failed

theorem typeLiteral {text : Option String} {place : String} {e : LiteralError}
    (failed : fault? (documentType text place) = some (.literal e)) : ∃ t ∈ text, parseType t = .error e := by
  rw [faultSome] at failed
  unfold documentType at failed
  split at failed
  · cases failed
  · rename_i t
    split at failed
    · cases failed
    · split at failed
      · rename_i parsed
        cases failed
        exact ⟨t, rfl, parsed⟩
      · cases failed
      · cases failed

theorem literalText {doc : Document} {e : LiteralError} (failed : doc.toGraph = .error (.literal e)) :
    ∃ t ∈ doc.texts, parseType t = .error e := by
  rcases Option.or_eq_some_iff.1 ((graphLiteral doc e).1 failed) with classes | ⟨_, aliases⟩
  · obtain ⟨c, here, fault⟩ := List.exists_of_findSome?_eq_some classes
    have inside : ∀ t ∈ c.texts, t ∈ doc.texts := fun t part =>
      List.mem_append_left _ (List.mem_flatMap.2 ⟨c, here, part⟩)
    rcases Option.or_eq_some_iff.1 fault with symbol | ⟨_, later⟩
    · obtain ⟨_, _, impossible⟩ := symbolError (faultSome.1 symbol)
      cases impossible
    · rcases Option.or_eq_some_iff.1 later with members | ⟨_, parents⟩
      · obtain ⟨m, there, fault⟩ := List.exists_of_findSome?_eq_some members
        obtain ⟨t, typed, parsed⟩ := typeLiteral fault
        exact ⟨t, inside t (List.mem_append_left _ (List.mem_filterMap.2 ⟨m, there, typed⟩)), parsed⟩
      · obtain ⟨p, there, fault⟩ := List.exists_of_findSome?_eq_some parents
        obtain ⟨t, same, parsed⟩ := typeLiteral fault
        cases Option.some.inj same
        exact ⟨p, inside p (List.mem_append_right _ there), parsed⟩
  · obtain ⟨a, here, fault⟩ := List.exists_of_findSome?_eq_some aliases
    obtain ⟨t, same, parsed⟩ := typeLiteral fault
    cases Option.some.inj same
    exact ⟨a.2, List.mem_append_right _ (List.mem_map_of_mem here), parsed⟩

/- A valid document without ill-formed literals in its types is refused exactly if something is wrong with it, and otherwise has the
graph that it describes. -/
theorem consistentGraph {doc : Document} (valid : doc.Valid) (literals : ∀ t ∈ doc.texts, ∃ o, parseType t = .ok o) :
    ((∃ e, doc.toGraph = .error e ∧ ∀ l, e ≠ .literal l) ↔ doc.Defective) ∧
      (¬ doc.Defective → ∃ g, doc.toGraph = .ok g ∧ doc.Describes g) := by
  refine ⟨⟨?_, ?_⟩, ?_⟩
  · intro refused
    obtain ⟨e, failed, _⟩ := refused
    by_contra sound
    obtain ⟨g, done⟩ := graphExists valid literals sound
    rw [failed] at done
    cases done
  · intro defective
    cases done : doc.toGraph with
    | ok g => exact absurd defective (graphSound valid done)
    | error e =>
      refine ⟨e, rfl, ?_⟩
      intro l same
      obtain ⟨t, here, failed⟩ := literalText (same ▸ done)
      obtain ⟨o, parsed⟩ := literals t here
      rw [failed] at parsed
      cases parsed
  · intro sound
    obtain ⟨g, done⟩ := graphExists valid literals sound
    exact ⟨g, done, graphDescribed valid done⟩

end

/- A class stands before the classes around it, an owner is named twice, and some texts are blank. -/
def nestedFirst : Document :=
  { classes := [
      { name := "m.A.B.C", owner := some "m.A.B"
        members := [{ name := "x", type := some "T | 'm.A'" }, { name := "y", type := some " " }] },
      { name := "m.A", kind := .enumHolder, parents := ["", "m.A.B"] },
      { name := "m.A.B", owner := some "m.A" }]
    aliases := [("U", " "), ("T", "list[m.A]")]
    staticOwners := ["m.A.B", "m.A", "m.A.B"] }

/- Two classes of one name, an owner and a static owner that are no classes, and a text that is no type. -/
def defectsTogether : Document :=
  { classes := [{ name := "A" }, { name := "B.C", owner := some "B" }, { name := "A", parents := ["1 +"] }], staticOwners := ["B"] }

theorem nestedFirstDescribed :
    (∃ g, nestedFirst.toGraph = .ok g ∧ nestedFirst.Describes g ∧ g.staticOwners.map (·.qualifiedName) = ["m.A.B", "m.A"]) ∧
      ∃ e, defectsTogether.toGraph = .error e ∧ ∀ l, e ≠ .literal l := by
  have typed : ∀ doc ∈ [nestedFirst, defectsTogether], ∀ t ∈ doc.texts, ∃ o, parseType t = .ok o := by
    have all : ([nestedFirst, defectsTogether].all fun doc => doc.texts.all fun t => (fault? (parseType t)).isNone) = true := by
      decide +kernel
    simp only [List.all_eq_true, Option.isNone_iff_eq_none, faultNone] at all
    exact all
  constructor
  · have whole := @consistentGraph _ nestedFirst (by decide +kernel) (typed _ (by simp))
    obtain ⟨g, done, described⟩ := whole.2 (by decide +kernel)
    have order : nestedFirst.staticOwners.eraseDups = ["m.A.B", "m.A"] := by decide +kernel
    exact ⟨g, done, described, described.owners.trans order⟩
  · have whole := @consistentGraph _ defectsTogether (by decide +kernel) (typed _ (by simp))
    exact whole.1.2 (by decide +kernel)

end Document
end SharedState
