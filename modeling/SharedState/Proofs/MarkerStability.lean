import Mathlib.Algebra.Order.BigOperators.Group.List
import SharedState.Proofs.DocumentMeaning
import SharedState.Proofs.WrittenGraphs

/-! How far marker names are stable. White space is taken off before leading `@` and not after them, and only once, so a name may be left
that starts with white space or is empty. Those names, and no others, change when they are read again: as values of settings, and
as annotations of a document that is loaded, dumped and loaded again. -/
namespace SharedState

open SharedState.Source SharedState.Text

/-- A name that starts with something else than white space. -/
def Firm (m : String) : Prop := ∃ c cs, m.toList = c :: cs ∧ isBlank c = false

theorem bareLength (m : String) : (Settings.bareMarker m).toList.length ≤ (m.toList.dropWhile isBlank).length := by
  have outer := dropWhileLength (· == '@') (trimWhile isBlank m.toList)
  have inner := dropWhileLength isBlank (m.toList.dropWhile isBlank).reverse
  simp only [Settings.bareMarker, dropLeading, strip, String.toList_ofList, trimWhile, List.length_reverse] at *
  omega

/- Reading makes a name shorter unless it is firm. -/
theorem bareShorter {m : String} (filled : m ≠ "") (loose : ¬ Firm m) : (Settings.bareMarker m).toList.length < m.toList.length := by
  cases shape : m.toList with
  | nil => exact absurd (String.toList_inj.1 shape) filled
  | cons c cs =>
    have blank : isBlank c = true := by
      rw [← Bool.not_eq_false]
      exact fun other => loose ⟨c, cs, shape, other⟩
    have once := bareLength m
    have rest := dropWhileLength isBlank cs
    rw [shape, List.dropWhile_cons, if_pos blank] at once
    exact Nat.lt_succ_of_le (Nat.le_trans once rest)

theorem settledFirm {m : String} (settled : Settled m) : Firm m := by
  by_contra loose
  have shorter := bareShorter settled.1 loose
  rw [settled.2] at shorter
  exact Nat.lt_irrefl _ shorter

theorem bareSettled (a : String) : Settled (Settings.bareMarker a) ↔ Firm (Settings.bareMarker a) := ⟨settledFirm, solidSettled⟩

/-! Sets of markers in a document. -/

theorem memDocumentMarkers {names : List String} {m : String} :
    m ∈ documentMarkers names ↔ ∃ a ∈ names, strip a ≠ "" ∧ Settings.bareMarker a = m := by
  have made : m ∈ documentMarkers names ↔ m ∈ (names.filter fun n => !(strip n).isEmpty).map Settings.bareMarker :=
    ⟨(markerSetMade _).2 m, fun known => insertAllKept (.inr known)⟩
  simp [made, List.mem_map, List.mem_filter, and_assoc]

/- A loose name in a set that stays as it is comes from a longer one, which is loose as well; but a set has a longest name. -/
theorem keptFirm {set : List String} (made : ∀ m ∈ set, ∃ a, Settings.bareMarker a = m) (kept : documentMarkers set = set) :
    ∀ m ∈ set, Firm m := by
  have longer : ∀ m ∈ set, ¬ Firm m → ∃ k ∈ set, ¬ Firm k ∧ m.toList.length < k.toList.length := by
    intro m known loose
    obtain ⟨k, there, filled, rfl⟩ := memDocumentMarkers.1 (kept ▸ known)
    have changed : ¬ Firm k := by
      intro firm
      obtain ⟨a, rfl⟩ := made k there
      rw [((bareSettled a).2 firm).2] at loose
      exact loose firm
    refine ⟨k, there, changed, bareShorter ?_ changed⟩
    rintro rfl
    exact filled rfl
  intro m known
  by_contra loose
  have endless : ∀ n, ∃ k ∈ set, ¬ Firm k ∧ n ≤ k.toList.length := by
    intro n
    induction n with
    | zero => exact ⟨m, known, loose, Nat.zero_le _⟩
    | succ n ih =>
      obtain ⟨k, there, changed, long⟩ := ih
      obtain ⟨l, here, still, more⟩ := longer k there changed
      exact ⟨l, here, still, Nat.lt_of_le_of_lt long more⟩
  obtain ⟨k, there, _, long⟩ := endless ((set.map (·.toList.length)).sum + 1)
  have bounded := List.single_le_sum (l := set.map (·.toList.length)) (by simp) _ (List.mem_map_of_mem there)
  omega

theorem documentMarkersStable (names : List String) :
    documentMarkers (documentMarkers names) = documentMarkers names ↔ ∀ m ∈ documentMarkers names, Firm m := by
  have made : ∀ m ∈ documentMarkers names, ∃ a, Settings.bareMarker a = m := by
    intro m known
    obtain ⟨a, _, _, same⟩ := memDocumentMarkers.1 known
    exact ⟨a, same⟩
  refine ⟨keptFirm made, fun firm => documentMarkersKept (markerSetMade _).1 fun m known => ?_⟩
  obtain ⟨a, rfl⟩ := made m known
  exact (bareSettled a).2 (firm _ known)

theorem documentMarkersOne {a : String} (filled : strip a ≠ "") : documentMarkers [a] = [Settings.bareMarker a] := by
  simp [documentMarkers, filled, markerSet, insertMarker]

/-! Markers as values of settings. -/

namespace Settings

def ownFields (s : Settings) : Schema.Fields :=
  [("check_reentrant", .bool s.checkReentrant), ("trace", .bool s.trace), ("sharable_annotation", .text s.sharableMarker),
    ("unshared_annotation", .text s.unsharedMarker), ("singleton_decorators", textList s.singletonDecorators),
    ("severity", .text s.severity.tag), ("exclude", textList s.exclude)]

theorem markerIff (a n : String) : marker (.text a) = .ok n ↔ bareMarker a = n ∧ n ≠ "" := by
  by_cases empty : bareMarker a = ""
  · simp [marker, Schema.text, Checked.andThen, empty, Checked.fail]
  · simp [marker, Schema.text, Checked.andThen, empty]
    rintro rfl
    exact empty

theorem markerAgain (n : String) : marker (.text n) = .ok n ↔ Settled n := by rw [markerIff, Settled, and_comm]

theorem markerBare {d : Datum} {n : String} (read : marker d = .ok n) : ∃ a, bareMarker a = n := by
  cases d with
  | text a => exact ⟨a, ((markerIff a n).1 read).1⟩
  | _ => simp [marker, Schema.text] at read

theorem distinctIff (s t : Settings) : distinctMarkers s = .ok t ↔ s = t ∧ s.sharableMarker ≠ s.unsharedMarker := by
  by_cases same : s.sharableMarker = s.unsharedMarker <;> simp [distinctMarkers, same]

theorem fieldsIff (fields : Schema.Fields) (s : Settings) : ofFields fields = .ok s ↔
    (Schema.field "check_reentrant" true Schema.bool fields = .ok s.checkReentrant ∧
      Schema.field "trace" false Schema.bool fields = .ok s.trace ∧
      Schema.field "sharable_annotation" "sharable" marker fields = .ok s.sharableMarker ∧
      Schema.field "unshared_annotation" "unshared" marker fields = .ok s.unsharedMarker ∧
      Schema.field "singleton_decorators" ["singleton"] (Schema.listOf Schema.text) fields = .ok s.singletonDecorators ∧
      Schema.field "severity" .error (Schema.oneOf Severity.ofTag?) fields = .ok s.severity ∧
      Schema.field "exclude" [] (Schema.listOf Schema.text) fields = .ok s.exclude) ∧ s.sharableMarker ≠ s.unsharedMarker := by
  simp only [ofFields, Checked.andThenOk, Checked.andOk, distinctIff]
  constructor
  · rintro ⟨parts, each, rfl, distinct⟩
    exact ⟨each, distinct⟩
  · rintro ⟨each, distinct⟩
    exact ⟨(_, _, _, _, _, _, _), each, rfl, distinct⟩

theorem ownFieldsIff (s : Settings) : ofDatum (.table s.ownFields) = .ok s ↔
    (Settled s.sharableMarker ∧ Settled s.unsharedMarker) ∧ s.sharableMarker ≠ s.unsharedMarker := by
  rw [ofDatum, Schema.record, fieldsIff]
  simp [ownFields, Schema.field, valueOf?, Schema.bool, Schema.oneOf, Severity.ofTagTag, textsBack, markerAgain]

theorem readMarkers {d : Datum} {s : Settings} (read : ofDatum d = .ok s) :
    ((∃ a, bareMarker a = s.sharableMarker) ∧ ∃ a, bareMarker a = s.unsharedMarker) ∧ s.sharableMarker ≠ s.unsharedMarker := by
  cases d with
  | table fields =>
    obtain ⟨⟨_, _, sharable, unshared, _⟩, distinct⟩ := (fieldsIff fields s).1 read
    refine ⟨⟨?_, ?_⟩, distinct⟩
    · exact Schema.fieldAll (fun n => ∃ a, bareMarker a = n) ⟨"sharable", by decide⟩ (fun _ => markerBare) sharable
    · exact Schema.fieldAll (fun n => ∃ a, bareMarker a = n) ⟨"unshared", by decide⟩ (fun _ => markerBare) unshared
  | _ => simp [ofDatum, Schema.record] at read

/- Settings that were accepted are accepted again as they are exactly if both names are firm. -/
theorem settingsStable {d : Datum} {s : Settings} (read : ofDatum d = .ok s) :
    ofDatum (.table s.ownFields) = .ok s ↔ Firm s.sharableMarker ∧ Firm s.unsharedMarker := by
  obtain ⟨⟨⟨a, sharable⟩, b, unshared⟩, distinct⟩ := readMarkers read
  rw [ownFieldsIff, ← sharable, ← unshared, bareSettled, bareSettled, sharable, unshared]
  exact and_iff_left distinct

end Settings

/-! Markers in a document that is loaded, dumped and loaded again. -/

theorem coversOwner (x : Exemption) (s : Symbol) : x.covers s =
    (s.markers.contains x.sharable || s.markers.contains x.unshared || s.owner?.map (·.kind) == some .enumHolder) := by
  obtain ⟨d, enclosing⟩ := s
  cases enclosing <;> rfl

/-- A symbol as it is loaded again. Its markers are read once more: they stay the same if they are firm, and only then, and so does
what exempts the symbol. -/
structure Symbol.Reloaded (s s' : Symbol) : Prop where
  name : s'.qualifiedName = s.qualifiedName
  kind : s'.kind = s.kind
  owner : s'.owner?.map (·.kind) = s.owner?.map (·.kind)
  markers : s'.markers = documentMarkers s.markers
  stable : s'.markers = s.markers ↔ ∀ m ∈ s.markers, Firm m
  exempt : (∀ m ∈ s.markers, Firm m) → ∀ x : Exemption, x.covers s' = x.covers s

theorem Symbol.reloadedMarked {s s' : Symbol} {names : List String} (made : s.markers = documentMarkers names)
    (name : s'.qualifiedName = s.qualifiedName) (kind : s'.kind = s.kind)
    (owner : s'.owner?.map (·.kind) = s.owner?.map (·.kind)) (markers : s'.markers = documentMarkers s.markers) : s.Reloaded s' := by
  have stable : s'.markers = s.markers ↔ ∀ m ∈ s.markers, Firm m := by
    rw [markers, made]
    exact documentMarkersStable names
  refine ⟨name, kind, owner, markers, stable, fun firm x => ?_⟩
  rw [coversOwner, coversOwner, stable.2 firm, owner]

namespace Document

variable {doc : Document} {g : Graph} {charset : CharacterNames}

theorem textTypeReadable {text : String} {t : TypeRef} (typed : textType? text = some t) : t.Readable := by
  have parsed : parseType text = .ok (some t) := by
    unfold textType? at typed
    split at typed
    · cases typed
    · cases read : parseType text with
      | error e => simp [read, Except.toOption] at typed
      | ok o => simpa [read, Except.toOption] using typed
  exact parseTypeClosed (TypeRef.readableClosed fun _ name => name) parsed

theorem typesReadable (described : doc.Describes g) : ∀ t ∈ g.types, t.Readable := by
  intro t inside
  rcases List.mem_append.1 inside with within | aliased
  · obtain ⟨e, known, part⟩ := List.mem_flatMap.1 within
    obtain ⟨c, _, told⟩ := relatedRight described.classes e known
    rcases List.mem_append.1 part with declared | parent
    · obtain ⟨m, member, declared⟩ := List.mem_filterMap.1 declared
      obtain ⟨n, _, same⟩ := relatedRight told.members m member
      rw [same.type] at declared
      obtain ⟨text, _, typed⟩ := Option.bind_eq_some_iff.1 declared
      exact textTypeReadable typed
    · rw [told.parents] at parent
      obtain ⟨text, _, typed⟩ := List.mem_filterMap.1 parent
      exact textTypeReadable typed
  · obtain ⟨a, known, rfl⟩ := List.mem_map.1 aliased
    rw [described.aliases] at known
    obtain ⟨b, _, typed⟩ := List.mem_filterMap.1 known
    obtain ⟨u, read, rfl⟩ := Option.map_eq_some_iff.1 typed
    exact textTypeReadable read

theorem entryWritten (valid : doc.Valid) (described : doc.Describes g) {e : ClassEntry} (known : e ∈ g.entries) :
    e.own = e ∧ e.spec.Valid := by
  obtain ⟨c, here, told⟩ := relatedRight described.classes e known
  have sound := valid.classes c here
  have members : ∀ m ∈ e.members, m.isClass = false ∧ m.spec.Valid := by
    intro m member
    obtain ⟨n, there, same⟩ := relatedRight told.members m member
    have part := sound.members n there
    have plain : m.isClass = false := by rw [Symbol.isClass, same.kind]; exact part.kind
    refine ⟨plain, ⟨?_, plain, ?_, placesValid ?_⟩⟩
    · exact (same.name ▸ part.named : m.name ≠ "")
    · exact fun other => same.mutable.trans (part.state (same.kind ▸ other))
    · rw [same.location]; exact placesMade part.location
  constructor
  · rw [ClassEntry.own, List.filter_eq_self.2 fun m member => by simp [(members m member).1]]
  · refine ⟨?_, e.ownerFirst, ?_, ?_, placesValid ?_⟩
    · exact (told.name ▸ sound.named : e.symbol.qualifiedName ≠ "")
    · exact (told.kind ▸ sound.kind : e.symbol.kind.isClass = true)
    · intro m member
      obtain ⟨n, inside, rfl⟩ := List.mem_map.1 member
      exact (members n inside).2
    · rw [told.location]; exact placesMade sound.location

theorem graphWritten (valid : doc.Valid) (described : doc.Describes g) : g.toDocument = .ok g.document := by
  have own : g.own = g := by
    rw [Graph.own, List.map_congr_left fun e known => (entryWritten valid described known).1, List.map_id']
  rw [Graph.writtenIff, own]
  exact ⟨⟨fun e known => (entryWritten valid described known).2, fun t typed => TypeRef.readableTold (typesReadable described t typed)⟩, rfl⟩

theorem ownerEntry (described : doc.Describes g) {e : ClassEntry} (known : e ∈ g.entries) {o : Symbol}
    (owned : e.symbol.owner? = some o) : ∃ outer ∈ g.entries, outer.symbol = o := by
  obtain ⟨c, _, told⟩ := relatedRight described.classes e known
  cases inside : c.owner with
  | none =>
    rw [told.outermost inside] at owned
    cases owned
  | some p =>
    obtain ⟨outer, there, _, same⟩ := told.nested p inside
    exact ⟨outer, there, Option.some.inj (same.symm.trans owned)⟩

theorem documentSound (described : doc.Describes g) (names : (g.entries.map (·.symbol.qualifiedName)).Nodup) :
    (∀ t ∈ g.document.texts, ∃ o, parseType t = .ok o) ∧ ¬ g.document.Defective := by
  have shown : g.document.texts = g.types.map (·.shown) := by
    simp [texts, ClassSpec.texts, Graph.document, ClassEntry.spec, Symbol.spec, Graph.types, ClassEntry.types, List.flatMap_map,
      List.map_flatMap, List.filterMap_map, List.map_filterMap, Function.comp_def]
  have typed : ∀ t ∈ g.document.texts, ∃ u, parseType t = .ok (some u) := by
    intro t inside
    obtain ⟨u, known, rfl⟩ := List.mem_map.1 (shown ▸ inside)
    exact ⟨_, TypeRef.parseShown (typesReadable described u known)⟩
  have called : ∀ e ∈ g.entries, ∃ d ∈ g.document.classes, d.name = e.symbol.qualifiedName :=
    fun e known => ⟨e.spec, List.mem_map_of_mem known, rfl⟩
  refine ⟨fun t here => ⟨_, (typed t here).choose_spec⟩, soundIff.2 ⟨?_, ?_, ?_, ?_⟩⟩
  · simpa [Graph.document, ClassEntry.spec, Function.comp_def] using names
  · intro c here o owned
    obtain ⟨e, known, rfl⟩ := List.mem_map.1 here
    obtain ⟨owner, outside, rfl⟩ := Option.map_eq_some_iff.1 owned
    obtain ⟨outer, there, rfl⟩ := ownerEntry described known outside
    exact called outer there
  · intro o here
    obtain ⟨s, owner, rfl⟩ := List.mem_map.1 here
    obtain ⟨e, known, rfl⟩ := described.known s owner
    exact called e known
  · intro t here _ untyped
    obtain ⟨u, parsed⟩ := typed t here
    rw [untyped] at parsed
    cases parsed

theorem symbolsReloaded {g' : Graph} (described : doc.Describes g) (names : (g.entries.map (·.symbol.qualifiedName)).Nodup)
    (again : g.document.Describes g') :
    List.Forall₂ (fun e e' => e.symbol.Reloaded e'.symbol ∧ List.Forall₂ Symbol.Reloaded e.members e'.members) g.entries g'.entries := by
  have pairs : List.Forall₂ (fun e e' => ClassTold g' e.spec e') g.entries g'.entries := List.forall₂_map_left_iff.1 again.classes
  refine relatedImp pairs fun e known e' told => ?_
  obtain ⟨c, _, first⟩ := relatedRight described.classes e known
  have owner : e'.symbol.owner?.map (·.kind) = e.symbol.owner?.map (·.kind) := by
    cases inside : e.symbol.owner? with
    | none => rw [told.outermost (by rw [ClassEntry.spec, inside]; rfl)]
    | some o =>
      -- the class around is found by its name, which only one class has
      obtain ⟨outer', there, named, outside⟩ := told.nested o.qualifiedName (by rw [ClassEntry.spec, inside]; rfl)
      obtain ⟨f, here, same⟩ := relatedRight pairs outer' there
      obtain ⟨outer, around, rfl⟩ := ownerEntry described known inside
      obtain rfl : f = outer := List.inj_on_of_nodup_map names here around (same.name.symm.trans named)
      rw [outside, Option.map_some, Option.map_some, same.kind]
      rfl
  refine ⟨Symbol.reloadedMarked first.markers told.name told.kind owner told.markers, ?_⟩
  have members : List.Forall₂ (fun m m' => MemberTold e'.symbol m.spec m') e.members e'.members := List.forall₂_map_left_iff.1 told.members
  refine relatedImp members fun m member m' same => ?_
  obtain ⟨n, _, before⟩ := relatedRight first.members m member
  refine Symbol.reloadedMarked before.markers ?_ same.kind ?_ same.markers
  · rw [(Symbol.ownerName same.owner).2, (Symbol.ownerName before.owner).2, told.name, same.name]
    rfl
  · rw [same.owner, before.owner, Option.map_some, Option.map_some, told.kind]
    rfl

/- Whatever is loaded can be dumped and loaded again. -/
theorem loadedAgain (valid : doc.Valid) (done : doc.toGraph = .ok g) : ∃ text g', g.dump = .ok text ∧
    Document.parse text = .ok g.document ∧ g.document.toGraph = .ok g' ∧
    List.Forall₂ (fun e e' => e.symbol.Reloaded e'.symbol ∧ List.Forall₂ Symbol.Reloaded e.members e'.members) g.entries g'.entries := by
  have described := graphDescribed valid done
  obtain ⟨entries, owners, _, _, _, built⟩ := toGraphIff.1 done
  have source := Graph.buildSource built
  obtain ⟨dumped, parsed⟩ := Graph.writtenParse source.keys (graphWritten valid described)
  have sound := documentSound described source.names
  obtain ⟨g', again⟩ := graphExists (parseValid parsed) sound.1 sound.2
  exact ⟨_, g', dumped, parsed, again, symbolsReloaded described source.names (graphDescribed (parseValid parsed) again)⟩

end Document

/- Accepted names are not empty, but they stay the same only if they start with something else than white space. An annotation may even
be empty. -/
theorem markerNames [CharacterNames] (a : String) (d : Datum) (text : String) :
    (∀ n, Settings.marker (.text a) = .ok n → n ≠ "" ∧ (Settings.marker (.text n) = .ok n ↔ Firm n)) ∧
    (∀ s, Settings.ofDatum d = .ok s →
      (Settings.ofDatum (.table s.ownFields) = .ok s ↔ Firm s.sharableMarker ∧ Firm s.unsharedMarker)) ∧
    (strip a ≠ "" → documentMarkers [a] = [Settings.bareMarker a] ∧
      (documentMarkers [Settings.bareMarker a] = [Settings.bareMarker a] ↔ Firm (Settings.bareMarker a))) ∧
    ∀ doc g, Document.parse text = .ok doc → doc.toGraph = .ok g → ∃ text' doc' g', g.dump = .ok text' ∧
      Document.parse text' = .ok doc' ∧ doc'.toGraph = .ok g' ∧ List.Forall₂ (fun e e' => e.symbol.Reloaded e'.symbol ∧
        List.Forall₂ Symbol.Reloaded e.members e'.members) g.entries g'.entries := by
  refine ⟨fun n read => ?_, fun s read => Settings.settingsStable read, fun filled => ?_, fun doc g parsed done => ?_⟩
  · obtain ⟨rfl, filled⟩ := (Settings.markerIff a n).1 read
    rw [Settings.markerAgain, bareSettled]
    exact ⟨filled, Iff.rfl⟩
  · have one := documentMarkersOne filled
    have stable := documentMarkersStable [a]
    simp only [one, List.mem_singleton, forall_eq] at stable
    exact ⟨one, stable⟩
  · obtain ⟨text', g', dumped, again, made, same⟩ := Document.loadedAgain (Document.parseValid parsed) done
    exact ⟨text', _, g', dumped, again, made, same⟩

/- White space after `@` is part of the name until the name is read again, and then the name is another one, or none. -/
theorem looseNames :
    (Settings.marker (.text "@ x") = .ok " x" ∧ Settings.marker (.text " x") = .ok "x") ∧
    (Settings.marker (.text "@ @") = .ok " @" ∧ ∀ n, Settings.marker (.text " @") ≠ .ok n) ∧
    (documentMarkers ["@ sharable"] = [" sharable"] ∧ documentMarkers [" sharable"] = ["sharable"]) ∧
    documentMarkers ["@"] = [""] ∧ documentMarkers [""] = [] := by
  refine ⟨by decide +kernel, ⟨by decide +kernel, fun n read => ?_⟩, by decide +kernel, by decide +kernel⟩
  exact ((Settings.markerIff _ n).1 read).2 (((Settings.markerIff _ n).1 read).1.symm.trans (by decide +kernel))

/-- A class whose markers are loose, with a member whose marker is firm. -/
def looseDocument : Document :=
  { classes := [{ name := "A", annotations := ["@ sharable", " @"], members := [{ name := "x", annotations := [" @@unshared "] }] }] }

def looseGraph : Graph :=
  let cls : Symbol := { serial := 0, name := "A", kind := .plainClass, markers := ["", " sharable"] }
  { entries := [{ symbol := cls, members := [cls.inside { serial := 0, name := "x", kind := .field, markers := ["unshared"] }] }] }

def looseSettings : Settings := { sharableMarker := " sharable" }

/- Settings with a loose name are not accepted as they are. Loaded again, the class is exempt, which it was not. -/
theorem looseReloaded :
    (Settings.marker (.text "@ sharable") = .ok " sharable" ∧ ¬ Firm " sharable") ∧
    (Settings.ofDatum (.table [("sharable_annotation", .text "@ sharable")]) = .ok looseSettings ∧
      Settings.ofDatum (.table looseSettings.ownFields) ≠ .ok looseSettings) ∧
    (strip "@ sharable" ≠ "" ∧ documentMarkers ["@ sharable"] = [" sharable"]) ∧
    Document.parse looseDocument.render = .ok looseDocument ∧ looseDocument.toGraph = .ok looseGraph ∧
    (∀ e ∈ looseGraph.entries, ({} : Exemption).covers e.symbol = false) ∧
    ∃ text doc g, looseGraph.dump = .ok text ∧ Document.parse text = .ok doc ∧ doc.toGraph = .ok g ∧
      g.entries.map (·.symbol.markers) = [["sharable"]] ∧ ∀ e ∈ g.entries, ({} : Exemption).covers e.symbol = true := by
  have parsed : Document.parse looseDocument.render = .ok looseDocument := Document.parseRendered (by decide +kernel)
  have made : looseDocument.toGraph = .ok looseGraph := by decide +kernel
  have named : Settings.marker (.text "@ sharable") = .ok " sharable" := by decide +kernel
  have accepted : Settings.ofDatum (.table [("sharable_annotation", .text "@ sharable")]) = .ok looseSettings := by decide +kernel
  have filled : strip "@ sharable" ≠ "" := by decide +kernel
  obtain ⟨names, settings, annotations, documents⟩ := markerNames "@ sharable" (.table [("sharable_annotation", .text "@ sharable")])
    looseDocument.render
  have loose : ¬ Firm " sharable" := fun firm => absurd ((names _ named).2.2 firm) (by decide +kernel)
  have changed : Settings.ofDatum (.table looseSettings.ownFields) ≠ .ok looseSettings := fun kept => loose ((settings _ accepted).1 kept).1
  obtain ⟨text, doc, g, dumped, again, built, same⟩ := documents _ _ parsed made
  have read : looseGraph.entries.map (documentMarkers ·.symbol.markers) = g.entries.map (·.symbol.markers) :=
    relatedMap same fun _ _ _ both => both.1.markers.symm
  have marked : g.entries.map (·.symbol.markers) = [["sharable"]] := read.symm.trans (by decide +kernel)
  refine ⟨⟨named, loose⟩, ⟨accepted, changed⟩, ⟨filled, (annotations filled).1⟩, parsed, made, by decide +kernel, ?_⟩
  refine ⟨text, doc, g, dumped, again, built, marked, fun e known => ?_⟩
  have own : e.symbol.markers ∈ [["sharable"]] := marked ▸ List.mem_map_of_mem known
  rw [coversOwner, List.mem_singleton.1 own]
  rfl

end SharedState
