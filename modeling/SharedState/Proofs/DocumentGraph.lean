import Mathlib.Data.List.DropRight
import SharedState.Proofs.Conversion
import SharedState.Proofs.ReadBack

/-! Graphs of documents. The graph of a valid document is portable if its markers start with something that counts, and
the types in it are readable and apply no name for arrays. -/
namespace SharedState

open SharedState.Source SharedState.Text

/-- A marker that does not become empty, nor starts with white space, when white space around it and then leading `@` are
taken off. -/
def SolidMarker (a : String) : Prop := ∃ c cs, (Settings.bareMarker a).toList = c :: cs ∧ isBlank c = false

theorem unblankHead {c : Char} {cs : List Char} (kept : (c :: cs).dropWhile isBlank = c :: cs) : isBlank c = false := by
  cases blank : isBlank c with
  | false => rfl
  | true =>
    have short := dropWhileLength isBlank cs
    have lengths := congrArg List.length kept
    simp only [List.dropWhile_cons, blank, if_true, List.length_cons] at lengths
    omega

theorem solidSettled {a : String} (solid : SolidMarker a) : Settled (Settings.bareMarker a) := by
  obtain ⟨c, cs, shape, start⟩ := solid
  have bare : (Settings.bareMarker a).toList = (trimWhile isBlank a.toList).dropWhile (· == '@') := by
    simp [Settings.bareMarker, dropLeading, strip]
  have once : (c :: cs).dropWhile (· == '@') = c :: cs := by
    rw [← shape, bare]
    exact List.dropWhile_idempotent _ _
  have trimmed : (trimWhile isBlank a.toList).reverse.dropWhile isBlank = (trimWhile isBlank a.toList).reverse := by
    rw [trimWhile, List.reverse_reverse]
    exact List.dropWhile_idempotent _ _
  have whole : trimWhile isBlank a.toList = (trimWhile isBlank a.toList).takeWhile (· == '@') ++ c :: cs := by
    conv_lhs => rw [← List.takeWhile_append_dropWhile (p := (· == '@')) (l := trimWhile isBlank a.toList)]
    rw [← bare, shape]
  have ending : (c :: cs).reverse.dropWhile isBlank = (c :: cs).reverse := by
    cases back : (c :: cs).reverse with
    | nil => simp at back
    | cons d ds =>
      rw [whole, List.reverse_append, back, List.cons_append] at trimmed
      simp [unblankHead trimmed]
  refine ⟨fun empty => ?_, String.toList_inj.1 ?_⟩
  · rw [empty] at shape
    cases shape
  · rw [Settings.bareMarker, dropLeading, strip, String.toList_ofList, String.toList_ofList, shape]
    have front : (c :: cs).dropWhile isBlank = c :: cs := by simp [start]
    rw [trimWhile, front, ending, List.reverse_reverse, once]

theorem documentMarkersMade {annotations : List String} (solid : ∀ a ∈ annotations, SolidMarker a) :
    (documentMarkers annotations).Pairwise (· < ·) ∧ ∀ m ∈ documentMarkers annotations, Settled m := by
  obtain ⟨sorted, known⟩ := markerSetMade ((annotations.filter fun n => !(strip n).isEmpty).map Settings.bareMarker)
  refine ⟨sorted, fun m member => ?_⟩
  obtain ⟨a, inside, rfl⟩ := List.mem_map.1 (known m member)
  exact solidSettled (solid a (List.mem_filter.1 inside).1)

namespace Document

def annotations (doc : Document) : List String :=
  doc.classes.flatMap fun c => c.annotations ++ c.members.flatMap (·.annotations)

/-! The symbol of a class is what its entry says, inside the symbol of its owner. -/

theorem namedFound {specs : List ClassSpec} {name : String} {found : Nat × ClassSpec}
    (named : classNamed? specs name = some found) : found.2 ∈ specs ∧ found.2.name = name := by
  obtain ⟨p, search, rfl⟩ := Option.map_eq_some_iff.1 named
  have member := List.mem_of_find?_eq_some search
  refine ⟨?_, by simpa using List.find?_some search⟩
  exact List.fst_mem_of_mem_zipIdx member

/-- What the symbol of a class has from its entry. -/
structure Symbolizes (specs : List ClassSpec) (n serial : Nat) (spec : ClassSpec) (s : Symbol) : Prop where
  serial : s.serial = serial
  name : s.qualifiedName = spec.name
  kind : s.kind = spec.kind
  markers : s.markers = documentMarkers spec.annotations
  location : s.location = spec.location.map (·.toLocation)
  untyped : s.declaredType = none
  fixed : s.mutable = false
  depth : s.enclosing.length ≤ n
  owner : ∀ o ∈ s.owner?, ∃ found, classNamed? specs found.2.name = some found ∧ classSymbol specs n found = .ok o

theorem classSymbolMade {specs : List ClassSpec} (valid : ∀ c ∈ specs, c.Valid) (n : Nat) :
    ∀ (serial : Nat) (spec : ClassSpec) (s : Symbol), spec.Valid → classSymbol specs n (serial, spec) = .ok s →
      ∃ m, n = m + 1 ∧ Symbolizes specs m serial spec s := by
  induction n with
  | zero => intro serial spec s _ done; cases done
  | succ n ih =>
    intro serial spec s here done
    refine ⟨n, rfl, ?_⟩
    unfold classSymbol at done
    cases owner : spec.owner with
    | none =>
      simp only [owner] at done
      cases Except.ok.inj done
      exact ⟨rfl, by simp [Symbol.qualifiedName], rfl, rfl, rfl, rfl, rfl, by simp, by simp [Symbol.owner?]⟩
    | some name =>
      simp only [owner] at done
      cases named : classNamed? specs name with
      | none => simp [named] at done
      | some found =>
        simp only [named] at done
        cases outside : classSymbol specs n found with
        | error e => simp [outside] at done
        | ok outer =>
          simp only [outside] at done
          cases Except.ok.inj done
          obtain ⟨known, same⟩ := namedFound named
          obtain ⟨m, rfl, above⟩ := ih found.1 found.2 outer (valid _ known) outside
          obtain ⟨rest, spelled⟩ := here.owner name owner
          have size : name.length + 1 = (name.toList ++ ['.']).length := by simp [String.length_toList]
          have dot : ".".toList = ['.'] := rfl
          refine ⟨rfl, ?_, rfl, rfl, rfl, rfl, rfl, ?_, ?_⟩
          · rw [Symbol.qualifiedInside, above.name, same, ← spelled, size, List.drop_left]
            apply String.toList_inj.1
            simp [dot, ← spelled]
          · have := above.depth
            simp only [Symbol.inside, List.length_cons]
            omega
          · intro o owned
            rw [Symbol.ownerInside] at owned
            cases Option.some.inj owned
            exact ⟨found, by rw [same, named], outside⟩

theorem classSymbolMore {specs : List ClassSpec} (n : Nat) : ∀ (found : Nat × ClassSpec) (s : Symbol),
    classSymbol specs n found = .ok s → classSymbol specs (n + 1) found = .ok s := by
  induction n with
  | zero => intro found s done; cases done
  | succ n ih =>
    intro found s done
    unfold classSymbol at done ⊢
    cases owner : found.2.owner with
    | none => simpa [owner] using done
    | some name =>
      simp only [owner] at done ⊢
      cases named : classNamed? specs name with
      | none => simp [named] at done
      | some outer =>
        simp only [named] at done ⊢
        cases outside : classSymbol specs n outer with
        | error e => simp [outside] at done
        | ok o =>
          simp only [outside] at done
          simpa only [ih outer o outside] using done

theorem classSymbolEnough {specs : List ClassSpec} {n m : Nat} (less : n ≤ m) {found : Nat × ClassSpec} {s : Symbol}
    (done : classSymbol specs n found = .ok s) : classSymbol specs m found = .ok s := by
  induction less with
  | refl => exact done
  | step _ ih => exact classSymbolMore _ _ _ ih

variable {charset : CharacterNames}

/-! Members and types of a class. -/

theorem documentTypeMade {text : Option String} {place : String} {t : TypeRef}
    (done : documentType text place = .ok (some t)) : t.Readable ∧ t.arrayFree = true := by
  have parsed : ∃ s, parseType s = .ok (some t) := by
    unfold documentType at done
    split at done
    · cases done
    · rename_i s
      split at done
      · cases done
      · split at done
        · cases done
        · cases done
        · rename_i u parsed
          cases Except.ok.inj done
          exact ⟨s, parsed⟩
  obtain ⟨s, parsed⟩ := parsed
  exact ⟨parseTypeClosed (TypeRef.readableClosed fun _ name => name) parsed, parseTypeClosed TypeRef.arrayFreeClosed parsed⟩

theorem placesMade {spec : Option LocationSpec} (valid : ∀ l ∈ spec, l.Valid) :
    ∀ l ∈ spec.map (·.toLocation), 1 ≤ l.line ∧ 1 ≤ l.column := by
  intro l member
  obtain ⟨place, here, rfl⟩ := Option.map_eq_some_iff.1 member
  exact ⟨(valid place here).line, (valid place here).column⟩

theorem memberSerial {spec : ClassSpec} {cls s : Symbol} {serial : Nat} {m : MemberSpec}
    (done : memberSymbol spec cls serial m = .ok s) : serial = s.serial := by
  obtain ⟨declared, _, done⟩ := bindOk done
  cases Except.ok.inj done
  rfl

theorem memberMade {spec : ClassSpec} {cls s : Symbol} {serial : Nat} {m : MemberSpec} (valid : m.Valid)
    (solid : ∀ a ∈ m.annotations, SolidMarker a) (done : memberSymbol spec cls serial m = .ok s) :
    cls.PortableMember s ∧ ∀ t ∈ s.declaredType, t.Readable ∧ t.arrayFree = true := by
  unfold memberSymbol at done
  obtain ⟨declared, typed, done⟩ := bindOk done
  cases Except.ok.inj done
  obtain ⟨sorted, settled⟩ := documentMarkersMade solid
  refine ⟨⟨⟨settled, sorted, placesMade valid.location⟩, rfl, valid.kind, valid.named, valid.state⟩, fun t member => ?_⟩
  have some : declared = some t := member
  rw [some] at typed
  exact documentTypeMade typed

/-- What a class of the graph has from its entry. -/
structure Entered (specs : List ClassSpec) (i : Nat) (spec : ClassSpec) (e : ClassEntry) : Prop where
  symbol : Symbolizes specs specs.length i spec e.symbol
  serials : e.members.map (·.serial) = List.range e.members.length
  members : ∀ m ∈ e.members, e.symbol.PortableMember m
  types : ∀ t ∈ e.types, t.Readable ∧ t.arrayFree = true

theorem entrySymbol {specs : List ClassSpec} {spec : ClassSpec} {e : ClassEntry} (done : classEntry specs spec = .ok e) :
    classSymbol specs (specs.length + 1) ((classNamed? specs spec.name).getD (0, spec)) = .ok e.symbol := by
  unfold classEntry at done
  obtain ⟨symbol, made, done⟩ := bindOk done
  obtain ⟨members, _, done⟩ := bindOk done
  obtain ⟨parents, _, done⟩ := bindOk done
  cases Except.ok.inj done
  exact made

theorem entryMade {specs : List ClassSpec} (valid : ∀ c ∈ specs, c.Valid) {i : Nat} {spec : ClassSpec}
    (named : classNamed? specs spec.name = some (i, spec))
    (solid : ∀ m ∈ spec.members, ∀ a ∈ m.annotations, SolidMarker a) {e : ClassEntry}
    (done : classEntry specs spec = .ok e) : Entered specs i spec e := by
  have here := valid spec (namedFound named).1
  unfold classEntry at done
  obtain ⟨symbol, made, done⟩ := bindOk done
  obtain ⟨members, inner, done⟩ := bindOk done
  obtain ⟨parents, outer, done⟩ := bindOk done
  cases Except.ok.inj done
  rw [named] at made
  obtain ⟨n, size, symbolizes⟩ := classSymbolMade valid _ i spec symbol here made
  have each := mapMEach inner
  have member : ∀ m ∈ members, ∃ p ∈ spec.members.zipIdx, memberSymbol spec symbol p.2 p.1 = .ok m := relatedRight each
  have known : ∀ p ∈ spec.members.zipIdx, p.1 ∈ spec.members := fun p inside => List.fst_mem_of_mem_zipIdx inside
  refine ⟨Nat.succ.inj size ▸ symbolizes, ?_, fun m inside => ?_, fun t inside => ?_⟩
  · have numbers : spec.members.zipIdx.map (·.2) = members.map (·.serial) :=
      relatedMap each fun p _ m made => memberSerial made
    have size : members.length = spec.members.length := by simpa using each.length_eq.symm
    rw [← numbers, size]
    simp [List.range_eq_range']
  · obtain ⟨p, within, made⟩ := member m inside
    exact (memberMade (here.members _ (known p within)) (solid _ (known p within)) made).1
  · rcases List.mem_append.1 inside with typed | parent
    · obtain ⟨m, within, declared⟩ := List.mem_filterMap.1 typed
      obtain ⟨p, there, made⟩ := member m within
      exact (memberMade (here.members _ (known p there)) (solid _ (known p there)) made).2 t declared
    · obtain ⟨o, within, same⟩ := List.mem_filterMap.1 parent
      obtain ⟨s, _, made⟩ := relatedRight (mapMEach outer) o within
      cases (show o = some t from same)
      exact documentTypeMade made

theorem aliasMade {aliases : List (String × String)} {table : List (Option (String × TypeRef))}
    (done : aliases.mapM aliasEntry = .ok table) :
    ∀ a ∈ table.filterMap id, a.2.Readable ∧ a.2.arrayFree = true := by
  intro a member
  obtain ⟨o, within, rfl⟩ := List.mem_filterMap.1 member
  obtain ⟨p, _, made⟩ := relatedRight (mapMEach done) _ within
  obtain ⟨t, typed, made⟩ := bindOk made
  cases t with
  | none => cases made
  | some t =>
    cases Option.some.inj (Except.ok.inj made)
    exact documentTypeMade typed

theorem entryName {specs : List ClassSpec} (valid : ∀ c ∈ specs, c.Valid) {spec : ClassSpec} (known : spec ∈ specs)
    {e : ClassEntry} (done : classEntry specs spec = .ok e) : spec.name = e.symbol.qualifiedName := by
  have made := entrySymbol done
  cases named : classNamed? specs spec.name with
  | none =>
    rw [named] at made
    obtain ⟨_, _, symbolizes⟩ := classSymbolMade valid _ 0 spec _ (valid spec known) made
    exact symbolizes.name.symm
  | some found =>
    rw [named] at made
    obtain ⟨here, same⟩ := namedFound named
    obtain ⟨_, _, symbolizes⟩ := classSymbolMade valid _ found.1 found.2 _ (valid _ here) made
    rw [← same, symbolizes.name]

theorem ownerMade {specs : List ClassSpec} {entries : List ClassEntry}
    (related : List.Forall₂ (fun spec e => classEntry specs spec = .ok e) specs entries) {n : Nat} {found : Nat × ClassSpec}
    (named : classNamed? specs found.2.name = some found) (less : n ≤ specs.length) {o : Symbol}
    (made : classSymbol specs n found = .ok o) : ∃ e ∈ entries, e.symbol = o := by
  obtain ⟨e, member, entered⟩ := relatedRight related.flip found.2 (namedFound named).1
  refine ⟨e, member, ?_⟩
  have whole := entrySymbol entered
  rw [named, Option.getD_some, classSymbolEnough (by omega) made] at whole
  exact (Except.ok.inj whole).symm

theorem classMade {specs : List ClassSpec} {g : Graph}
    (related : List.Forall₂ (fun spec e => classEntry specs spec = .ok e) specs g.entries) {i : Nat} {spec : ClassSpec}
    (valid : spec.Valid) (solid : ∀ a ∈ spec.annotations, SolidMarker a) {s : Symbol} (isClass : s.isClass = true)
    (symbolizes : Symbolizes specs specs.length i spec s) : s.PortableClass g := by
  obtain ⟨sorted, settled⟩ := documentMarkersMade solid
  have size := related.length_eq
  refine ⟨⟨?_, ?_, ?_⟩, isClass, symbolizes.untyped, symbolizes.fixed, ?_, fun o owned => ?_, ?_⟩
  · rw [symbolizes.markers]; exact settled
  · rw [symbolizes.markers]; exact sorted
  · rw [symbolizes.location]; exact placesMade valid.location
  · rw [symbolizes.name]; exact valid.named
  · obtain ⟨found, named, made⟩ := symbolizes.owner o owned
    exact ownerMade related named (Nat.le_refl _) made
  · exact size ▸ symbolizes.depth

theorem graphMade {doc : Document} (valid : doc.Valid) (solid : ∀ a ∈ doc.annotations, SolidMarker a) {g : Graph}
    (done : doc.toGraph = .ok g) : g.Portable ∧ ∀ t ∈ g.types, t.Readable ∧ t.arrayFree = true := by
  unfold toGraph at done
  obtain ⟨entries, made, done⟩ := bindOk done
  obtain ⟨aliases, aliasesMade, done⟩ := bindOk done
  obtain ⟨owners, _, done⟩ := bindOk done
  split at done
  · rename_i h built
    cases Except.ok.inj done
    have source := Graph.buildSource built
    obtain rfl := source.entries
    have related := mapMEach made
    have names : doc.classes.map (·.name) = g.entries.map (·.symbol.qualifiedName) :=
      relatedMap related fun spec member e entered => entryName valid.classes member entered
    have distinct : (doc.classes.map (·.name)).Nodup := names ▸ source.names
    have entered : ∀ i e, g.entries[i]? = some e → ∃ spec ∈ doc.classes, Entered doc.classes i spec e := by
      intro i e here
      obtain ⟨spec, there, entered⟩ := relatedAt related here
      have member := List.mem_of_getElem? there
      refine ⟨spec, member, entryMade valid.classes (classNamedAt distinct there) (fun m inside a marked => ?_) entered⟩
      exact solid a (List.mem_flatMap.2 ⟨spec, member, List.mem_append_right _ (List.mem_flatMap.2 ⟨m, inside, marked⟩)⟩)
    have each : ∀ e ∈ g.entries, ∃ i, ∃ spec ∈ doc.classes, Entered doc.classes i spec e := by
      intro e member
      obtain ⟨i, here⟩ := List.getElem?_of_mem member
      exact ⟨i, entered i e here⟩
    refine ⟨⟨?_, source.names, fun e member => ?_, fun e member => ?_, fun e member => ?_, source.keys, source.owners,
      source.ownersKnown⟩, fun t member => ?_⟩
    · refine List.ext_getElem? fun i => ?_
      cases here : g.entries[i]? with
      | none =>
        have short : g.entries.length ≤ i := by simpa using here
        simp [short]
      | some e =>
        obtain ⟨spec, _, entered⟩ := entered i e here
        have bound : i < g.entries.length := (List.getElem?_eq_some_iff.1 here).1
        rw [List.getElem?_map, here, List.getElem?_range bound, Option.map_some, entered.symbol.serial]
    · obtain ⟨i, spec, known, entered⟩ := each e member
      refine classMade related (valid.classes spec known) (fun a marked => ?_) (source.kinds e member) entered.symbol
      exact solid a (List.mem_flatMap.2 ⟨spec, known, List.mem_append_left _ marked⟩)
    · obtain ⟨_, _, _, entered⟩ := each e member
      exact entered.serials
    · obtain ⟨_, _, _, entered⟩ := each e member
      exact entered.members
    · rcases List.mem_append.1 member with declared | aliased
      · obtain ⟨e, inside, here⟩ := List.mem_flatMap.1 declared
        obtain ⟨_, _, _, entered⟩ := each e inside
        exact entered.types t here
      · obtain ⟨a, inside, rfl⟩ := List.mem_map.1 aliased
        exact aliasMade aliasesMade a (source.aliases a inside)
  · cases done

end Document
end SharedState
