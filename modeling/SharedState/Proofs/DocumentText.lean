import SharedState.Document.Schema
import SharedState.Proofs.Attempts
import SharedState.Proofs.JsonText

/-! Documents as texts. What the schema accepts is said once, as a predicate on documents; the text of such a document
is read back as the same document, and every document that is read is such a document. -/
namespace SharedState

namespace Checked

variable {α β : Type}

@[simp] theorem failOk (cause : Cause) (a : α) : (fail cause : Checked α) = .ok a ↔ False := by
  simp [fail]

@[simp] theorem underOk (c : Checked α) (step : Step) (a : α) : c.under step = .ok a ↔ c = .ok a := by
  cases c <;> simp [under]

@[simp] theorem andOk (c : Checked α) (d : Checked β) (p : α × β) :
    c.and d = .ok p ↔ c = .ok p.1 ∧ d = .ok p.2 := by
  obtain ⟨a, b⟩ := p
  cases c <;> cases d <;> simp [Checked.and]

@[simp] theorem andThenOk (c : Checked α) (f : α → Checked β) (b : β) :
    c.andThen f = .ok b ↔ ∃ a, c = .ok a ∧ f a = .ok b := by
  cases c <;> simp [andThen]

@[simp] theorem mapOk (c : Checked α) (f : α → β) (b : β) :
    Except.map f c = .ok b ↔ ∃ a, c = .ok a ∧ f a = b := by
  cases c <;> simp [Except.map]

@[simp] theorem underPassed (a : α) (step : Step) : under step (.ok a) = .ok a := rfl

@[simp] theorem andPassed (a : α) (b : β) : Checked.and (.ok a) (.ok b) = .ok (a, b) := rfl

theorem allOk (cs : List (Checked α)) (as : List α) :
    all cs = .ok as ↔ List.Forall₂ (fun c a => c = .ok a) cs as := by
  induction cs generalizing as with
  | nil => cases as <;> simp [all]
  | cons c cs ih =>
    cases as with
    | nil => simp [all]
    | cons a as =>
      simp only [all, mapOk, andOk, ih, List.forall₂_cons]
      constructor
      · rintro ⟨p, ⟨first, others⟩, same⟩
        obtain ⟨rfl, rfl⟩ := List.cons.inj same
        exact ⟨first, others⟩
      · rintro ⟨first, others⟩
        exact ⟨(a, as), ⟨first, others⟩, rfl⟩

end Checked

namespace Schema

open Checked

theorem listOfOk {α : Type} (check : Datum → Checked α) (items : List Datum) (as : List α) :
    listOf check (.list items) = .ok as ↔ List.Forall₂ (fun d a => check d = .ok a) items as := by
  rw [listOf, allOk]
  -- The places only tell where an issue stands, so any numbering of the items will do.
  generalize place : Step.index = step
  clear place
  induction items generalizing as step with
  | nil => simp
  | cons d items ih =>
    cases as with
    | nil => simp [List.mapIdx_cons]
    | cons a as => simp only [List.mapIdx_cons, List.forall₂_cons, underOk, ih]

theorem tableOfOk {α : Type} (check : Datum → Checked α) (fields : Fields) (as : List (String × α)) :
    tableOf check (.table fields) = .ok as ↔
      List.Forall₂ (fun f a => check f.2 = .ok a.2 ∧ f.1 = a.1) fields as := by
  rw [tableOf, allOk, List.forall₂_map_left_iff]
  have same : ∀ (f : String × Datum) (a : String × α),
      Except.map (fun a => (f.1, a)) ((check f.2).under (.key f.1)) = .ok a ↔ check f.2 = .ok a.2 ∧ f.1 = a.1 := by
    intro f a
    simp only [mapOk, underOk]
    constructor
    · rintro ⟨b, checked, rfl⟩
      exact ⟨checked, rfl⟩
    · rintro ⟨checked, key⟩
      exact ⟨a.2, checked, by rw [key]⟩
  simp only [same]

theorem listOfMap {α : Type} {check : Datum → Checked α} {write : α → Datum} {as : List α}
    (back : ∀ a ∈ as, check (write a) = .ok a) : listOf check (.list (as.map write)) = .ok as := by
  rw [listOfOk, List.forall₂_map_left_iff, List.forall₂_same]
  exact back

theorem listOfAll {α : Type} (valid : α → Prop) {check : Datum → Checked α} {d : Datum} {as : List α}
    (sound : ∀ d a, check d = .ok a → valid a) (checked : listOf check d = .ok as) : ∀ a ∈ as, valid a := by
  cases d with
  | list items =>
    rw [listOfOk] at checked
    intro a member
    obtain ⟨d, _, same⟩ := relatedRight checked a member
    exact sound d a same
  | _ => simp [listOf] at checked

theorem optionalAll {α : Type} (valid : α → Prop) {check : Datum → Checked α} {d : Datum} {o : Option α}
    (sound : ∀ d a, check d = .ok a → valid a) (checked : optional check d = .ok o) : ∀ a ∈ o, valid a := by
  cases d with
  | null =>
    cases checked
    simp
  | _ =>
    simp only [optional, mapOk] at checked
    obtain ⟨a, checked, rfl⟩ := checked
    rintro b ⟨⟩
    exact sound _ _ checked

theorem fieldAll {α : Type} (valid : α → Prop) {check : Datum → Checked α} {key : String} {absent a : α}
    {fields : Fields} (empty : valid absent) (sound : ∀ d, check d = .ok a → valid a)
    (checked : field key absent check fields = .ok a) : valid a := by
  unfold field at checked
  split at checked
  · rename_i d _
    exact sound d (by simpa using checked)
  · cases checked
    exact empty

theorem requiredAll {α : Type} (valid : α → Prop) {check : Datum → Checked α} {key : String} {a : α}
    {fields : Fields} (sound : ∀ d, check d = .ok a → valid a)
    (checked : required key check fields = .ok a) : valid a := by
  simp only [required, underOk] at checked
  split at checked
  · rename_i d _
    exact sound d checked
  · simp at checked

theorem recordAll {α : Type} (valid : α → Prop) {check : Fields → Checked α} {d : Datum} {a : α}
    (sound : ∀ fields, check fields = .ok a → valid a) (checked : record check d = .ok a) : valid a := by
  cases d with
  | table fields => exact sound fields checked
  | _ => simp [record] at checked

end Schema

open Schema Checked

namespace LocationSpec

structure Valid (s : LocationSpec) : Prop where
  line : 1 ≤ s.line
  column : 1 ≤ s.column

instance (s : LocationSpec) : Decidable s.Valid :=
  decidable_of_iff (1 ≤ s.line ∧ 1 ≤ s.column) ⟨fun h => ⟨h.1, h.2⟩, fun h => ⟨h.line, h.column⟩⟩

theorem checkOk (s r : LocationSpec) : s.check = .ok r ↔ s = r ∧ s.Valid := by
  have valid : s.Valid ↔ 1 ≤ s.line ∧ 1 ≤ s.column := ⟨fun v => ⟨v.line, v.column⟩, fun v => ⟨v.1, v.2⟩⟩
  by_cases line : 1 ≤ s.line <;> by_cases column : 1 ≤ s.column <;>
    simp [check, valid, line, column, Checked.and, under, fail, Except.map]

theorem fieldsValid {fields : Fields} {s : LocationSpec} (checked : ofFields fields = .ok s) : s.Valid := by
  simp only [ofFields, mapOk, andOk] at checked
  obtain ⟨parts, ⟨_, line, column, _⟩, rfl⟩ := checked
  have positiveOnly : ∀ d n, positive d = .ok n → 1 ≤ n := by
    intro d n checked
    simp only [positive, andThenOk] at checked
    obtain ⟨m, _, checked⟩ := checked
    split at checked
    · cases checked; assumption
    · simp at checked
  exact ⟨requiredAll (1 ≤ ·) (fun d => positiveOnly d _) line,
    fieldAll (1 ≤ ·) (by decide) (fun d => positiveOnly d _) column⟩

theorem recordDatum {s : LocationSpec} (valid : s.Valid) : record ofFields s.toDatum = .ok s := by
  simp [record, toDatum, ofFields, required, field, valueOf?, only, text, positive, int, valid.line, valid.column,
    all, andThen]

end LocationSpec

theorem textsBack (xs : List String) : listOf Schema.text (textList xs) = .ok xs :=
  listOfMap fun _ _ => rfl

/-! Texts and tables are no absent values. -/

theorem optionalText (s : String) : Schema.optional Schema.text (.text s) = .ok (some s) := rfl

theorem optionalLocation {l : LocationSpec} (valid : l.Valid) :
    Schema.optional (record LocationSpec.ofFields) l.toDatum = .ok (some l) := by
  have back := l.recordDatum valid
  rw [LocationSpec.toDatum] at back ⊢
  rw [Schema.optional, back]
  · rfl
  · simp

theorem nameFilled {fields : Fields} {key name : String} (checked : required key nonemptyText fields = .ok name) :
    name ≠ "" := by
  refine requiredAll (· ≠ "") (fun d read => ?_) checked
  simp only [nonemptyText, andThenOk] at read
  obtain ⟨t, _, read⟩ := read
  split at read
  · simp at read
  · rename_i full
    cases read
    simpa using full

theorem placeValid {fields : Fields} {key : String} {location : Option LocationSpec}
    (checked : field key none (Schema.optional (record LocationSpec.ofFields)) fields = .ok location) :
    ∀ l ∈ location, l.Valid := by
  refine fieldAll (∀ l ∈ ·, LocationSpec.Valid l) (by simp) (fun d read => ?_) checked
  exact optionalAll _ (fun _ _ => recordAll _ fun _ => LocationSpec.fieldsValid) read

namespace MemberSpec

structure Valid (s : MemberSpec) : Prop where
  named : s.name ≠ ""
  kind : s.kind.isClass = false
  state : s.kind = .other → s.mutable = false
  location : ∀ l ∈ s.location, l.Valid

instance (s : MemberSpec) : Decidable s.Valid :=
  decidable_of_iff (s.name ≠ "" ∧ s.kind.isClass = false ∧ (s.kind = .other → s.mutable = false) ∧
    ∀ l ∈ s.location, l.Valid)
    ⟨fun h => ⟨h.1, h.2.1, h.2.2.1, h.2.2.2⟩, fun h => ⟨h.named, h.kind, h.state, h.location⟩⟩

theorem holdsStateOk (s r : MemberSpec) :
    s.holdsState = .ok r ↔ s = r ∧ (s.kind = .other → s.mutable = false) := by
  unfold holdsState
  split
  · rename_i stateful
    simp only [Bool.and_eq_true, decide_eq_true_eq] at stateful
    simp [stateful]
  · rename_i stateless
    simp only [Bool.and_eq_true, decide_eq_true_eq, not_and, Bool.not_eq_true] at stateless
    simpa using fun _ => stateless

theorem memberKindOk (k r : Kind) : memberKind k = .ok r ↔ k = r ∧ k.isClass = false := by
  cases isClass : k.isClass <;> simp [memberKind, isClass]

theorem checkOk (s r : MemberSpec) (location : ∀ l ∈ s.location, l.Valid) : s.check = .ok r ↔ s = r ∧ s.Valid := by
  simp only [check, andThenOk, andOk, underOk, holdsStateOk, memberKindOk]
  constructor
  · rintro ⟨p, ⟨named, _, kind⟩, rfl, state⟩
    refine ⟨rfl, ⟨?_, kind, state, location⟩⟩
    rintro empty
    simp [empty] at named
  · rintro ⟨rfl, valid⟩
    have named : s.name.isEmpty = false := by simpa using valid.named
    exact ⟨((), s.kind), ⟨by simp [named], rfl, valid.kind⟩, rfl, valid.state⟩

theorem fieldsValid {fields : Fields} {s : MemberSpec} (checked : ofFields fields = .ok s) : s.Valid := by
  simp only [ofFields, andThenOk, andOk, holdsStateOk] at checked
  obtain ⟨parts, ⟨name, kind, _, _, _, location, _⟩, rfl, state⟩ := checked
  refine ⟨nameFilled name, ?_, state, placeValid location⟩
  refine fieldAll (·.isClass = false) rfl (fun d read => ?_) kind
  simp only [andThenOk, memberKindOk] at read
  obtain ⟨k, _, rfl, member⟩ := read
  exact member

theorem recordDatum {s : MemberSpec} (valid : s.Valid) : record ofFields s.toDatum = .ok s := by
  obtain ⟨name, kind, type, mutable, annotations, location⟩ := s
  have named : name.isEmpty = false := by simpa using valid.named
  have member : memberKind kind = .ok kind := (memberKindOk kind kind).2 ⟨rfl, valid.kind⟩
  have state := (holdsStateOk _ _).2 ⟨rfl, valid.state⟩
  have place : ∀ l ∈ location, Schema.optional (record LocationSpec.ofFields) l.toDatum = .ok (some l) :=
    fun l here => optionalLocation (valid.location l here)
  cases type <;> cases location
  all_goals
    simp [record, toDatum, ofFields, presentField, required, field, valueOf?, only, nonemptyText, Schema.text, named,
      oneOf, Kind.ofTagTag, member, andThen, Schema.bool, textsBack, optionalText, all, place, Except.map, state]

end MemberSpec

namespace ClassSpec

structure Valid (s : ClassSpec) : Prop where
  named : s.name ≠ ""
  owner : ∀ o ∈ s.owner, o.toList ++ ['.'] <+: s.name.toList
  kind : s.kind.isClass = true
  members : ∀ m ∈ s.members, m.Valid
  location : ∀ l ∈ s.location, l.Valid

instance (s : ClassSpec) : Decidable s.Valid :=
  decidable_of_iff (s.name ≠ "" ∧ (∀ o ∈ s.owner, o.toList ++ ['.'] <+: s.name.toList) ∧ s.kind.isClass = true ∧
    (∀ m ∈ s.members, m.Valid) ∧ ∀ l ∈ s.location, l.Valid)
    ⟨fun h => ⟨h.1, h.2.1, h.2.2.1, h.2.2.2.1, h.2.2.2.2⟩, fun h => ⟨h.named, h.owner, h.kind, h.members, h.location⟩⟩

theorem namedAfterOwnerOk (s r : ClassSpec) :
    s.namedAfterOwner = .ok r ↔ s = r ∧ ∀ o ∈ s.owner, o.toList ++ ['.'] <+: s.name.toList := by
  unfold namedAfterOwner
  cases owner : s.owner with
  | none => simp
  | some o =>
    by_cases named : o.toList ++ ['.'] <+: s.name.toList <;> simp [named]

theorem classKindOk (k r : Kind) : classKind k = .ok r ↔ k = r ∧ k.isClass = true := by
  cases isClass : k.isClass <;> simp [classKind, isClass]

theorem checkOk (s r : ClassSpec) (members : ∀ m ∈ s.members, m.Valid) (location : ∀ l ∈ s.location, l.Valid) :
    s.check = .ok r ↔ s = r ∧ s.Valid := by
  simp only [check, andThenOk, andOk, underOk, namedAfterOwnerOk, classKindOk]
  constructor
  · rintro ⟨p, ⟨named, _, kind⟩, rfl, owner⟩
    refine ⟨rfl, ⟨?_, owner, kind, members, location⟩⟩
    rintro empty
    simp [empty] at named
  · rintro ⟨rfl, valid⟩
    have named : s.name.isEmpty = false := by simpa using valid.named
    exact ⟨((), s.kind), ⟨by simp [named], rfl, valid.kind⟩, rfl, valid.owner⟩

theorem fieldsValid {fields : Fields} {s : ClassSpec} (checked : ofFields fields = .ok s) : s.Valid := by
  simp only [ofFields, andThenOk, andOk, namedAfterOwnerOk] at checked
  obtain ⟨parts, ⟨name, _, kind, _, _, members, location, _⟩, rfl, owner⟩ := checked
  refine ⟨nameFilled name, owner, ?_, ?_, placeValid location⟩
  · refine fieldAll (·.isClass = true) rfl (fun d read => ?_) kind
    simp only [andThenOk, classKindOk] at read
    obtain ⟨k, _, rfl, isClass⟩ := read
    exact isClass
  · refine fieldAll (∀ m ∈ ·, MemberSpec.Valid m) (by simp) (fun d read => ?_) members
    refine listOfAll _ (fun d m read => ?_) read
    exact recordAll _ (fun _ => MemberSpec.fieldsValid) read

theorem recordDatum {s : ClassSpec} (valid : s.Valid) : record ofFields s.toDatum = .ok s := by
  obtain ⟨name, owner, kind, annotations, parents, members, location⟩ := s
  have named : name.isEmpty = false := by simpa using valid.named
  have isClass : classKind kind = .ok kind := (classKindOk kind kind).2 ⟨rfl, valid.kind⟩
  have owned := (namedAfterOwnerOk _ _).2 ⟨rfl, valid.owner⟩
  have place : ∀ l ∈ location, Schema.optional (record LocationSpec.ofFields) l.toDatum = .ok (some l) :=
    fun l here => optionalLocation (valid.location l here)
  have inner : listOf (record MemberSpec.ofFields) (.list (members.map (·.toDatum))) = .ok members :=
    listOfMap fun m here => MemberSpec.recordDatum (valid.members m here)
  cases owner <;> cases location
  all_goals
    simp [record, toDatum, ofFields, presentField, required, field, valueOf?, only, nonemptyText, Schema.text, named,
      oneOf, Kind.ofTagTag, isClass, andThen, textsBack, optionalText, all, place, inner, Except.map, owned]

end ClassSpec

namespace Document

structure Valid (doc : Document) : Prop where
  classes : ∀ c ∈ doc.classes, c.Valid
  aliases : (doc.aliases.map (·.1)).Nodup

instance (doc : Document) : Decidable doc.Valid :=
  decidable_of_iff ((∀ c ∈ doc.classes, c.Valid) ∧ (doc.aliases.map (·.1)).Nodup)
    ⟨fun h => ⟨h.1, h.2⟩, fun h => ⟨h.classes, h.aliases⟩⟩

theorem ofDatumToDatum {doc : Document} (valid : doc.Valid) : ofDatum doc.toDatum = .ok doc := by
  obtain ⟨classes, aliases, owners⟩ := doc
  have inner : listOf (record ClassSpec.ofFields) (.list (classes.map (·.toDatum))) = .ok classes :=
    listOfMap fun c here => ClassSpec.recordDatum (valid.classes c here)
  have named : tableOf Schema.text (.table (aliases.map fun a => (a.1, .text a.2))) = .ok aliases := by
    rw [tableOfOk, List.forall₂_map_left_iff, List.forall₂_same]
    exact fun a _ => ⟨rfl, rfl⟩
  simp [ofDatum, record, toDatum, ofFields, field, valueOf?, only, all, inner, named, textsBack, Except.map]

end Document

/-! The value of a document is nested six deep, and each table of it has distinct keys. -/

open Json (Reads readsText readsInt readsBool readsList readsTable)

theorem textListReads (depth level : Nat) (xs : List String) : Reads (depth + 1) level (textList xs) := by
  refine readsList fun d here => ?_
  obtain ⟨s, _, rfl⟩ := List.mem_map.1 here
  exact readsText _ _ s

theorem presentReads {α : Type} {depth level : Nat} {key : String} {write : α → Datum} (o : Option α)
    (part : ∀ a, Reads depth level (write a)) : ∀ f ∈ presentField key (o.map write), Reads depth level f.2 := by
  cases o with
  | none => simp [presentField]
  | some a => simpa [presentField] using part a

theorem LocationSpec.datumReads (depth level : Nat) (s : LocationSpec) : Reads (depth + 1) level s.toDatum := by
  refine readsTable (by simp) fun f here => ?_
  simp only [List.mem_cons, List.not_mem_nil, or_false] at here
  rcases here with rfl | rfl | rfl
  · exact readsText _ _ _
  · exact readsInt _ _ _
  · exact readsInt _ _ _

theorem MemberSpec.datumReads (depth level : Nat) (s : MemberSpec) : Reads (depth + 2) level s.toDatum := by
  refine readsTable ?_ fun f here => ?_
  · cases s.type <;> cases s.location <;> simp [presentField]
  · simp only [List.mem_append, List.mem_cons, List.not_mem_nil, or_false] at here
    rcases here with ((((rfl | rfl) | type) | rfl | rfl) | location)
    · exact readsText _ _ _
    · exact readsText _ _ _
    · exact presentReads _ (readsText _ _) f type
    · exact readsBool _ _ _
    · exact textListReads _ _ _
    · exact presentReads _ (LocationSpec.datumReads depth _) f location

theorem ClassSpec.datumReads (depth level : Nat) (s : ClassSpec) : Reads (depth + 4) level s.toDatum := by
  refine readsTable ?_ fun f here => ?_
  · cases s.owner <;> cases s.location <;> simp [presentField]
  · simp only [List.mem_append, List.mem_cons, List.not_mem_nil, or_false] at here
    rcases here with (((rfl | owner) | rfl | rfl | rfl | rfl) | location)
    · exact readsText _ _ _
    · exact presentReads _ (readsText _ _) f owner
    · exact readsText _ _ _
    · exact textListReads _ _ _
    · exact textListReads _ _ _
    · refine readsList fun d here => ?_
      obtain ⟨m, _, rfl⟩ := List.mem_map.1 here
      exact MemberSpec.datumReads depth _ m
    · exact presentReads _ (LocationSpec.datumReads (depth + 2) _) f location

namespace Document

theorem datumReads (depth level : Nat) {doc : Document} (valid : doc.Valid) : Reads (depth + 6) level doc.toDatum := by
  refine readsTable (by simp) fun f here => ?_
  simp only [List.mem_cons, List.not_mem_nil, or_false] at here
  rcases here with rfl | rfl | rfl
  · refine readsList fun d here => ?_
    obtain ⟨c, _, rfl⟩ := List.mem_map.1 here
    exact ClassSpec.datumReads depth _ c
  · refine readsTable (by rw [List.map_map]; exact valid.aliases) fun f here => ?_
    obtain ⟨a, _, rfl⟩ := List.mem_map.1 here
    exact readsText _ _ _
  · exact textListReads _ _ _

theorem parseRendered {doc : Document} (valid : doc.Valid) : parse doc.render = .ok doc := by
  have back : Json.read doc.render = some doc.toDatum := Json.readIndented (datumReads 194 0 valid)
  rw [parse, back]
  exact ofDatumToDatum valid

theorem tableKeys {α : Type} {check : Datum → Checked α} {d : Datum} {as : List (String × α)} (tidy : Json.Tidy d)
    (checked : tableOf check d = .ok as) : (as.map (·.1)).Nodup := by
  cases d with
  | table fields =>
    rw [tableOfOk] at checked
    have keys : fields.map (·.1) = as.map (·.1) := by
      have same := checked.imp fun _ _ both => both.2
      rw [← List.forall₂_eq_eq_eq, List.forall₂_map_left_iff, List.forall₂_map_right_iff]
      exact same
    cases tidy with
    | leaf _ noTable => exact absurd rfl (noTable fields)
    | table distinct _ => exact keys ▸ distinct
  | _ => simp [tableOf] at checked

theorem fieldsValid {fields : Fields} {doc : Document} (tidy : ∀ f ∈ fields, Json.Tidy f.2)
    (checked : ofFields fields = .ok doc) : doc.Valid := by
  simp only [ofFields, mapOk, andOk] at checked
  obtain ⟨parts, ⟨classes, aliases, _, _⟩, rfl⟩ := checked
  constructor
  · refine fieldAll (∀ c ∈ ·, ClassSpec.Valid c) (by simp) (fun d read => ?_) classes
    exact listOfAll _ (fun _ _ => recordAll _ fun _ => ClassSpec.fieldsValid) read
  · unfold field at aliases
    split at aliases
    · rename_i d found
      exact tableKeys (tidy _ (valueOfKey found)) (by simpa using aliases)
    · rw [← (Except.ok.inj aliases)]
      simp

theorem parseValid {text : String} {doc : Document} (parsed : parse text = .ok doc) : doc.Valid := by
  unfold parse at parsed
  split at parsed
  · simp at parsed
  · rename_i d read
    cases d with
    | table fields =>
      cases Json.readTidy read with
      | leaf _ noTable => exact absurd rfl (noTable fields)
      | table _ parts => exact fieldsValid parts parsed
    | _ => simp [ofDatum, record] at parsed

end Document
end SharedState
