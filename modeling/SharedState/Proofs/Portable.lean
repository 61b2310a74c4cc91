import SharedState.Proofs.Building
import SharedState.Proofs.DocumentText
import SharedState.Proofs.Markers
import SharedState.Proofs.Retyping
import SharedState.Proofs.TypeText

/-! Graphs that are written, and graphs that a document can hold. A graph has a document if what is written of it passes the checks
of documents and its types have texts. A document can hold it if, besides, classes are numbered in order, owners are classes of the
graph, and markers are as documents keep them; it stays such a graph when its types change. -/
namespace SharedState

open SharedState.Source SharedState.Text

/-! What a document keeps of a declaration, of a class and of a member. -/

structure Declaration.Portable (d : Declaration) : Prop where
  settled : ∀ m ∈ d.markers, Settled m
  sorted : d.markers.Pairwise (· < ·)
  placed : ∀ l ∈ d.location, 1 ≤ l.line ∧ 1 ≤ l.column

structure Symbol.PortableClass (g : Graph) (s : Symbol) : Prop where
  kept : s.toDeclaration.Portable
  kind : s.isClass = true
  untyped : s.declaredType = none
  fixed : s.mutable = false
  named : s.qualifiedName ≠ ""
  owner : ∀ o ∈ s.owner?, ∃ e ∈ g.entries, e.symbol = o
  depth : s.enclosing.length ≤ g.entries.length

structure Symbol.PortableMember (cls m : Symbol) : Prop where
  kept : m.toDeclaration.Portable
  inside : cls.inside m.toDeclaration = m
  kind : m.isClass = false
  named : m.name ≠ ""
  state : m.kind = .other → m.mutable = false

structure Graph.Portable (g : Graph) : Prop where
  serials : g.entries.map (·.symbol.serial) = List.range g.entries.length
  names : (g.entries.map (·.symbol.qualifiedName)).Nodup
  classes : ∀ e ∈ g.entries, e.symbol.PortableClass g
  memberSerials : ∀ e ∈ g.entries, e.members.map (·.serial) = List.range e.members.length
  members : ∀ e ∈ g.entries, ∀ m ∈ e.members, e.symbol.PortableMember m
  aliases : (g.aliases.map (·.1)).Nodup
  owners : g.staticOwners.Nodup
  ownersKnown : ∀ s ∈ g.staticOwners, ∃ e ∈ g.entries, e.symbol = s

/-! The document of a graph whose types all have a text. -/

def Symbol.spec (m : Symbol) : MemberSpec :=
  { name := m.name, kind := m.kind, type := m.declaredType.map (·.shown), mutable := m.mutable, annotations := m.markers,
    location := m.location.map .ofLocation }

def ClassEntry.spec (e : ClassEntry) : ClassSpec :=
  { name := e.symbol.qualifiedName, owner := e.symbol.owner?.map (·.qualifiedName), kind := e.symbol.kind,
    annotations := e.symbol.markers, parents := e.parents.map (·.shown), members := e.members.map (·.spec),
    location := e.symbol.location.map .ofLocation }

def ClassEntry.types (e : ClassEntry) : List TypeRef := e.members.filterMap (·.declaredType) ++ e.parents

namespace Graph

def document (g : Graph) : Document :=
  { classes := g.entries.map (·.spec), aliases := g.aliases.map fun a => (a.1, a.2.shown),
    staticOwners := g.staticOwners.map (·.qualifiedName) }

/-- All types of a graph: of members, of parents, and those for which aliases stand. -/
def types (g : Graph) : List TypeRef := g.entries.flatMap (·.types) ++ g.aliases.map (·.2)

end Graph

/-! Which graphs have a document, and which document that is. -/

def TypeRef.Told (t : TypeRef) : Prop := t.text? = some t.shown

theorem checkedIff {α : Type} {c : Checked α} {a : α} : checkedSpec c = .ok a ↔ c = .ok a := by
  cases c <;> simp [checkedSpec]

theorem dumpTextIff (t : TypeRef) (s : String) : dumpText t = .ok s ↔ t.Told ∧ s = t.shown := by
  unfold dumpText TypeRef.Told TypeRef.shown
  cases t.text? <;> simp [eq_comm]

theorem dumpTypeIff (type : Option TypeRef) (s : Option String) :
    type.mapM dumpText = .ok s ↔ (∀ t ∈ type, t.Told) ∧ s = type.map (·.shown) := by
  cases type with
  | none =>
    change Except.ok none = Except.ok s ↔ _
    simp [eq_comm]
  | some t =>
    cases told : t.text? <;> simp [dumpText, TypeRef.Told, TypeRef.shown, told, eq_comm]

theorem dumpLocationIff (l : Option Location) (s : Option LocationSpec) :
    dumpLocation l = .ok s ↔ (∀ place ∈ l.map LocationSpec.ofLocation, place.Valid) ∧ s = l.map .ofLocation := by
  cases l with
  | none => simp [dumpLocation, eq_comm]
  | some place =>
    have one (r : LocationSpec) : checkedSpec (LocationSpec.ofLocation place).check = .ok r ↔
        (LocationSpec.ofLocation place).Valid ∧ r = .ofLocation place := by
      rw [checkedIff, LocationSpec.checkOk, and_comm, eq_comm (a := r)]
    cases made : checkedSpec (LocationSpec.ofLocation place).check with
    | error e =>
      have invalid : ¬ (LocationSpec.ofLocation place).Valid := fun valid => by
        rw [(one _).2 ⟨valid, rfl⟩] at made
        cases made
      simp [dumpLocation, made, Except.map, invalid]
    | ok r =>
      obtain ⟨valid, rfl⟩ := (one r).1 made
      simp [dumpLocation, made, Except.map, valid, eq_comm]

namespace Symbol

theorem writtenIff (m : Symbol) (s : MemberSpec) :
    MemberSpec.ofSymbol m = .ok s ↔ (m.spec.Valid ∧ ∀ t ∈ m.declaredType, t.Told) ∧ s = m.spec := by
  unfold MemberSpec.ofSymbol
  simp only [bindIff, dumpTypeIff, dumpLocationIff, checkedIff]
  constructor
  · rintro ⟨_, ⟨told, rfl⟩, _, ⟨placed, rfl⟩, done⟩
    obtain ⟨rfl, valid⟩ := (MemberSpec.checkOk _ _ placed).1 done
    exact ⟨⟨valid, told⟩, rfl⟩
  · rintro ⟨⟨valid, told⟩, rfl⟩
    exact ⟨_, ⟨told, rfl⟩, _, ⟨valid.location, rfl⟩, (MemberSpec.checkOk _ _ valid.location).2 ⟨rfl, valid⟩⟩

end Symbol

namespace ClassEntry

/- Members that are classes are not written, since they have entries of their own. -/
def own (e : ClassEntry) : ClassEntry := { e with members := e.members.filter fun m => !m.isClass }

theorem writtenIff (e : ClassEntry) (s : ClassSpec) :
    ClassSpec.ofEntry e = .ok s ↔ (e.own.spec.Valid ∧ ∀ t ∈ e.own.types, t.Told) ∧ s = e.own.spec := by
  unfold ClassSpec.ofEntry
  simp only [bindIff, dumpLocationIff, checkedIff, mapMIff dumpTextIff, mapMIff Symbol.writtenIff]
  constructor
  · rintro ⟨_, ⟨parents, rfl⟩, _, ⟨members, rfl⟩, _, ⟨placed, rfl⟩, done⟩
    have each : ∀ m ∈ e.own.members.map (·.spec), m.Valid := by
      intro m member
      obtain ⟨n, inside, rfl⟩ := List.mem_map.1 member
      exact (members n inside).1
    obtain ⟨rfl, valid⟩ := (ClassSpec.checkOk _ _ each placed).1 done
    refine ⟨⟨valid, fun t typed => ?_⟩, rfl⟩
    rcases List.mem_append.1 typed with declared | parent
    · obtain ⟨m, inside, declared⟩ := List.mem_filterMap.1 declared
      exact (members m inside).2 t declared
    · exact parents t parent
  · rintro ⟨⟨valid, told⟩, rfl⟩
    have members : ∀ m ∈ e.own.members, m.spec.Valid ∧ ∀ t ∈ m.declaredType, t.Told := fun m inside =>
      ⟨valid.members _ (List.mem_map_of_mem inside), fun t declared =>
        told t (List.mem_append_left _ (List.mem_filterMap.2 ⟨m, inside, declared⟩))⟩
    exact ⟨_, ⟨fun t parent => told t (List.mem_append_right _ parent), rfl⟩, _, ⟨members, rfl⟩, _, ⟨valid.location, rfl⟩,
      (ClassSpec.checkOk _ _ valid.members valid.location).2 ⟨rfl, valid⟩⟩

end ClassEntry

namespace Graph

def own (g : Graph) : Graph := { g with entries := g.entries.map (·.own) }

theorem writtenIff (g : Graph) (doc : Document) : g.toDocument = .ok doc ↔
    ((∀ e ∈ g.own.entries, e.spec.Valid) ∧ ∀ t ∈ g.own.types, t.Told) ∧ doc = g.own.document := by
  have one (a : String × TypeRef) (b : String × String) :
      (do return (a.1, ← dumpText a.2) : Except DumpError (String × String)) = .ok b ↔ a.2.Told ∧ b = (a.1, a.2.shown) := by
    simp only [bindIff, dumpTextIff]
    constructor
    · rintro ⟨_, ⟨told, rfl⟩, same⟩
      exact ⟨told, (Except.ok.inj same).symm⟩
    · rintro ⟨told, rfl⟩
      exact ⟨_, ⟨told, rfl⟩, rfl⟩
  unfold toDocument
  simp only [bindIff, mapMIff ClassEntry.writtenIff, mapMIff one]
  constructor
  · rintro ⟨_, ⟨classes, rfl⟩, _, ⟨aliases, rfl⟩, done⟩
    cases Except.ok.inj done
    refine ⟨⟨fun e member => ?_, fun t typed => ?_⟩, by simp [document, own, Function.comp_def]⟩
    · obtain ⟨f, inside, rfl⟩ := List.mem_map.1 member
      exact (classes f inside).1
    · rcases List.mem_append.1 typed with within | aliased
      · obtain ⟨e, member, here⟩ := List.mem_flatMap.1 within
        obtain ⟨f, inside, rfl⟩ := List.mem_map.1 member
        exact (classes f inside).2 t here
      · obtain ⟨a, inside, rfl⟩ := List.mem_map.1 aliased
        exact aliases a inside
  · rintro ⟨⟨valid, told⟩, rfl⟩
    refine ⟨_, ⟨fun e inside => ?_, rfl⟩, _, ⟨fun a inside => ?_, rfl⟩, ?_⟩
    · have member : e.own ∈ g.own.entries := List.mem_map_of_mem inside
      exact ⟨valid _ member, fun t typed => told t (List.mem_append_left _ (List.mem_flatMap.2 ⟨_, member, typed⟩))⟩
    · exact told a.2 (List.mem_append_right _ (List.mem_map_of_mem inside))
    · simp [document, own, Function.comp_def, pure, Except.pure]

end Graph

theorem placesValid {place : Option Location} (placed : ∀ l ∈ place, 1 ≤ l.line ∧ 1 ≤ l.column) :
    ∀ l ∈ place.map LocationSpec.ofLocation, l.Valid := by
  intro l member
  obtain ⟨known, here, rfl⟩ := Option.map_eq_some_iff.1 member
  exact ⟨(placed known here).1, (placed known here).2⟩

theorem portablePlace {d : Declaration} (kept : d.Portable) :
    ∀ l ∈ d.location.map LocationSpec.ofLocation, l.Valid := placesValid kept.placed

namespace Symbol

theorem specValid {cls m : Symbol} (kept : cls.PortableMember m) : m.spec.Valid :=
  ⟨kept.named, kept.kind, kept.state, portablePlace kept.kept⟩

/-! Qualified names. -/

theorem qualifiedInside (o : Symbol) (d : Declaration) : (o.inside d).qualifiedName = o.qualifiedName ++ "." ++ d.name := by
  have outer : (o.name :: o.enclosing.map (·.name)).reverse ≠ [] := by simp
  simp only [qualifiedName, inside, List.map_cons, List.reverse_cons (a := d.name)]
  rw [String.intercalate_append_of_ne_nil outer (by simp)]
  simp

theorem ownerless {s : Symbol} (none : s.owner? = none) : s.enclosing = [] := by
  obtain ⟨d, enclosing⟩ := s
  cases enclosing with
  | nil => rfl
  | cons first rest => cases none

theorem ownerName {s o : Symbol} (owner : s.owner? = some o) :
    s = o.inside s.toDeclaration ∧ s.qualifiedName = o.qualifiedName ++ "." ++ s.name := by
  obtain ⟨d, enclosing⟩ := s
  cases enclosing with
  | nil => cases owner
  | cons first rest =>
    cases Option.some.inj owner
    exact ⟨rfl, qualifiedInside ⟨first, rest⟩ d⟩

end Symbol

namespace ClassEntry

theorem ownerFirst (e : ClassEntry) : ∀ o ∈ e.spec.owner, o.toList ++ ['.'] <+: e.spec.name.toList := by
  intro o owned
  obtain ⟨outer, owner, rfl⟩ := Option.map_eq_some_iff.1 owned
  have dot : ".".toList = ['.'] := rfl
  have name : e.spec.name.toList = outer.qualifiedName.toList ++ ['.'] ++ e.symbol.name.toList := by
    rw [spec, (Symbol.ownerName owner).2]
    simp [dot]
  rw [name]
  exact List.prefix_append _ _

theorem specValid {g : Graph} {e : ClassEntry} (kept : e.symbol.PortableClass g)
    (members : ∀ m ∈ e.members, e.symbol.PortableMember m) : e.spec.Valid := by
  refine ⟨kept.named, ownerFirst e, kept.kind, fun m member => ?_, portablePlace kept.kept⟩
  obtain ⟨s, inside, rfl⟩ := List.mem_map.1 member
  exact Symbol.specValid (members s inside)

theorem retypedTypes (f : TypeRef → TypeRef) (e : ClassEntry) : (e.retyped f).types = e.types.map f := by
  have members : (e.members.map (·.retyped f)).filterMap (·.declaredType) =
      (e.members.filterMap (·.declaredType)).map f := by
    rw [List.filterMap_map, List.map_filterMap]
    rfl
  rw [types, types, List.map_append, ← members]
  rfl

end ClassEntry

namespace Graph

theorem documentValid {g : Graph} (portable : g.Portable) : g.document.Valid := by
  refine ⟨fun c member => ?_, ?_⟩
  · obtain ⟨e, inside, rfl⟩ := List.mem_map.1 member
    exact ClassEntry.specValid (portable.classes e inside) (portable.members e inside)
  · simpa [document, Function.comp_def] using portable.aliases

theorem ownPortable {g : Graph} (portable : g.Portable) : g.own = g := by
  have entry : ∀ e ∈ g.entries, e.own = e := fun e known => by
    rw [ClassEntry.own, List.filter_eq_self.2 fun m member => by simp [(portable.members e known m member).kind]]
  rw [own, List.map_congr_left entry, List.map_id']

theorem dumpOk {g : Graph} (portable : g.Portable) (told : ∀ t ∈ g.types, t.text? = some t.shown) :
    g.toDocument = .ok g.document := by
  rw [writtenIff, ownPortable portable]
  exact ⟨⟨fun e known => ClassEntry.specValid (portable.classes e known) (portable.members e known), told⟩, rfl⟩

/-- The graph with other types. An alias that stands for none is dropped. -/
def retyped (f : TypeRef → TypeRef) (read : TypeRef → Option TypeRef) (g : Graph) : Graph :=
  { entries := g.entries.map (·.retyped f)
    aliases := g.aliases.filterMap fun a => (read a.2).map fun t => (a.1, t)
    staticOwners := g.staticOwners }

variable {g : Graph}

theorem keysKept (read : TypeRef → Option TypeRef) (aliases : List (String × TypeRef)) :
    ((aliases.filterMap fun a => (read a.2).map fun t => (a.1, t)).map (·.1)).Sublist (aliases.map (·.1)) := by
  induction aliases with
  | nil => simp
  | cons a aliases ih =>
    cases kept : read a.2 with
    | none => simpa [kept] using ih.cons a.1
    | some t => simpa [kept] using ih

theorem retypedPortable (portable : g.Portable) (f : TypeRef → TypeRef) (read : TypeRef → Option TypeRef) :
    (g.retyped f read).Portable := by
  have entry : ∀ e ∈ (g.retyped f read).entries, ∃ d ∈ g.entries, d.retyped f = e := fun e member =>
    List.mem_map.1 member
  have size : (g.retyped f read).entries.length = g.entries.length := by simp [retyped]
  refine ⟨?_, ?_, fun e member => ?_, fun e member => ?_, fun e member => ?_, ?_, portable.owners, fun s member => ?_⟩
  · rw [size]
    simpa [retyped, ClassEntry.retyped, Function.comp_def] using portable.serials
  · simpa [retyped, ClassEntry.retyped, Function.comp_def] using portable.names
  · obtain ⟨d, inside, rfl⟩ := entry e member
    have kept := portable.classes d inside
    refine ⟨kept.kept, kept.kind, kept.untyped, kept.fixed, kept.named, fun o owned => ?_, size ▸ kept.depth⟩
    obtain ⟨c, known, rfl⟩ := kept.owner o owned
    exact ⟨c.retyped f, List.mem_map_of_mem known, rfl⟩
  · obtain ⟨d, inside, rfl⟩ := entry e member
    simpa [ClassEntry.retyped, Symbol.retyped, Function.comp_def] using portable.memberSerials d inside
  · obtain ⟨d, inside, rfl⟩ := entry e member
    intro m within
    obtain ⟨n, there, rfl⟩ := List.mem_map.1 within
    have kept := portable.members d inside n there
    refine ⟨⟨kept.kept.settled, kept.kept.sorted, kept.kept.placed⟩, ?_, kept.kind, kept.named, kept.state⟩
    have nested : n.enclosing = d.symbol.toDeclaration :: d.symbol.enclosing :=
      congrArg Symbol.enclosing kept.inside.symm
    simp only [Symbol.inside, Symbol.retyped, ClassEntry.retyped, nested]
  · exact portable.aliases.sublist (keysKept read g.aliases)
  · obtain ⟨e, inside, same⟩ := portable.ownersKnown s member
    exact ⟨e.retyped f, List.mem_map_of_mem inside, same⟩

theorem portableBuilt (portable : g.Portable) : Graph.build g.entries g.aliases g.staticOwners = .ok g :=
  buildOk (fun e member => (portable.classes e member).kind) portable.names portable.aliases portable.owners
    portable.ownersKnown

theorem memberUnique (portable : g.Portable) {f : TypeRef → TypeRef} {m n : Symbol} (first : m ∈ g.memberSymbols)
    (second : n ∈ g.memberSymbols) (same : m.retyped f = n.retyped f) : m = n := by
  obtain ⟨e, known, here⟩ := List.mem_flatMap.1 first
  obtain ⟨d, other, there⟩ := List.mem_flatMap.1 second
  have outer : m.owner? = n.owner? := by
    have enclosing : m.enclosing = n.enclosing := congrArg (·.enclosing) same
    rw [Symbol.owner?, Symbol.owner?, enclosing]
  have owner : e.symbol = d.symbol := by
    rw [← (portable.members e known m here).inside, ← (portable.members d other n there).inside, Symbol.ownerInside,
      Symbol.ownerInside] at outer
    exact Option.some.inj outer
  have entry : e = d := List.inj_on_of_nodup_map portable.names known other (congrArg (·.qualifiedName) owner)
  subst entry
  have serials : (e.members.map (·.serial)).Nodup := by
    rw [portable.memberSerials e known]
    exact List.nodup_range
  have serial : m.serial = n.serial := congrArg (·.serial) same
  exact List.inj_on_of_nodup_map serials here there serial

theorem lookupRetyped (f : TypeRef → TypeRef) (read : TypeRef → Option TypeRef) : (g.retyped f read).lookup = g.lookup := by
  funext name
  rw [lookup, lookup, retyped, List.find?_map, Option.map_map]
  rfl

theorem unnamedClass (portable : g.Portable) : g.lookup "" = none := by
  rw [lookup, Option.map_eq_none_iff, List.find?_eq_none]
  intro e member
  simpa using (portable.classes e member).named

end Graph

end SharedState
