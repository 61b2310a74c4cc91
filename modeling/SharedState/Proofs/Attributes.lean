import SharedState.Proofs.ClassFields

/-! Attributes and the names under which they are reported. Of the members of a class only fields are mutable, and no two fields share
a name, whichever statements declare them. A name of a field has no dot in it, so a qualified name tells the class and the field, and
a run reports no name twice. -/
namespace SharedState

open SharedState.Source SharedState.Text

structure ClassEntry.Attributed (e : ClassEntry) : Prop where
  keys : (e.members.map fun m => memberKey m.toDeclaration).Nodup
  inside : ∀ m ∈ e.members, e.symbol.inside m.toDeclaration = m
  kinds : ∀ m ∈ e.members, m.isClass = false
  named : ∀ m ∈ e.members, ∃ id : Identifier, m.name = id.text
  fields : ∀ m ∈ e.members, m.mutable = true → ∃ id : Identifier, m.IsField id.text

section
variable {p : Viewpoint} {d : ClassDecl} {charset : CharacterNames}

theorem statedField {m : Declaration} (stated : Stated p d m) (isMutable : m.mutable = true) :
    ∃ id : Identifier, m.IsField id.text := by
  cases stated with
  | field id sort => exact ⟨id, rfl, sort⟩
  | function => cases isMutable
  | accessor => cases isMutable
  | nested => cases isMutable

theorem statedNamed {m : Declaration} (stated : Stated p d m) : ∃ id : Identifier, m.name = id.text := by
  cases stated with
  | field id sort => exact ⟨id, rfl⟩
  | function name => exact ⟨name, rfl⟩
  | accessor name => exact ⟨name, rfl⟩
  | nested name => exact ⟨name, rfl⟩

theorem statedKind {m : Declaration} (stated : Stated p d m) : m.kind.isClass = false := by
  cases stated with
  | field id sort =>
    obtain rfl | rfl := sort
    · rfl
    · rfl
  | function name decorators start isMember => exact isMember
  | accessor => rfl
  | nested => rfl

theorem addMemberDistinct {members : List Declaration} (distinct : (members.map memberKey).Nodup) (m : Declaration) :
    ((addMember members m).map memberKey).Nodup := by
  unfold addMember
  split
  · exact distinct
  · rename_i free
    have fresh : memberKey m ∉ members.map memberKey := by
      intro taken
      obtain ⟨n, inside, like⟩ := List.mem_map.1 taken
      exact free (List.any_eq_true.2 ⟨n, inside, decide_eq_true like⟩)
    have numbered : memberKey { m with serial := members.length } = memberKey m := rfl
    rw [List.map_append, List.map_singleton, numbered]
    exact List.nodup_append.2 ⟨distinct, List.nodup_singleton _, fun k old k' new same =>
      fresh (List.mem_singleton.1 new ▸ same ▸ old)⟩

theorem addAllDistinct {members : List Declaration} (distinct : (members.map memberKey).Nodup) (found : List Declaration) :
    ((found.foldl addMember members).map memberKey).Nodup := by
  induction found generalizing members with
  | nil => exact distinct
  | cons m found ih => exact ih (addMemberDistinct distinct m)

theorem elaborateAttributed {e : ClassEntry} (made : elaborateClass p d = .ok e) : e.Attributed := by
  unfold elaborateClass at made
  obtain ⟨found, declared, made⟩ := bindOk made
  obtain ⟨parents, _, made⟩ := bindOk made
  cases Except.ok.inj made
  have stated : ∀ m ∈ found.flatten.foldl addMember [], ∃ o, ∃ serial : Nat, Stated p d o ∧ m = { o with serial } := by
    intro m inside
    rcases addedMembers inside with impossible | ⟨o, here, serial, same⟩
    · cases impossible
    · exact ⟨o, serial, bodyStated declared o here, same⟩
  refine ⟨?_, fun m member => ?_, fun m member => ?_, fun m member => ?_, fun m member isMutable => ?_⟩
  · have none : (([] : List Declaration).map memberKey).Nodup := List.nodup_nil
    rw [List.map_map]
    exact addAllDistinct none found.flatten
  · obtain ⟨n, _, rfl⟩ := List.mem_map.1 member
    rfl
  · obtain ⟨n, inside, rfl⟩ := List.mem_map.1 member
    obtain ⟨o, serial, written, rfl⟩ := stated n inside
    have kind := statedKind written
    exact kind
  · obtain ⟨n, inside, rfl⟩ := List.mem_map.1 member
    obtain ⟨o, serial, written, rfl⟩ := stated n inside
    obtain ⟨id, name⟩ := statedNamed written
    exact ⟨id, name⟩
  · obtain ⟨n, inside, rfl⟩ := List.mem_map.1 member
    obtain ⟨o, serial, written, rfl⟩ := stated n inside
    obtain ⟨id, field⟩ := statedField written isMutable
    exact ⟨id, field⟩

end

namespace Graph

/- The class is what stands before the last dot of the name of a field. -/
theorem attributesApart {g : Graph} (names : (g.entries.map (·.symbol.qualifiedName)).Nodup)
    (attributed : ∀ e ∈ g.entries, e.Attributed) {e f : ClassEntry} (left : e ∈ g.entries) (right : f ∈ g.entries) {m n : Symbol}
    (here : m ∈ e.members) (there : n ∈ f.members) (first : m.mutable = true) (second : n.mutable = true)
    (same : m.qualifiedName = n.qualifiedName) : m = n := by
  obtain ⟨v, field⟩ := (attributed e left).fields m here first
  obtain ⟨w, field'⟩ := (attributed f right).fields n there second
  have name : m.qualifiedName = e.symbol.qualifiedName ++ "." ++ v.text := by
    rw [← (attributed e left).inside m here, Symbol.qualifiedInside, field.1]
  have name' : n.qualifiedName = f.symbol.qualifiedName ++ "." ++ w.text := by
    rw [← (attributed f right).inside n there, Symbol.qualifiedInside, field'.1]
  rw [name, name'] at same
  have classes : e.symbol.qualifiedName = f.symbol.qualifiedName := by
    rw [← qualifierInside e.symbol.qualifiedName v.plain, same, qualifierInside _ w.plain]
  cases List.inj_on_of_nodup_map names left right classes
  have words : v.text = w.text := by simpa using same
  have keys : memberKey m.toDeclaration = memberKey n.toDeclaration := by
    rw [(fieldKey m.toDeclaration v.text).1 field, (fieldKey n.toDeclaration w.text).1 field', words]
  exact List.inj_on_of_nodup_map (attributed e left).keys here there keys

end Graph

namespace Program

variable {p : Program} {g : Graph}

theorem buildAttributed [CharacterNames] (done : p.build.2 = .ok g) : ∀ e ∈ g.entries, e.Attributed := by
  obtain ⟨bs, entries, builds⟩ := buildBuilds done
  intro e listed
  rw [(Graph.buildSource builds.built).entries] at listed
  obtain ⟨d, _, made⟩ := relatedRight (mapMEach builds.elaborated) e listed
  unfold elaborate at made
  split at made
  · exact elaborateAttributed made
  · cases Except.ok.inj made
    exact ⟨List.nodup_nil, by simp, by simp, by simp, by simp⟩

/- Whatever modules a program has, and from whichever of its classes a run starts, the run reports each name once; and only one
attribute of the program has this name. -/
theorem findingsApart [CharacterNames] (done : p.build.2 = .ok g) (s : Settings) {roots : List Symbol}
    (known : ∀ r ∈ roots, r ∈ g.entries.map (·.symbol)) :
    ∃ run, g.checkFrom s roots = .ok run ∧ (run.result.diagnostics.map (·.symbol)).Nodup ∧
      ∀ d ∈ run.result.diagnostics, ∃ e ∈ g.entries, ∃ m ∈ e.members, m.mutable = true ∧ m.qualifiedName = d.symbol ∧
        ∀ f ∈ g.entries, ∀ n ∈ f.members, n.mutable = true → n.qualifiedName = d.symbol → n = m := by
  obtain ⟨bs, entries, builds⟩ := buildBuilds done
  have source := Graph.buildSource builds.built
  have apart {e f : ClassEntry} (left : e ∈ g.entries) (right : f ∈ g.entries) {m n : Symbol} (here : m ∈ e.members)
      (there : n ∈ f.members) := Graph.attributesApart source.names (buildAttributed done) left right here there
  cases on : s.checkReentrant with
  | false => exact ⟨_, Graph.checkOff g on roots, List.nodup_nil, by simp⟩
  | true =>
    have classes : ∀ r ∈ roots, r.isClass = true := by
      intro r start
      obtain ⟨e, listed, rfl⟩ := List.mem_map.1 (known r start)
      exact source.kinds e listed
    obtain ⟨w, scanned⟩ := Graph.toldScans classes (buildTold done) s
    obtain ⟨moves, _, runs, _⟩ := Scanner.scanEnded roots (fun _ h => h) rfl scanned
    have sound := Scanner.movesSound moves Scanner.soundStart
    have told : w.diagnostics.map (·.symbol) = w.flagged.map (·.qualifiedName) := sound.told runs
    have declared : ∀ m ∈ w.flagged, ∃ e ∈ g.entries, m ∈ e.members ∧ m.mutable = true := by
      intro m flagged
      obtain ⟨c, _, exposed⟩ := sound.exposed m flagged
      obtain ⟨e, listed, inside⟩ := Graph.membersDeclared exposed.declared
      exact ⟨e, listed, inside, exposed.isMutable⟩
    refine ⟨_, Graph.checkOn on scanned, ?_, fun d reported => ?_⟩
    · rw [told]
      refine sound.flaggedOnce.map_on fun m left n right same => ?_
      obtain ⟨e, listed, here, first⟩ := declared m left
      obtain ⟨f, listed', there, second⟩ := declared n right
      exact apart listed listed' here there first second same
    · have named : d.symbol ∈ w.flagged.map (·.qualifiedName) := told ▸ List.mem_map_of_mem reported
      obtain ⟨m, flagged, same⟩ := List.mem_map.1 named
      obtain ⟨e, listed, here, first⟩ := declared m flagged
      refine ⟨e, listed, m, here, first, same, fun f listed' n there second other => ?_⟩
      exact apart listed' listed there here second first (other.trans same.symm)

/- A parameter of a constructor that is assigned again, in the class and in the constructor itself; and a module that is called as a
class of another one. -/
def repeatedAttributes : List ModuleSource :=
  [{ name := "m", code := "@dataclass\nclass A:\n  x: int\n  x = []\n  def __init__(self):\n    self.x = self.y = self.x = 0\n" },
   { name := "m.A", code := "class B:\n  x = 0\n" }]

theorem repeatedAttributesApart : ∃ p g run, repeatedAttributes.foldlM addSource (ofSettings {}) = .ok p ∧ p.build.2 = .ok g ∧
    g.checkFrom {} (g.entries.map (·.symbol)) = .ok run ∧
    run.result.diagnostics.map (·.symbol) = ["m.A.x", "m.A.y", "m.A.B.x"] ∧ (run.result.diagnostics.map (·.symbol)).Nodup := by
  obtain ⟨p, g, added, built, seen⟩ := builtFrom repeatedAttributes (fun _ g =>
    decide ((g.checkFrom {} (g.entries.map (·.symbol))).map (·.result.diagnostics.map (·.symbol)) =
      .ok ["m.A.x", "m.A.y", "m.A.B.x"])) (by decide +kernel)
  obtain ⟨run, checked, apart, _⟩ := findingsApart built {} (fun r (h : r ∈ g.entries.map (·.symbol)) => h)
  rw [checked] at seen
  exact ⟨p, g, run, added, built, checked, Except.ok.inj (of_decide_eq_true seen), apart⟩

end Program
end SharedState
