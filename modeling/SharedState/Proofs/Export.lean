import SharedState.Proofs.ReadBack
import SharedState.Proofs.SourceGraph

/-! Graphs of programs as documents. Such a graph can always be written, and is read back unless a bare qualifier stands
where a type is expected. Then a check tells what it tells of the graph in which every application of a name for arrays is
an array; so it tells the same unless there is one. -/
namespace SharedState

open SharedState.Source SharedState.Text

namespace Settings

open Checked Schema

theorem markerFilled {d : Datum} {s : String} (checked : marker d = .ok s) : s ≠ "" := by
  simp only [marker, andThenOk] at checked
  obtain ⟨text, _, checked⟩ := checked
  split at checked
  · simp at checked
  · rename_i filled
    cases Except.ok.inj checked
    simpa using filled

theorem markersFilled {d : Datum} {s : Settings} (checked : Settings.ofDatum d = .ok s) : "" ∉ s.vocabulary.markers := by
  cases d with
  | table fields =>
    simp only [ofDatum, record, ofFields, andThenOk, andOk, distinctMarkers] at checked
    obtain ⟨parts, ⟨_, _, sharable, unshared, _⟩, checked⟩ := checked
    split at checked
    · simp at checked
    · cases Except.ok.inj checked
      have first := fieldAll (· ≠ "") (by decide) (fun d => markerFilled) sharable
      have second := fieldAll (· ≠ "") (by decide) (fun d => markerFilled) unshared
      simp [Settings.vocabulary, first.symm, second.symm]
  | _ => simp [ofDatum, record] at checked

end Settings

/-! A bare qualifier has no type, so that a document with it has no graph. -/

namespace TypeRef

theorem readableFull {t : TypeRef} (readable : Readable t) : t.bare = false := by
  cases readable with
  | named _ kept => simpa [bare, TypeRef.named, form, name] using kept
  | _ => rfl

variable {charset : CharacterNames}

theorem bareRefused {t : TypeRef} (legible : Legible t) (alone : t.bare = true) (place : String) :
    documentType (some t.shown) place = .error (.invalidType t.shown place) := by
  rcases legible with readable | ⟨n, rfl, name, qualifier⟩
  · rw [readableFull readable] at alone
    cases alone
  · have shown : (TypeRef.named n).shown = n := rfl
    simp only [documentType, shown, framedFilled (framedName name), parseBare name qualifier]
    rfl

theorem fullRead {t : TypeRef} (legible : Legible t ∨ t = .named "") {place : String} {r : Option TypeRef}
    (read : documentType (some t.shown) place = .ok r) : t.bare = false := by
  rcases legible with legible | rfl
  · rw [← Bool.not_eq_true]
    intro alone
    rw [bareRefused legible alone] at read
    cases read
  · decide

end TypeRef

namespace Graph

variable {g : Graph} {charset : CharacterNames}

theorem readFull (sourced : g.Sourced) {g' : Graph} (read : g.document.toGraph = .ok g') : ∀ t ∈ g.types, t.bare = false := by
  unfold Document.toGraph at read
  obtain ⟨entries, classes, read⟩ := bindOk read
  obtain ⟨aliases, aliased, _⟩ := bindOk read
  intro t member
  rcases List.mem_append.1 member with inside | named
  · obtain ⟨e, known, here⟩ := List.mem_flatMap.1 inside
    have legible := sourced.types e known t here
    obtain ⟨entry, made⟩ := mapMDone classes e.spec (List.mem_map_of_mem known)
    unfold Document.classEntry at made
    obtain ⟨symbol, _, made⟩ := bindOk made
    obtain ⟨members, inner, made⟩ := bindOk made
    obtain ⟨parents, above, _⟩ := bindOk made
    rcases List.mem_append.1 here with typed | parent
    · obtain ⟨m, within, declared⟩ := List.mem_filterMap.1 typed
      have listed : m.spec ∈ e.spec.members := List.mem_map_of_mem within
      obtain ⟨i, position⟩ := List.getElem?_of_mem listed
      obtain ⟨symbol, made⟩ := mapMDone inner (m.spec, i) (List.mem_zipIdx_iff_getElem?.2 position)
      unfold Document.memberSymbol at made
      obtain ⟨type, made, _⟩ := bindOk made
      have text : m.spec.type = some t.shown := by simp [Symbol.spec, show m.declaredType = some t from declared]
      rw [text] at made
      exact TypeRef.fullRead (.inl legible) made
    · obtain ⟨r, made⟩ := mapMDone above t.shown (List.mem_map_of_mem parent)
      exact TypeRef.fullRead (.inl legible) made
  · obtain ⟨a, known, rfl⟩ := List.mem_map.1 named
    obtain ⟨r, made⟩ := mapMDone aliased (a.1, a.2.shown) (List.mem_map.2 ⟨a, known, rfl⟩)
    unfold Document.aliasEntry at made
    obtain ⟨type, made, _⟩ := bindOk made
    exact TypeRef.fullRead (sourced.aliases a known).2 made

theorem readBackFull (sourced : g.Sourced) (full : ∀ t ∈ g.types, t.bare = false) :
    g.document.toGraph = .ok g.reread ∧ Retyping TypeRef.normal g.arrayed g.reread := by
  have readable : ∀ e ∈ g.entries, ∀ t ∈ e.types, t.Readable := fun e known t inside =>
    TypeRef.legibleReadable (sourced.types e known t inside) (full t (entryType known inside))
  have legible : ∀ a ∈ g.aliases, a.2.Readable ∨ a.2 = .named "" := by
    intro a known
    rcases (sourced.aliases a known).2 with legible | empty
    · exact .inl (TypeRef.legibleReadable legible (full a.2 (aliasType known)))
    · exact .inr empty
  have unnamed : valueOf? "" g.aliases = none := by
    cases found : valueOf? "" g.aliases with
    | none => rfl
    | some t => exact absurd rfl (sourced.aliases _ (valueOfKey found)).1
  exact ⟨graphBack sourced.portable readable legible,
    rereadRetyping sourced.portable readable legible fun _ => unnamed⟩

theorem sourcedTold (sourced : g.Sourced) : ∀ t ∈ g.types, t.text? = some t.shown := by
  intro t member
  rcases List.mem_append.1 member with inside | named
  · obtain ⟨e, known, here⟩ := List.mem_flatMap.1 inside
    exact TypeRef.legibleTold (sourced.types e known t here)
  · obtain ⟨a, known, rfl⟩ := List.mem_map.1 named
    rcases (sourced.aliases a known).2 with legible | empty
    · exact TypeRef.legibleTold legible
    · rw [empty]
      rfl

theorem sourcedDump (sourced : g.Sourced) : g.dump = .ok g.document.render := by
  rw [dump, dumpOk sourced.portable (sourcedTold sourced)]
  rfl

theorem sourcedParse (sourced : g.Sourced) : Document.parse g.document.render = .ok g.document :=
  Document.parseRendered (documentValid sourced.portable)

end Graph

namespace Program

theorem sourceSourced [CharacterNames] {d : Datum} {s : Settings} (validated : Settings.ofDatum d = .ok s) {code : String}
    {path : DottedPath} {g : Graph} (built : graphOfSource s code path.text = .ok g) : g.Sourced := by
  unfold graphOfSource at built
  obtain ⟨p, added, built⟩ := bindOk built
  have start : (ofSettings s).Regular := ⟨Settings.markersFilled validated, by simp [ofSettings], declaredNil 0 none⟩
  exact buildSourced (addRegular start added) built

/-- The graph of a module can be written as a document, whose text is read as that document. The document has a graph just
when no type is a bare qualifier, and then every check of it tells what it tells of the first graph with arrays in place of
applied names for arrays. Where no such name is applied, that is what it tells of the first graph. -/
theorem exportExact [CharacterNames] {d : Datum} {s : Settings} (validated : Settings.ofDatum d = .ok s) {code : String}
    {path : DottedPath} {g : Graph} (built : graphOfSource s code path.text = .ok g) :
    ∃ text doc, g.dump = .ok text ∧ Document.parse text = .ok doc ∧
      ((∃ g', doc.toGraph = .ok g') ↔ ∀ t ∈ g.types, t.bare = false) ∧
      ∀ g', doc.toGraph = .ok g' →
        (∀ s', (g'.check s').map CheckRun.shown = (g.arrayed.check s').map CheckRun.shown) ∧
        ((∀ t ∈ g.types, t.arrayFree = true) →
          ∀ s', (g'.check s').map CheckRun.shown = (g.check s').map CheckRun.shown) := by
  have sourced := sourceSourced validated built
  refine ⟨g.document.render, g.document, Graph.sourcedDump sourced, Graph.sourcedParse sourced,
    ⟨fun ⟨g', read⟩ => Graph.readFull sourced read, fun full => ⟨_, (Graph.readBackFull sourced full).1⟩⟩, ?_⟩
  intro g' read
  obtain ⟨back, retyping⟩ := Graph.readBackFull sourced (Graph.readFull sourced read)
  cases Except.ok.inj (read.symm.trans back)
  have same : ∀ s', (g.reread.check s').map CheckRun.shown = (g.arrayed.check s').map CheckRun.shown :=
    fun s' => Graph.checkRetyped retyping s' g.staticOwners
  refine ⟨same, fun free s' => ?_⟩
  rw [same, Graph.arrayedGraph free]

def bareAlias : String := "F = Final\n"

/-- A class with the name of an array under another name, applied in the type of a field that is followed. -/
def renamedArray : String :=
  "from main import Array as A\n\nclass Array:\n    y = 0\n\n@singleton\nclass S:\n    x: Final[A[int]] = 0\n"

def mainPath : DottedPath := { first := ⟨"main", by decide⟩ }

/-- The classes that a check visits and the symbols that it flags. -/
def seen (g : Graph) : Except CheckError (List String × List String) :=
  (g.check {}).map fun r => (r.result.visitedClasses, r.result.diagnostics.map (·.symbol))

theorem renamedArrayBuilt : ∃ g, graphOfSource {} renamedArray mainPath.text = .ok g ∧ (∀ t ∈ g.types, t.bare = false) ∧
    seen g = .ok (["main.S", "main.Array"], ["main.Array.y"]) ∧ seen g.reread = .ok (["main.S"], []) := by
  have facts : ((graphOfSource {} renamedArray mainPath.text).toOption.any fun g => g.types.all (!·.bare) &&
      seen g = .ok (["main.S", "main.Array"], ["main.Array.y"]) && seen g.reread = .ok (["main.S"], [])) = true := by
    decide +kernel
  cases built : graphOfSource {} renamedArray mainPath.text with
  | error e =>
    rw [built] at facts
    cases facts
  | ok g =>
    rw [built] at facts
    simp only [Except.toOption, Option.any_some, Bool.and_eq_true, decide_eq_true_eq, List.all_eq_true,
      Bool.not_eq_true'] at facts
    exact ⟨g, rfl, facts.1.1, facts.1.2, facts.2⟩

theorem renamedArrayExport : ∃ g, graphOfSource {} renamedArray mainPath.text = .ok g ∧
    ∃ text doc g', g.dump = .ok text ∧ Document.parse text = .ok doc ∧ doc.toGraph = .ok g' ∧
      ∀ s, (g'.check s).map CheckRun.shown = (g.arrayed.check s).map CheckRun.shown := by
  obtain ⟨g, built, full, _, _⟩ := renamedArrayBuilt
  obtain ⟨text, doc, written, parsed, readable, told⟩ := exportExact (d := .table []) (s := {}) rfl built
  obtain ⟨g', read⟩ := readable.2 full
  exact ⟨g, built, text, doc, g', written, parsed, read, (told g' read).1⟩

/-- A check of what is read back need not tell the same: an alias of a bare qualifier is refused, and a class behind an
applied name for arrays is not seen. -/
theorem exportLossy :
    (∃ g text doc, graphOfSource {} bareAlias mainPath.text = .ok g ∧ g.dump = .ok text ∧ Document.parse text = .ok doc ∧
      doc.toGraph = .error (.invalidType "Final" "alias main.F")) ∧
    ∃ g text doc g', graphOfSource {} renamedArray mainPath.text = .ok g ∧ g.dump = .ok text ∧
      Document.parse text = .ok doc ∧ doc.toGraph = .ok g' ∧
      seen g = .ok (["main.S", "main.Array"], ["main.Array.y"]) ∧ seen g' = .ok (["main.S"], []) := by
  have settings : Settings.ofDatum (.table []) = .ok {} := rfl
  constructor
  · have refused : ((graphOfSource {} bareAlias mainPath.text).toOption.any fun g =>
        g.document.toGraph = .error (.invalidType "Final" "alias main.F")) = true := by decide +kernel
    cases built : graphOfSource {} bareAlias mainPath.text with
    | error e =>
      rw [built] at refused
      cases refused
    | ok g =>
      have sourced := sourceSourced settings built
      rw [built] at refused
      exact ⟨g, _, g.document, rfl, Graph.sourcedDump sourced, Graph.sourcedParse sourced,
        by simpa [Except.toOption] using refused⟩
  · obtain ⟨g, built, full, before, after⟩ := renamedArrayBuilt
    have sourced := sourceSourced settings built
    exact ⟨g, _, g.document, g.reread, built, Graph.sourcedDump sourced, Graph.sourcedParse sourced,
      (Graph.readBackFull sourced full).1, before, after⟩

end Program
end SharedState
