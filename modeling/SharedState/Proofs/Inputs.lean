import SharedState.Input
import SharedState.Proofs.Annotations
import SharedState.Proofs.DocumentOrder

/-! The graph of inputs. If there is one, it can be checked. If there is none, the inputs are refused, but for bytes that are no text
and literals without a value, which break off the reading where they are met. -/
namespace SharedState

open SharedState.Source SharedState.Text

namespace Document

def classFault? [CharacterNames] (specs : List ClassSpec) (c : ClassSpec) : Option DocumentError :=
  (fault? (classSymbol specs (specs.length + 1) ((classNamed? specs c.name).getD (0, c)))).or <|
    (c.members.findSome? fun m => fault? (documentType m.type (c.name ++ "." ++ m.name))).or <|
      c.parents.findSome? fun t => fault? (documentType (some t) ("parents of " ++ c.name))

/-- What is wrong first with the classes and aliases of a document. -/
def textFault? [CharacterNames] (doc : Document) : Option DocumentError :=
  (doc.classes.findSome? (classFault? doc.classes)).or <|
    doc.aliases.findSome? fun a => fault? (documentType (some a.2) ("alias " ++ a.1))

variable {charset : CharacterNames}

theorem membersFault [CharacterNames] (c : ClassSpec) (cls : Symbol) (members : List (MemberSpec × Nat)) :
    fault? (members.mapM fun (m, i) => memberSymbol c cls i m) =
      (members.map (·.1)).findSome? fun m => fault? (documentType m.type (c.name ++ "." ++ m.name)) := by
  have each (m : MemberSpec × Nat) :
      fault? (memberSymbol c cls m.2 m.1) = fault? (documentType m.1.type (c.name ++ "." ++ m.1.name)) :=
    faultFirst fun _ _ => ⟨_, rfl⟩
  rw [faultMapM, List.findSome?_map]
  simp only [each]
  rfl

theorem entryFault (specs : List ClassSpec) (c : ClassSpec) : fault? (classEntry specs c) = classFault? specs c := by
  refine faultBind fun cls _ => ?_
  have members := membersFault c cls c.members.zipIdx
  rw [List.zipIdx_map_fst] at members
  rw [← members]
  exact faultBind fun _ _ => (faultFirst fun _ _ => ⟨_, rfl⟩).trans (faultMapM _ _)

theorem ownerError {entries : List ClassEntry} {names : List String} {e : DocumentError}
    (failed : names.mapM (ownerNamed entries) = .error e) : ∃ name, e = .unknownStaticOwner name := by
  have first := faultSome.2 failed
  rw [faultMapM] at first
  obtain ⟨name, _, unknown⟩ := List.exists_of_findSome?_eq_some first
  unfold ownerNamed at unknown
  split at unknown
  · cases unknown
  · exact ⟨name, (Option.some.inj unknown).symm⟩

theorem graphLiteral (doc : Document) (e : LiteralError) :
    doc.toGraph = .error (.literal e) ↔ doc.textFault? = some (.literal e) := by
  have classes : fault? (doc.classes.mapM (classEntry doc.classes)) = doc.classes.findSome? (classFault? doc.classes) := by
    rw [faultMapM]
    simp only [entryFault]
  have each (a : String × String) : fault? (aliasEntry a) = fault? (documentType (some a.2) ("alias " ++ a.1)) :=
    faultFirst fun _ _ => ⟨_, rfl⟩
  have aliases : fault? (doc.aliases.mapM aliasEntry) =
      doc.aliases.findSome? fun a => fault? (documentType (some a.2) ("alias " ++ a.1)) := by
    rw [faultMapM]
    simp only [each]
  unfold toGraph textFault?
  rw [← classes, ← aliases]
  cases doc.classes.mapM (classEntry doc.classes) with
  | error e' => simp [fault?, bind, Except.bind]
  | ok entries =>
    cases doc.aliases.mapM aliasEntry with
    | error e' => simp [fault?, bind, Except.bind]
    | ok table =>
      -- neither the owners nor the graph itself are texts
      simp only [fault?, bind, Except.bind, Option.or_none, reduceCtorEq, iff_false]
      cases owned : doc.staticOwners.mapM (ownerNamed entries) with
      | error e' =>
        obtain ⟨name, rfl⟩ := ownerError owned
        simp
      | ok owners =>
        simp only
        split <;> simp [pure, Except.pure]

end Document

namespace Graph

theorem toldChecks {g : Graph} {entries : List ClassEntry} {aliases : List (String × TypeRef)} (built : Built entries aliases g)
    (told : ∀ e ∈ g.entries, ∀ m ∈ e.members, ∀ t ∈ m.declaredType, t.text?.isSome) (s : Settings) :
    ∃ run, g.check s = .ok run := by
  have classes : ∀ r ∈ g.staticOwners, r.isClass = true := by
    intro r start
    obtain ⟨e, known, rfl⟩ := built.ownersKnown r start
    exact built.kinds e known
  cases on : s.checkReentrant with
  | false => exact ⟨_, checkOff g on _⟩
  | true =>
    obtain ⟨w, scanned⟩ := toldScans classes told s
    exact ⟨_, checkOn on scanned⟩

end Graph

theorem Document.graphChecks [CharacterNames] {doc : Document} {g : Graph} (done : doc.toGraph = .ok g) (s : Settings) :
    ∃ run, g.check s = .ok run := by
  have told := graphTold done
  unfold toGraph at done
  obtain ⟨entries, _, done⟩ := bindOk done
  obtain ⟨aliases, _, done⟩ := bindOk done
  obtain ⟨owners, _, done⟩ := bindOk done
  split at done
  · rename_i built
    cases Except.ok.inj done
    exact Graph.toldChecks (Graph.buildSource built) told s
  · cases done

namespace Program

variable {charset : CharacterNames}

theorem buildChecks {p : Program} {g : Graph} (done : p.build.2 = .ok g) (s : Settings) : ∃ run, g.check s = .ok run := by
  obtain ⟨bs, entries, builds⟩ := buildBuilds done
  exact Graph.toldChecks (Graph.buildSource builds.built) (buildTold done) s

def fileModule (file : FilePath × String) : String :=
  if file.2.isEmpty then (if file.1.stem == "__init__" then file.1.parent.name else file.1.stem) else file.2

def addFiles (p : Program) (t : FileTree) (files : List (FilePath × String)) : Except SourceError Program :=
  files.foldlM (fun p (path, module) => p.addFile t path (some module)) p

theorem addLiteral (p : Program) (code module : String) (path : Option String) (isPackage : Bool) (e : LiteralError) :
    p.add code module path isPackage = .error (.literal e) ↔
      e = .mixedSorts ∧ (∀ m ∈ p.modules, m.name ≠ module) ∧ parseModule code = .error .mixedSorts := by
  unfold add
  by_cases taken : p.modules.any fun m => m.name == module
  · obtain ⟨m, known, same⟩ : ∃ m ∈ p.modules, m.name = module := by simpa using taken
    rw [if_pos taken]
    constructor
    · intro impossible
      cases impossible
    · rintro ⟨_, fresh, _⟩
      exact absurd same (fresh m known)
  · have fresh : ∀ m ∈ p.modules, m.name ≠ module := by simpa using taken
    rw [if_neg taken]
    cases parseModule code with
    | ok body => simp
    | error f =>
      cases f with
      | malformed => simp
      | mixedSorts =>
        simp only [Except.error.injEq, ProgramError.literal.injEq, and_true]
        exact ⟨fun same => ⟨same.symm, fresh⟩, fun same => same.1.symm⟩

theorem addFileLiteral (p : Program) (t : FileTree) (file : FilePath × String) (e : LiteralError) :
    p.addFile t file.1 (some file.2) = .error (.program (.literal e)) ↔
      e = .mixedSorts ∧ ∃ code, t.readText file.1 = .ok code ∧ (∀ m ∈ p.modules, m.name ≠ fileModule file) ∧
        parseModule code = .error .mixedSorts := by
  unfold addFile
  cases t.readText file.1 with
  | error e' => simp
  | ok code =>
    simp only [Except.ok.injEq, exists_eq_left']
    rw [← addLiteral p code (fileModule file) (some file.1.text) (file.1.stem == "__init__")]
    unfold fileModule
    split <;> simp_all

theorem addFilesFault {p : Program} {t : FileTree} {files : List (FilePath × String)} {e : SourceError} :
    p.addFiles t files = .error e ↔ ∃ before file after q, files = before ++ file :: after ∧ p.addFiles t before = .ok q ∧
      q.addFile t file.1 (some file.2) = .error e :=
  foldlMFault

theorem pathsLiteral (t : FileTree) (s : Settings) (paths : List FilePath) (e : LiteralError) :
    graphOfPaths t s paths = .error (.program (.literal e)) ↔
      (ofSettings s).addFiles t (t.pythonFiles paths s.exclude) = .error (.program (.literal e)) ∨
      ∃ p, (ofSettings s).addFiles t (t.pythonFiles paths s.exclude) = .ok p ∧ p.annotationFault? = some e := by
  change ((ofSettings s).addFiles t (t.pythonFiles paths s.exclude) >>= _) = _ ↔ _
  cases (ofSettings s).addFiles t (t.pythonFiles paths s.exclude) with
  | error e' => simp [bind, Except.bind]
  | ok p =>
    simp only [bind, Except.bind, reduceCtorEq, false_or, Except.ok.injEq, exists_eq_left']
    rw [← buildLiteral]
    cases p.build.2 <;> simp [pure, Except.pure]

theorem pathsChecks {t : FileTree} {s : Settings} {paths : List FilePath} {g : Graph} (done : graphOfPaths t s paths = .ok g)
    (s' : Settings) : ∃ run, g.check s' = .ok run := by
  obtain ⟨p, _, done⟩ := bindOk done
  split at done
  · rename_i built
    cases Except.ok.inj done
    exact buildChecks built s'
  · cases done

end Program

namespace InputError

theorem notRefused {e : InputError} (broken : e.isRefusal = false) : (∃ f, e = .undecodable f) ∨ ∃ l, e.literal? = some l := by
  cases e with
  | undecodable f => exact .inl ⟨f, rfl⟩
  | document e => exact .inr (by simpa [isRefusal, Option.isSome_iff_exists] using broken)
  | source e => exact .inr (by simpa [isRefusal, Option.isSome_iff_exists] using broken)
  | _ => cases broken

end InputError

namespace FileTree

theorem documentUndecodable (t : FileTree) (path : FilePath) (f : DecodeFault) :
    t.document path = .error (.undecodable f) ↔ ∃ content, t.find path = .file content ∧ decoded content = .error f := by
  unfold document readText readBytes
  cases t.find path with
  | file content =>
    simp only [Found.file.injEq, exists_eq_left', bind, Except.bind]
    cases decoded content with
    | error f => simp
    | ok text =>
      simp only [pure, Except.pure]
      split <;> simp
  | _ => simp [bind, Except.bind]

theorem documentError {t : FileTree} {path : FilePath} {e : InputError} (failed : t.document path = .error e) : e.literal? = none := by
  unfold document at failed
  split at failed
  · cases failed; rfl
  · cases failed; rfl
  · split at failed
    · cases failed
    · cases failed; rfl

/-- All inputs are graph documents. -/
def AreDocuments (t : FileTree) (paths : List FilePath) : Prop := paths ≠ [] ∧ ∀ p ∈ paths, t.isDocument p = true

/-- All inputs are there, and none is a graph document. -/
def AreSources (t : FileTree) (paths : List FilePath) : Prop := ∀ p ∈ paths, t.exists? p = true ∧ t.isDocument p = false

theorem documentExists {t : FileTree} {p : FilePath} (document : t.isDocument p = true) : t.exists? p = true := by
  have file : t.isFile p = true := (Bool.and_eq_true_iff.1 document).1
  unfold isFile at file
  unfold exists?
  split at file
  · rename_i found
    rw [found]
  · cases file

theorem noneMissing {t : FileTree} {paths : List FilePath} (present : ∀ p ∈ paths, t.exists? p = true) :
    (paths.filter fun p => !t.exists? p) = [] := by
  simpa using present

variable {charset : CharacterNames}

theorem documentsGraph {t : FileTree} {paths : List FilePath} (are : t.AreDocuments paths) (s : Settings) :
    t.inputGraph s paths = paths.mapM t.document >>= fun docs => documentGraph (docs.foldl Document.merge {}) := by
  have present := noneMissing fun p listed => documentExists (are.2 p listed)
  have all : paths.filter t.isDocument = paths := List.filter_eq_self.2 are.2
  have some : paths.isEmpty = false := by simpa using are.1
  have step (merged : Document) (p : FilePath) :
      (do return merged.merge (← t.document p)) = (t.document p).map merged.merge := rfl
  have merged := foldlMLater step paths ({} : Document)
  unfold inputGraph
  simp only [present, all, some, merged, List.isEmpty_nil, Bool.not_true, Bool.false_eq_true, if_false, ne_eq, not_true_eq_false]
  cases paths.mapM t.document <;> rfl

theorem sourcesGraph {t : FileTree} {paths : List FilePath} (are : t.AreSources paths) (s : Settings) :
    t.inputGraph s paths = (Program.graphOfPaths t s paths).mapError .source := by
  have present := noneMissing fun p listed => (are p listed).1
  have none : paths.filter t.isDocument = [] := by simpa using fun p listed => (are p listed).2
  unfold inputGraph
  simp only [present, none, List.isEmpty_nil, Bool.not_true, Bool.false_eq_true, if_false, if_true]
  cases Program.graphOfPaths t s paths <;> rfl

theorem othersRefused {t : FileTree} {paths : List FilePath} (documents : ¬ t.AreDocuments paths) (sources : ¬ t.AreSources paths)
    (s : Settings) : ∃ e, t.inputGraph s paths = .error e ∧ e.isRefusal = true := by
  unfold inputGraph
  simp only
  split
  · exact ⟨_, rfl, rfl⟩
  · rename_i missing
    have present : ∀ p ∈ paths, t.exists? p = true := by simpa using missing
    split
    · rename_i none
      have others : ∀ p ∈ paths, t.isDocument p = false := by simpa using none
      exact absurd (fun p listed => ⟨present p listed, others p listed⟩) sources
    · rename_i some
      split
      · exact ⟨_, rfl, rfl⟩
      · rename_i whole
        have all := List.length_filter_eq_length_iff.1 (not_ne_iff.1 whole)
        refine absurd ⟨?_, all⟩ documents
        rintro rfl
        exact some rfl

/-- What breaks off the reading of inputs before they are accepted or refused. -/
inductive Stumbles [CharacterNames] (t : FileTree) (s : Settings) (paths : List FilePath) : InputError → Prop where
  /-- A document is no text, and those before it are documents indeed. -/
  | bytes {before after : List FilePath} {path : FilePath} {content : ByteArray} {f : DecodeFault} (are : t.AreDocuments paths)
      (split : paths = before ++ path :: after) (sound : ∀ p ∈ before, ∃ doc, t.document p = .ok doc)
      (file : t.find path = .file content) (failed : decoded content = .error f) : Stumbles t s paths (.undecodable f)
  /-- What is wrong first in all documents together is a literal in a type. -/
  | text {docs : List Document} {e : LiteralError} (are : t.AreDocuments paths) (read : paths.mapM t.document = .ok docs)
      (first : (docs.foldl Document.merge {}).textFault? = some (.literal e)) : Stumbles t s paths (.document (.literal e))
  /-- In a source a text literal and a bytes literal stand side by side, and those before it are added. -/
  | sorts {before after : List (FilePath × String)} {file : FilePath × String} {p : Program} {code : String}
      (are : t.AreSources paths) (split : t.pythonFiles paths s.exclude = before ++ file :: after)
      (added : (Program.ofSettings s).addFiles t before = .ok p) (read : t.readText file.1 = .ok code)
      (fresh : ∀ m ∈ p.modules, m.name ≠ Program.fileModule file) (mixed : parseModule code = .error .mixedSorts) :
      Stumbles t s paths (.source (.program (.literal .mixedSorts)))
  /-- All sources are added, and a literal in one of their annotations has no value. -/
  | literal {p : Program} {e : LiteralError} (are : t.AreSources paths)
      (added : (Program.ofSettings s).addFiles t (t.pythonFiles paths s.exclude) = .ok p)
      (first : p.annotationFault? = some e) : Stumbles t s paths (.source (.program (.literal e)))

variable {t : FileTree} {s : Settings} {paths : List FilePath} {e : InputError}

theorem documentsStumble (are : t.AreDocuments paths) (failed : t.inputGraph s paths = .error e) (broken : e.isRefusal = false) :
    t.Stumbles s paths e := by
  rw [documentsGraph are] at failed
  cases read : paths.mapM t.document with
  | error e' =>
    rw [read] at failed
    cases failed
    have first := faultSome.2 read
    rw [faultMapM] at first
    obtain ⟨before, path, after, split, failed, sound⟩ := List.findSome?_eq_some_iff.1 first
    have failed := faultSome.1 failed
    rcases InputError.notRefused broken with ⟨f, rfl⟩ | ⟨l, some⟩
    · obtain ⟨content, file, undecoded⟩ := (documentUndecodable t path f).1 failed
      exact .bytes are split (fun p listed => faultNone.1 (sound p listed)) file undecoded
    · rw [documentError failed] at some
      cases some
  | ok docs =>
    rw [read] at failed
    change documentGraph _ = _ at failed
    unfold documentGraph at failed
    split at failed
    · cases failed
    · rename_i f made
      cases failed
      obtain ⟨_, impossible⟩ | ⟨l, literal⟩ := InputError.notRefused broken
      · cases impossible
      · cases f with
        | literal l => exact .text are read ((Document.graphLiteral _ l).1 made)
        | _ => cases literal

theorem sourcesStumble (are : t.AreSources paths) (failed : t.inputGraph s paths = .error e) (broken : e.isRefusal = false) :
    t.Stumbles s paths e := by
  rw [sourcesGraph are] at failed
  cases made : Program.graphOfPaths t s paths with
  | ok g => rw [made] at failed; cases failed
  | error f =>
    rw [made] at failed
    cases failed
    obtain ⟨_, impossible⟩ | ⟨l, literal⟩ := InputError.notRefused broken
    · cases impossible
    · obtain rfl : f = .program (.literal l) := by
        cases f with
        | unreadable => cases literal
        | program f =>
          cases f with
          | literal l' => cases Option.some.inj literal; rfl
          | _ => cases literal
      rcases (Program.pathsLiteral t s paths l).1 made with failed | ⟨p, added, first⟩
      · obtain ⟨before, file, after, p, split, added, failed⟩ := Program.addFilesFault.1 failed
        obtain ⟨rfl, code, read, fresh, mixed⟩ := (Program.addFileLiteral p t file l).1 failed
        exact .sorts are split added read fresh mixed
      · exact .literal are added first

theorem stumbles : t.inputGraph s paths = .error e ∧ e.isRefusal = false ↔ t.Stumbles s paths e := by
  constructor
  · rintro ⟨failed, broken⟩
    by_cases documents : t.AreDocuments paths
    · exact documentsStumble documents failed broken
    · by_cases sources : t.AreSources paths
      · exact sourcesStumble sources failed broken
      · obtain ⟨f, refused, verdict⟩ := othersRefused documents sources s
        cases Except.error.inj (refused.symm.trans failed)
        rw [verdict] at broken
        cases broken
  · intro cause
    cases cause with
    | @bytes _ _ _ _ f are split sound file failed =>
      have first : fault? (paths.mapM t.document) = some (.undecodable f) := by
        rw [faultMapM, List.findSome?_eq_some_iff]
        exact ⟨_, _, _, split, faultSome.2 ((documentUndecodable t _ _).2 ⟨_, file, failed⟩),
          fun p listed => faultNone.2 (sound p listed)⟩
      rw [documentsGraph are, faultSome.1 first]
      exact ⟨rfl, rfl⟩
    | text are read first =>
      rw [documentsGraph are, read]
      change documentGraph _ = _ ∧ _
      rw [documentGraph, (Document.graphLiteral _ _).2 first]
      exact ⟨rfl, rfl⟩
    | sorts are split added read fresh mixed =>
      have failed := (Program.addFileLiteral _ t _ .mixedSorts).2 ⟨rfl, _, read, fresh, mixed⟩
      have failed := Program.addFilesFault.2 ⟨_, _, _, _, split, added, failed⟩
      rw [sourcesGraph are, (Program.pathsLiteral t s paths _).2 (.inl failed)]
      exact ⟨rfl, rfl⟩
    | literal are added first =>
      rw [sourcesGraph are, (Program.pathsLiteral t s paths _).2 (.inr ⟨_, added, first⟩)]
      exact ⟨rfl, rfl⟩

theorem inputChecks {g : Graph} (made : t.inputGraph s paths = .ok g) (s' : Settings) : ∃ run, g.check s' = .ok run := by
  by_cases documents : t.AreDocuments paths
  · rw [documentsGraph documents] at made
    obtain ⟨docs, _, made⟩ := bindOk made
    unfold documentGraph at made
    split at made
    · rename_i built
      cases Except.ok.inj made
      exact Document.graphChecks built s'
    · cases made
  · by_cases sources : t.AreSources paths
    · rw [sourcesGraph sources] at made
      cases built : Program.graphOfPaths t s paths with
      | error f => rw [built] at made; cases made
      | ok h =>
        rw [built] at made
        cases Except.ok.inj made
        exact Program.pathsChecks built s'
    · obtain ⟨f, refused, _⟩ := othersRefused documents sources s
      rw [refused] at made
      cases made

end FileTree
end SharedState
