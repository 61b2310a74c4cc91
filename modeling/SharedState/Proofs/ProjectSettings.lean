import SharedState.Settings.Load
import SharedState.Proofs.Attempts
import SharedState.Proofs.DocumentText

/-! Settings of a project file: which shapes of a file break off loading, and which value wins where several are given. -/
namespace SharedState.Settings

open SharedState

def projectContent (t : FileTree) (search : Option FilePath) : Option ByteArray :=
  let start := normalized [] (t.fromRoot (search.getD { parts := [] }))
  nearestFile t start.length start

def sectionOf (t : FileTree) (search : Option FilePath) : Except LoadError Schema.Fields := do
  let found ← match projectContent t search with
    | some content => fileSection content
    | none => .ok (.table [])
  sectionFields found

theorem sectionChecked (found : Except LoadError Datum) (given : Schema.Fields) :
    (do
      let fields ← sectionFields (← found)
      match ofFields (given.foldl (fun t f => bindKey f.1 f.2 t) fields) with
      | .ok s => return s
      | .error issues => .error (.invalid issues)) =
    (found >>= sectionFields) >>= fun fields =>
      (ofFields (given.foldl (fun t f => bindKey f.1 f.2 t) fields)).mapError .invalid := by
  cases found with
  | error e => rfl
  | ok d =>
    simp only [bind, Except.bind]
    cases sectionFields d with
    | error e => rfl
    | ok fields =>
      simp only
      cases ofFields (given.foldl (fun t f => bindKey f.1 f.2 t) fields) <;> rfl

theorem loadSection (t : FileTree) (search : Option FilePath) (given : Schema.Fields) :
    load t search given = sectionOf t search >>= fun fields =>
      (ofFields (given.foldl (fun t f => bindKey f.1 f.2 t) fields)).mapError .invalid := by
  unfold load sectionOf projectContent
  simp only
  generalize normalized [] (t.fromRoot (search.getD { parts := [] })) = start
  cases nearestFile t start.length start with
  | none => exact sectionChecked _ given
  | some content => exact sectionChecked _ given

theorem loadChecked {t : FileTree} {search : Option FilePath} {given : Schema.Fields} {s : Settings}
    (loaded : load t search given = .ok s) :
    ∃ fields, sectionOf t search = .ok fields ∧ ofFields (given.foldl (fun t f => bindKey f.1 f.2 t) fields) = .ok s := by
  rw [loadSection] at loaded
  obtain ⟨fields, found, checked⟩ := bindOk loaded
  refine ⟨fields, found, ?_⟩
  cases made : ofFields (given.foldl (fun t f => bindKey f.1 f.2 t) fields) with
  | error issues =>
    rw [made] at checked
    cases checked
  | ok s' =>
    rw [made] at checked
    cases Except.ok.inj checked
    rfl

/-! Shapes. -/

def isCompound : Datum → Bool
  | .list _ | .table _ => true
  | _ => false

def isEntry : Datum → Bool
  | .text s => s.toList.length == 2
  | .list [k, _] => !isCompound k
  | .table fields => fields.length == 2
  | _ => false

/-- Neither an entry nor one of the wrong length. -/
def isNoEntry : Datum → Bool
  | .text _ | .table _ => false
  | .list [k, _] => isCompound k
  | .list _ => false
  | _ => true

/-- A section in which no value could be looked for. -/
inductive Shapeless : Datum → Prop where
  | value {d : Datum} (plain : isCompound d = false) (other : ∀ s, d ≠ .text s) : Shapeless d
  | entry {before after : List Datum} {d : Datum} (sound : ∀ b ∈ before, isEntry b = true) (none : isNoEntry d = true) :
      Shapeless (.list (before ++ d :: after))

/-- A project file whose settings are not where they should be, or have no shape. -/
inductive Misshapen (content : ByteArray) : LoadError → Prop where
  | tool {text : String} {fields : Schema.Fields} {d : Datum} (readable : Text.decoded content = .ok text)
      (read : Toml.read text = some fields) (found : valueOf? "tool" fields = some d) (other : ∀ tools, d ≠ .table tools) :
      Misshapen content .toolNotTable
  | own {text : String} {fields tools : Schema.Fields} {d : Datum} (readable : Text.decoded content = .ok text)
      (read : Toml.read text = some fields) (found : valueOf? "tool" fields = some (.table tools))
      (listed : valueOf? toolSection tools = some d) (shapeless : Shapeless d) : Misshapen content .notPairs

def entryOf (entry : Datum × Nat) : Except LoadError (Datum × Datum) :=
  (pairOf entry.2 entry.1).bind fun pair => if isCompound pair.1 then .error .notPairs else .ok pair

def addEntry (fields : Schema.Fields) (pair : Datum × Datum) : Schema.Fields :=
  match pair.1 with
  | .text key => bindKey key pair.2 fields
  | _ => fields

theorem addPairEntry (fields : Schema.Fields) (entry : Datum × Nat) :
    addPair fields entry = (entryOf entry).map (addEntry fields) := by
  unfold addPair entryOf
  cases pairOf entry.2 entry.1 with
  | error e => rfl
  | ok pair =>
    obtain ⟨k, v⟩ := pair
    cases k <;> rfl

def entryLength : Datum → Nat
  | .text s => s.toList.length
  | .list items => items.length
  | .table fields => fields.length
  | _ => 0

theorem entryFault (entry : Datum × Nat) :
    fault? (entryOf entry) =
      if isEntry entry.1 then none
      else if isNoEntry entry.1 then some .notPairs
      else some (.badPair entry.2 (entryLength entry.1)) := by
  obtain ⟨d, i⟩ := entry
  cases d with
  | text s =>
    rcases chars : s.toList with _ | ⟨a, _ | ⟨b, _ | ⟨c, rest⟩⟩⟩ <;>
      simp [isEntry, isNoEntry, entryLength, entryOf, pairOf, chars, fault?, isCompound, Except.bind]
  | list items =>
    rcases items with _ | ⟨k, _ | ⟨v, _ | ⟨x, rest⟩⟩⟩
    · rfl
    · rfl
    · cases k <;> rfl
    · rfl
  | table fields =>
    rcases fields with _ | ⟨k, _ | ⟨v, _ | ⟨x, rest⟩⟩⟩
    · rfl
    · rfl
    · rfl
    · simp [isEntry, isNoEntry, entryLength, entryOf, pairOf, fault?, Except.bind]
  | _ => rfl

theorem entryDone (entry : Datum × Nat) : fault? (entryOf entry) = none ↔ isEntry entry.1 = true := by
  rw [entryFault]
  split
  · simp [*]
  · split <;> simp [*]

theorem entryApart {d : Datum} (sound : isEntry d = true) : isNoEntry d = false := by
  unfold isEntry at sound
  split at sound
  · rfl
  · simpa [isNoEntry] using sound
  · rfl
  · cases sound

theorem entryShapeless (entry : Datum × Nat) : fault? (entryOf entry) = some .notPairs ↔ isNoEntry entry.1 = true := by
  rw [entryFault]
  split
  · rename_i sound
    simp [entryApart sound]
  · split <;> simp [*]

theorem listFault (items : List Datum) (e : LoadError) :
    sectionFields (.list items) = .error e ↔ ∃ before entry after, items.zipIdx = before ++ entry :: after ∧
      fault? (entryOf entry) = some e ∧ ∀ b ∈ before, fault? (entryOf b) = none := by
  rw [← List.findSome?_eq_some_iff, ← faultMapM, ← faultMap (fun pairs => pairs.foldl addEntry []),
    ← foldlMLater addPairEntry, faultSome]
  rfl

theorem sectionShapeless (d : Datum) (e : LoadError) :
    sectionFields d = .error e ∧ e.isBadValue = false ↔ e = .notPairs ∧ Shapeless d := by
  cases d with
  | table fields =>
    constructor
    · rintro ⟨failed, _⟩
      cases failed
    · rintro ⟨_, shapeless⟩
      cases shapeless with
      | value plain => cases plain
  | text s =>
    constructor
    · rintro ⟨failed, broken⟩
      simp only [sectionFields] at failed
      split at failed
      · cases failed
      · cases failed
        cases broken
    · rintro ⟨_, shapeless⟩
      cases shapeless with
      | value _ other => exact absurd rfl (other s)
  | list items =>
    rw [listFault]
    constructor
    · rintro ⟨⟨before, entry, after, split, failed, sound⟩, broken⟩
      obtain rfl : e = .notPairs := by
        rw [entryFault] at failed
        grind [LoadError.isBadValue]
      have whole := congrArg (List.map (·.1)) split
      rw [List.zipIdx_map_fst, List.map_append, List.map_cons] at whole
      rw [whole]
      refine ⟨rfl, .entry ?_ ((entryShapeless entry).1 failed)⟩
      intro b inside
      obtain ⟨x, listed, rfl⟩ := List.mem_map.1 inside
      exact (entryDone x).1 (sound x listed)
    · rintro ⟨rfl, shapeless⟩
      cases shapeless with
      | value plain => cases plain
      | @entry before after d sound none =>
        rw [List.zipIdx_append, List.zipIdx_cons]
        refine ⟨⟨_, _, _, rfl, (entryShapeless _).2 none, fun b inside => ?_⟩, rfl⟩
        exact (entryDone b).2 (sound b.1 (List.fst_mem_of_mem_zipIdx inside))
  | _ =>
    constructor
    · rintro ⟨failed, _⟩
      cases failed
      exact ⟨rfl, .value rfl (by simp)⟩
    · rintro ⟨rfl, _⟩
      exact ⟨rfl, rfl⟩

theorem fileShapeless (content : ByteArray) (e : LoadError) :
    (fileSection content >>= sectionFields) = .error e ∧ e.isBadValue = false ↔ Misshapen content e := by
  constructor
  · rintro ⟨failed, broken⟩
    unfold fileSection at failed
    split at failed
    · cases failed
      cases broken
    · rename_i text decoded
      split at failed
      · cases failed
      · rename_i fields read
        split at failed
        · cases failed
        · rename_i tools found
          cases listed : valueOf? toolSection tools with
          | none => rw [listed] at failed; cases failed
          | some d =>
            rw [listed] at failed
            obtain ⟨rfl, shapeless⟩ := (sectionShapeless d e).1 ⟨failed, broken⟩
            exact .own decoded read found listed shapeless
        · rename_i other found
          cases failed
          exact .tool decoded read found other
  · intro misshapen
    cases misshapen with
    | @tool _ _ d decoded read found other =>
      unfold fileSection
      simp only [decoded, read, found]
      cases d with
      | table tools => exact absurd rfl (other tools)
      | _ => exact ⟨rfl, rfl⟩
    | own decoded read found listed shapeless =>
      unfold fileSection
      simp only [decoded, read, found, listed]
      exact (sectionShapeless _ _).2 ⟨rfl, shapeless⟩

theorem loadShapeless (t : FileTree) (search : Option FilePath) (given : Schema.Fields) (e : LoadError) :
    load t search given = .error e ∧ e.isBadValue = false ↔
      ∃ content, projectContent t search = some content ∧ Misshapen content e := by
  have reasons : load t search given = .error e ∧ e.isBadValue = false ↔
      sectionOf t search = .error e ∧ e.isBadValue = false := by
    rw [loadSection]
    cases sectionOf t search with
    | error f => simp [bind, Except.bind]
    | ok fields =>
      simp only [bind, Except.bind]
      cases ofFields (given.foldl (fun t f => bindKey f.1 f.2 t) fields) with
      | ok s => simp [Except.mapError]
      | error issues =>
        simp only [Except.mapError, reduceCtorEq, false_and, iff_false, not_and]
        rintro ⟨⟩ ⟨⟩
  rw [reasons, sectionOf]
  cases projectContent t search with
  | none => simp [bind, Except.bind, sectionFields]
  | some content => simpa using fileShapeless content e

/-! Values. -/

/-- The severity of findings: the one that is given first, else that of the section, else error. -/
def effectiveSeverity? (given : Option String) (fields : Schema.Fields) : Option Severity :=
  match given with
  | some v => Severity.ofTag? v
  | none =>
    match valueOf? "severity" fields with
    | some (.text v) => Severity.ofTag? v
    | some _ => none
    | none => some .error

theorem severityChecked {fields : Schema.Fields} {s : Settings} (done : ofFields fields = .ok s) :
    effectiveSeverity? none fields = some s.severity := by
  simp only [ofFields, Checked.andThenOk, Checked.andOk] at done
  obtain ⟨parts, ⟨_, _, _, _, _, severity, _⟩, distinct⟩ := done
  unfold distinctMarkers at distinct
  split at distinct
  · simp at distinct
  · cases Except.ok.inj distinct
    unfold Schema.field at severity
    unfold effectiveSeverity?
    cases found : valueOf? "severity" fields with
    | none =>
      rw [found] at severity
      exact congrArg some (Except.ok.inj severity)
    | some d =>
      rw [found] at severity
      simp only [Checked.underOk] at severity
      cases d with
      | text v =>
        simp only [Schema.oneOf] at severity
        split at severity
        · rename_i tagged
          rw [← Except.ok.inj severity]
          exact tagged
        · simp at severity
      | _ => simp [Schema.oneOf] at severity

end SharedState.Settings
