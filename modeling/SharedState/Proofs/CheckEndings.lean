import SharedState.Command.Run
import SharedState.Proofs.Inputs
import SharedState.Proofs.ProjectSettings

/-! How the check of inputs ends. Settings and inputs that are refused are reported and make it fail; whatever is accepted is checked
to the end. It breaks off only at settings without a shape, at documents that are no text, and at literals without a value. -/
namespace SharedState.Command

open SharedState.Settings (projectContent Misshapen)

/-- What breaks off the check of inputs before it has an exit code. -/
inductive Breaks [CharacterNames] (t : FileTree) (paths : List FilePath) (given : Schema.Fields) : CommandError → Prop where
  | settings {content : ByteArray} {e : LoadError} (found : projectContent t (t.searchPath paths) = some content)
      (misshapen : Misshapen content e) : Breaks t paths given (.settings e)
  | input {s : Settings} {e : InputError} (loaded : Settings.load t (t.searchPath paths) given = .ok s)
      (stumbles : t.Stumbles s paths e) : Breaks t paths given (.input e)

/-- The courses that the check of inputs can take, with JSON output or without. -/
inductive Course [CharacterNames] (t : FileTree) (paths : List FilePath) (given : Schema.Fields) (o : Bool → Outcome) : Prop where
  | misshapen {e : LoadError} (failed : Settings.load t (t.searchPath paths) given = .error e) (broken : e.isBadValue = false)
      (ends : ∀ json, o json = .breakOff (.settings e))
  | badSettings {e : LoadError} (failed : Settings.load t (t.searchPath paths) given = .error e) (bad : e.isBadValue = true)
      (ends : ∀ json, o json = .refuse e.message)
  | stumbled {s : Settings} {e : InputError} (loaded : Settings.load t (t.searchPath paths) given = .ok s)
      (failed : t.inputGraph s paths = .error e) (broken : e.isRefusal = false) (ends : ∀ json, o json = .breakOff (.input e))
  | refused {s : Settings} {e : InputError} (loaded : Settings.load t (t.searchPath paths) given = .ok s)
      (failed : t.inputGraph s paths = .error e) (verdict : e.isRefusal = true) (ends : ∀ json, o json = .refuse e.message)
  | checked {s : Settings} {g : Graph} {run : CheckRun} (loaded : Settings.load t (t.searchPath paths) given = .ok s)
      (made : t.inputGraph s paths = .ok g) (done : g.check s = .ok run) (ends : ∀ json, o json = checkGraph s json g)

variable (t : FileTree) (paths : List FilePath) (trace : Option Bool) (severity : Option String)

section
variable {charset : CharacterNames}

theorem runCheckCourse : Course t paths (overrides trace severity) (runCheck t paths trace severity) := by
  cases loaded : Settings.load t (t.searchPath paths) (overrides trace severity) with
  | error e =>
    cases bad : e.isBadValue with
    | false => exact .misshapen loaded bad fun json => by simp [runCheck, loaded, bad]
    | true => exact .badSettings loaded bad fun json => by simp [runCheck, loaded, bad]
  | ok s =>
    cases made : t.inputGraph s paths with
    | error e =>
      cases verdict : e.isRefusal with
      | false => exact .stumbled loaded made verdict fun json => by simp [runCheck, loaded, made, verdict]
      | true => exact .refused loaded made verdict fun json => by simp [runCheck, loaded, made, verdict]
    | ok g =>
      obtain ⟨run, done⟩ := FileTree.inputChecks made s
      exact .checked loaded made done fun json => by simp [runCheck, loaded, made]

theorem checkGraphEnds {s : Settings} {g : Graph} {run : CheckRun} (done : g.check s = .ok run) (json : Bool) :
    (checkGraph s json g).ending = .ok (exitCode run.result) := by
  unfold checkGraph
  cases on : s.checkReentrant with
  | true => simp [done]
  | false =>
    have off := Graph.checkOff g on g.staticOwners
    cases Except.ok.inj (off.symm.trans done)
    rfl

theorem exitCodes (r : CheckResult) : exitCode r = 0 ∨ exitCode r = 1 := by
  unfold exitCode
  split
  · exact .inl rfl
  · exact .inr rfl

theorem breaks (json : Bool) (e : CommandError) :
    (runCheck t paths trace severity json).ending = .error e ↔ Breaks t paths (overrides trace severity) e := by
  constructor
  · intro broken
    cases runCheckCourse t paths trace severity with
    | misshapen failed bad ends =>
      rw [ends] at broken
      cases broken
      obtain ⟨content, found, misshapen⟩ := (Settings.loadShapeless _ _ _ _).1 ⟨failed, bad⟩
      exact .settings found misshapen
    | badSettings _ _ ends => rw [ends] at broken; cases broken
    | stumbled loaded failed verdict ends =>
      rw [ends] at broken
      cases broken
      exact .input loaded (FileTree.stumbles.1 ⟨failed, verdict⟩)
    | refused _ _ _ ends => rw [ends] at broken; cases broken
    | checked _ _ done ends => rw [ends, checkGraphEnds done] at broken; cases broken
  · intro cause
    cases cause with
    | settings found misshapen =>
      obtain ⟨failed, bad⟩ := (Settings.loadShapeless t _ (overrides trace severity) _).2 ⟨_, found, misshapen⟩
      simp [runCheck, failed, bad, Outcome.breakOff]
    | input loaded stumbles =>
      obtain ⟨failed, verdict⟩ := FileTree.stumbles.2 stumbles
      simp [runCheck, loaded, failed, verdict, Outcome.breakOff]

theorem endsLow {json : Bool} {code : Nat} (ended : (runCheck t paths trace severity json).ending = .ok code) :
    code = 0 ∨ code = 1 := by
  cases runCheckCourse t paths trace severity with
  | misshapen _ _ ends => rw [ends] at ended; cases ended
  | badSettings _ _ ends => rw [ends] at ended; cases ended; exact .inr rfl
  | stumbled _ _ _ ends => rw [ends] at ended; cases ended
  | refused _ _ _ ends => rw [ends] at ended; cases ended; exact .inr rfl
  | @checked _ _ run _ _ done ends =>
    rw [ends, checkGraphEnds done] at ended
    cases ended
    exact exitCodes run.result

/-- The check of inputs breaks off at what is said to break it off and nowhere else, and gives 0 or 1 otherwise. Settings and inputs
that are refused give 1 and one record of the log; a graph of inputs is checked to the end. -/
theorem checkEndings (t : FileTree) (paths : List FilePath) (trace : Option Bool) (severity : Option String) (json : Bool) :
    let o := runCheck t paths trace severity json
    let loaded := Settings.load t (t.searchPath paths) (overrides trace severity)
    (∀ e, o.ending = .error e ↔ Breaks t paths (overrides trace severity) e) ∧
    (∀ code, o.ending = .ok code → code = 0 ∨ code = 1) ∧
    (∀ e, loaded = .error e → e.isBadValue = true →
      o.effects = [.log (.error (Text.escapeMarkup e.message))] ∧ o.ending = .ok 1) ∧
    (∀ s e, loaded = .ok s → t.inputGraph s paths = .error e → e.isRefusal = true →
      o.effects = [.log (.error (Text.escapeMarkup e.message))] ∧ o.ending = .ok 1) ∧
    ∀ s g, loaded = .ok s → t.inputGraph s paths = .ok g → ∃ run, g.check s = .ok run ∧ o.ending = .ok (exitCode run.result) := by
  intro o loaded
  refine ⟨breaks t paths trace severity json, fun _ => endsLow t paths trace severity, ?_, ?_, ?_⟩
  · intro e failed bad
    simp only [loaded] at failed
    simp [o, runCheck, failed, bad, Outcome.refuse]
  · intro s e found failed verdict
    simp only [loaded] at found
    simp [o, runCheck, found, failed, verdict, Outcome.refuse]
  · intro s g found made
    simp only [loaded] at found
    obtain ⟨run, done⟩ := FileTree.inputChecks made s
    refine ⟨run, done, ?_⟩
    simp only [o, runCheck, found, made]
    exact checkGraphEnds done json

end

/- A document with a stray byte, tool settings that are no table, an annotation with a malformed escape, and a text next to bytes. -/
theorem checkBreaksOff :
    let ending (path : String) (files : List (String × ByteArray)) :=
      (runCheck { entries := files.map fun f => ([f.1], some f.2) } [.ofText path] none none false).ending
    ending "g.json" [("g.json", ⟨#[0xff]⟩)] = .error (.input (.undecodable ⟨0, [0xff], .badStart⟩)) ∧
    ending "m.py" [("m.py", "x = 1\n".toUTF8), ("pyproject.toml", "tool = 3\n".toUTF8)] = .error (.settings .toolNotTable) ∧
    ending "m.py" [("m.py", "class A:\n    x: '\\x' = 0\n".toUTF8)] = .error (.input (.source (.program (.literal .badEscape)))) ∧
    ending "m.py" [("m.py", "x = 'a' b'b'\n".toUTF8)] = .error (.input (.source (.program (.literal .mixedSorts)))) := by
  decide +kernel

end SharedState.Command
