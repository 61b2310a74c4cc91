import SharedState.Proofs.ModuleNames
import SharedState.Proofs.Singletons

/-! Relative imports. Each dot after the first one climbs out of a package. As long as there are packages to climb out of, the import
starts from the one that is reached. Beyond the outermost one the count of the packages that are left is negative and is taken from
the other end, so outer packages come back. -/
namespace SharedState

open SharedState.Source SharedState.Text

namespace Source

def DottedPath.words (p : DottedPath) : List String := (p.first :: p.others).map (·.text)

/- The name under which something that is imported from a module is known. -/
def ImportedName.given (n : ImportedName) : String := n.asName.getD n.name.text

/- All names that a statement makes known. -/
def Stmt.imported : Stmt → List String
  | .importNames names => names.map fun n => n.asName.getD n.name.first.text
  | .importFrom _ _ (some names) => names.map (·.given)
  | _ => []

end Source

def sourceText (source : Option DottedPath) : String := (source.map (·.text)).getD ""

def sourceWords (source : Option DottedPath) : List String := (source.map (·.words)).getD []

/- The package in which a module stands; a package stands in itself. -/
def packageWords (module : String) (isPackage : Bool) : List String :=
  if isPackage then components module else (components module).dropLast

/-! Where an import starts. -/

theorem sourceJoined (source : Option DottedPath) : sourceText source = dotted (sourceWords source) := by
  cases source <;> rfl

theorem dottedAppend (base : List String) (p : DottedPath) : dotted (base ++ [p.text]) = dotted (base ++ p.words) := by
  cases base with
  | nil => simp [dotted, DottedPath.text, DottedPath.words]
  | cons w base =>
    rw [dotted, dotted, String.intercalate_append_of_ne_nil (by simp) (by simp),
      String.intercalate_append_of_ne_nil (by simp) (by simp [DottedPath.words])]
    simp [DottedPath.text, DottedPath.words, dotted]

theorem dottedSource (base : List String) (source : Option DottedPath) :
    dotted (base ++ if (sourceText source).isEmpty then [] else [sourceText source]) = dotted (base ++ sourceWords source) := by
  cases source with
  | none => rfl
  | some p =>
    have filled : p.text.isEmpty = false := by simpa using dottedNonempty p.textDotted
    simp only [sourceText, sourceWords, Option.map_some, Option.getD_some, filled, Bool.false_eq_true, if_false]
    exact dottedAppend base p

theorem takeClimbed {α : Type} (base climbed : List α) :
    takeSigned (((base ++ climbed).length : Int) - (climbed.length : Int)) (base ++ climbed) = base := by
  have left : ((base ++ climbed).length : Int) - (climbed.length : Int) = base.length := by simp
  rw [takeSigned, left, if_pos (by omega), Int.toNat_natCast, List.take_left]

theorem takeBeyond {α : Type} {xs : List α} {steps : Nat} (beyond : xs.length < steps) :
    takeSigned ((xs.length : Int) - (steps : Int)) xs = xs.take (2 * xs.length - steps) := by
  have back : xs.length - (-((xs.length : Int) - (steps : Int))).toNat = 2 * xs.length - steps := by omega
  rw [takeSigned, if_neg (by omega), back]

section
variable {module : String} (named : "" ∉ components module) (isPackage : Bool)
include named

theorem packageFilled : "" ∉ packageWords module isPackage := by
  unfold packageWords
  split
  · exact named
  · exact fun member => named (List.dropLast_subset _ member)

theorem takenFilled (count : Int) : "" ∉ takeSigned count (packageWords module isPackage) :=
  fun member => packageFilled named isPackage (takeSignedMember member)

/- One dot alone takes the whole package, which is what climbing no step takes too. -/
theorem importSourceWords {level : Nat} (relative : 1 ≤ level) (source : Option DottedPath) :
    importSource module isPackage level (sourceText source) =
      dotted (takeSigned (((packageWords module isPackage).length : Int) - ((level : Int) - 1)) (packageWords module isPackage) ++
        sourceWords source) := by
  have taken : (if level > 1 then takeSigned (((packageWords module isPackage).length : Int) - ((level : Int) - 1))
      (packageWords module isPackage) else packageWords module isPackage) =
      takeSigned (((packageWords module isPackage).length : Int) - ((level : Int) - 1)) (packageWords module isPackage) := by
    split
    · rfl
    · have one : level = 1 := by omega
      have whole := takeClimbed (packageWords module isPackage) []
      rw [List.append_nil] at whole
      rw [one]
      exact whole.symm
  have kept (count : Int) : (takeSigned count (packageWords module isPackage)).filter (fun p => !p.isEmpty) =
      takeSigned count (packageWords module isPackage) := by
    refine List.filter_eq_self.2 fun w member => ?_
    have filled : w ≠ "" := fun empty => takenFilled named isPackage count (empty ▸ member)
    simpa using filled
  rw [importSource, if_neg (by omega)]
  change dotted (((if level > 1 then takeSigned (((packageWords module isPackage).length : Int) - ((level : Int) - 1))
    (packageWords module isPackage) else packageWords module isPackage).filter _) ++ _) = _
  rw [taken, kept]
  exact dottedSource _ source

end

/- Words in front make a name longer. -/
theorem dottedLonger {w : String} (filled : w ≠ "") (words others : List String) :
    dotted (w :: words ++ others) ≠ dotted others := by
  have some : 0 < w.toList.length := List.length_pos_iff.2 (by simpa using filled)
  have longer : (dotted others).toList.length < (dotted (w :: words ++ others)).toList.length := by
    rw [List.cons_append, dottedSpelled]
    cases others with
    | nil =>
      have none : (dotted []).toList.length = 0 := rfl
      rw [none, List.length_append]
      omega
    | cons v others =>
      rw [dottedSpelled, List.flatMap_append, List.flatMap_cons]
      simp only [List.length_append, List.length_cons]
      omega
  intro same
  rw [same] at longer
  exact Nat.lt_irrefl _ longer

theorem dottedFilled {words : List String} (filled : "" ∉ words) : dotted words = "" ↔ words = [] := by
  cases words with
  | nil => simp [dotted]
  | cons w words =>
    have longer := dottedLonger (w := w) (fun empty => filled (by simp [empty])) words []
    rw [List.append_nil] at longer
    exact iff_of_false longer (by simp)

/-! What imports bind. -/

section
variable (module : String) (isPackage : Bool)

/- A name that a statement does not import keeps its meaning. -/
theorem importKept {s : Stmt} {name : String} (other : name ∉ s.imported) (imports : List (String × String)) :
    valueOf? name (addImports module isPackage imports s) = valueOf? name imports := by
  cases s with
  | importNames names =>
    rw [addImports]
    induction names generalizing imports with
    | nil => rfl
    | cons n names ih =>
      simp only [Stmt.imported, List.map_cons, List.mem_cons, not_or] at other
      rw [List.foldl_cons, ih _ other.2]
      cases given : n.asName with
      | some key => exact (valueOfBind key name _ imports).trans (if_neg fun same => other.1 (by simp [given, same]))
      | none => exact (valueOfBind _ name _ imports).trans (if_neg fun same => other.1 (by simp [given, same]))
  | importFrom level source names =>
    cases names with
    | none => rfl
    | some names =>
      rw [addImports]
      induction names generalizing imports with
      | nil => rfl
      | cons n names ih =>
        simp only [Stmt.imported, List.map_cons, List.mem_cons, not_or] at other
        refine (ih _ other.2).trans ?_
        exact (valueOfBind _ name _ imports).trans (if_neg fun same => other.1 same.symm)
  | _ => rfl

theorem importsKept {name : String} {body : List Stmt} (others : ∀ s ∈ body, name ∉ s.imported)
    (imports : List (String × String)) :
    valueOf? name (body.foldl (addImports module isPackage) imports) = valueOf? name imports := by
  induction body generalizing imports with
  | nil => rfl
  | cons s body ih =>
    rw [List.foldl_cons, ih fun t member => others t (by simp [member])]
    exact importKept module isPackage (others s (by simp)) imports

end

/- The last import of a name gives it its meaning. -/
theorem importedLast {module : String} {isPackage : Bool} {level : Nat} {source : Option DottedPath} {origin : List String}
    (found : importSource module isPackage level (sourceText source) = dotted origin) (filled : "" ∉ origin)
    (front rest : List Stmt) (before after : List ImportedName) (n : ImportedName) (last : n.given ∉ after.map (·.given))
    (others : ∀ s ∈ rest, n.given ∉ s.imported) :
    valueOf? n.given (moduleImports module isPackage
      (front ++ .importFrom level source (some (before ++ n :: after)) :: rest)) = some (dotted (origin ++ n.name.words)) := by
  have meaning : (if (dotted origin).isEmpty then n.name.text else dotted origin ++ "." ++ n.name.text) =
      dotted (origin ++ n.name.words) := by
    rw [← dottedAppend]
    by_cases none : origin = []
    · subst none
      simp [dotted]
    · have some : (dotted origin).isEmpty = false := by simpa using mt (dottedFilled filled).1 none
      rw [some, dotted, dotted, String.intercalate_append_of_ne_nil none (by simp)]
      simp
  rw [moduleImports, List.foldl_append, List.foldl_cons, importsKept module isPackage others]
  generalize front.foldl (addImports module isPackage) [] = imports
  -- Of the statement itself only the names up to the last one of this name count.
  have rest := importKept module isPackage (s := .importFrom level source (some after)) last
    (addImports module isPackage imports (.importFrom level source (some (before ++ [n]))))
  have parts : addImports module isPackage imports (.importFrom level source (some (before ++ n :: after))) =
      addImports module isPackage (addImports module isPackage imports (.importFrom level source (some (before ++ [n]))))
        (.importFrom level source (some after)) := by
    simp [addImports]
  rw [parts, rest, addImports]
  simp only [List.foldl_append, List.foldl_cons, List.foldl_nil]
  rw [← meaning, ← found]
  exact (valueOfBind _ _ _ _).trans (if_pos rfl)

theorem takeNone {xs : List String} {count : Nat} (filled : "" ∉ xs) (others : List String) :
    dotted (xs.take count ++ others) = dotted others ↔ xs = [] ∨ count = 0 := by
  cases xs with
  | nil => simp
  | cons w xs =>
    cases count with
    | zero => simp
    | succ count =>
      refine iff_of_false ?_ (by simp)
      rw [List.take_succ_cons]
      exact dottedLonger (fun empty => filled (by simp [empty])) _ others

/- A module imports from the package that it climbs to. If it climbs out of more packages than it stands in, the source names no
package of it if and only if it climbs at least twice as far; otherwise the outermost of them come back. -/
theorem relativeImports {module : String} (named : "" ∉ components module) (isPackage : Bool) {level : Nat} (relative : 1 ≤ level)
    (source : Option DottedPath) : ∃ origin,
    importSource module isPackage level (sourceText source) = dotted origin ∧
    (∀ base climbed, packageWords module isPackage = base ++ climbed → climbed.length = level - 1 →
      origin = base ++ sourceWords source) ∧
    ((packageWords module isPackage).length < level - 1 →
      origin = (packageWords module isPackage).take (2 * (packageWords module isPackage).length - (level - 1)) ++ sourceWords source ∧
      (importSource module isPackage level (sourceText source) = sourceText source ↔
        2 * (packageWords module isPackage).length ≤ level - 1)) ∧
    ∀ (front rest : List Stmt) (before after : List ImportedName) (n : ImportedName), n.given ∉ after.map (·.given) →
      (∀ s ∈ rest, n.given ∉ s.imported) →
      valueOf? n.given (moduleImports module isPackage
        (front ++ .importFrom level source (some (before ++ n :: after)) :: rest)) = some (dotted (origin ++ n.name.words)) := by
  have found := importSourceWords named isPackage relative source
  have steps : (level : Int) - 1 = ((level - 1 : Nat) : Int) := by omega
  rw [steps] at found
  have words : "" ∉ sourceWords source := by
    cases source with
    | none => simp [sourceWords]
    | some p => exact fun member => wordNonempty (p.wordsPlain _ member).1 rfl
  refine ⟨_, found, fun base climbed split count => ?_, fun beyond => ?_, ?_⟩
  · rw [split, ← count, takeClimbed]
  · have taken := takeBeyond beyond
    refine ⟨by rw [taken], ?_⟩
    rw [found, taken, sourceJoined, takeNone (packageFilled named isPackage)]
    constructor
    · rintro (none | zero)
      · simp [none]
      · omega
    · exact fun far => .inr (by omega)
  · intro front rest before after n last others
    refine importedLast found ?_ front rest before after n last others
    exact fun member => (List.mem_append.1 member).elim (takenFilled named isPackage _) words

def wordPath (w : String) (plain : PlainWord w) : DottedPath := { first := ⟨w, plain⟩ }

/- `from ..x import y as z` in a module that stands two packages deep. -/
theorem uncleImported : "" ∉ components "a.b.c" ∧
    importSource "a.b.c" false 2 (sourceText (some (wordPath "x" (by decide)))) = "a.x" ∧
    valueOf? "z" (moduleImports "a.b.c" false [.importFrom 2 (some (wordPath "x" (by decide)))
      (some [{ name := wordPath "y" (by decide), asName := some "z" }])]) = some "a.x.y" := by
  have named : "" ∉ components "a.b.c" := by decide
  obtain ⟨origin, found, within, _, bound⟩ := relativeImports named false (show 1 ≤ 2 by decide)
    (some (wordPath "x" (by decide)))
  have climbed : origin = ["a", "x"] := within ["a"] ["b"] (by decide) rfl
  subst climbed
  exact ⟨named, found, bound [] [] [] [] { name := wordPath "y" (by decide), asName := some "z" } (by decide) (by simp)⟩

namespace Program

def climbsTooFar : List ModuleSource :=
  [{ name := "a", code := "class X:\n    items = []\n" }, { name := "a.b.c", code := "from .... import X\n\nx = X()\n" }]

/- Three steps out of two packages lead back to the outer one. So the instance is taken for one of a class of this package, although the
name that is imported stands for nothing in the program. -/
theorem outerPackageBack : (packageWords "a.b.c" false).length < 4 - 1 ∧
    importSource "a.b.c" false 4 (sourceText none) = "a" ∧ sourceText none = "" ∧
    ∃ p g, climbsTooFar.foldlM addSource (ofSettings {}) = .ok p ∧ p.build.2 = .ok g ∧
      g.staticOwners.map (·.qualifiedName) = ["a.X"] ∧ (g.check {}).map (·.result.success) = .ok false := by
  refine ⟨by decide, by decide, rfl, ?_⟩
  obtain ⟨p, g, added, built, seen⟩ := builtFrom climbsTooFar (fun _ g =>
    decide (g.staticOwners.map (·.qualifiedName) = ["a.X"]) && decide ((g.check {}).map (·.result.success) = .ok false))
    (by decide +kernel)
  simp only [Bool.and_eq_true, decide_eq_true_eq] at seen
  exact ⟨p, g, added, built, seen⟩

end Program
end SharedState
