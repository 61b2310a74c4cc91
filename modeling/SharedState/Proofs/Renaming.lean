import SharedState.Proofs.AnnotationMeaning

/-! Annotations with their names replaced. To read an annotation where names denote others is to read it with these others written
in place of the names, but for one thing: whether a subscript makes an array is told by the name as it is written. -/
namespace SharedState

open SharedState.Source SharedState.Text

/-! Names as expressions. -/

namespace Source.Expr

def memberOf (e : Expr) (w : String) : Expr := if plain : PlainWord w then .access e ⟨w, plain⟩ nowhere else .other

def spelled (n : String) : Expr :=
  match components n with
  | [] => .other
  | w :: words => words.foldl memberOf (word w)

variable {charset : CharacterNames}

theorem wordNames {w : String} (opening : OpeningWord w) : Names (word w) w := by
  have filled := wordNonempty opening.1
  unfold word
  split
  · rename_i c found
    unfold Constant.ofText? at found
    have same : c.text = w := by simpa using List.find?_some found
    subst same
    exact ⟨rfl, filled, fun r reread => rfl⟩
  · rename_i missing
    have other : w ∉ constantWords := by
      intro constant
      have known : w = "None" ∨ w = "True" ∨ w = "False" := by simpa [constantWords] using constant
      rcases known with rfl | rfl | rfl <;> cases missing
    rw [dif_pos ⟨opening.1, opening.2.resolve_right other⟩]
    exact ⟨rfl, filled, fun r reread => rfl⟩

theorem memberNames {e : Expr} {n w : String} (names : Names e n) (plain : PlainWord w) : Names (memberOf e w) (n ++ "." ++ w) := by
  obtain ⟨full, filled, _⟩ := names
  have named : (Expr.access e ⟨w, plain⟩ nowhere).fullName = n ++ "." ++ w := by
    have front : n.isEmpty = false := by simpa using filled
    simp [fullName, full, front]
  rw [memberOf, dif_pos plain]
  refine ⟨named, ?_, fun r reread => ?_⟩
  · intro empty
    have nothing := congrArg String.toList empty
    simp at nothing
  · rw [TypeReader.ofExpr, named]

theorem membersNames {words : List String} (plain : ∀ w ∈ words, PlainWord w) {e : Expr} {n : String} (names : Names e n) :
    Names (words.foldl memberOf e) (dotted (n :: words)) := by
  induction words generalizing e n with
  | nil => simpa [dotted] using names
  | cons w words ih =>
    have same : dotted (n :: w :: words) = dotted ((n ++ "." ++ w) :: words) := by
      rw [← String.toList_inj, dottedSpelled, dottedSpelled]
      simp
    rw [same]
    exact ih (fun v later => plain v (List.mem_cons_of_mem _ later)) (memberNames names (plain w List.mem_cons_self))

theorem spelledNames [CharacterNames] {n : String} (name : DottedName n) : Names (spelled n) n := by
  obtain ⟨first, others, parts, opening, plain⟩ := componentsDotted name
  have whole := dottedComponents n
  rw [parts] at whole
  rw [spelled, parts]
  exact whole ▸ membersNames plain (wordNames opening)

/-! Replacing names. -/

/-- Replaces a name by what it denotes, and leaves what is no name. -/
def replaced (denotes : String → String) (e : Expr) : Expr := if e.fullName.isEmpty then e else spelled (denotes e.fullName)

mutual
/-- Replaces every name in the place of a type, so none in metadata. -/
def renamed (denotes : String → String) : Expr → Expr
  | .name id start => replaced denotes (.name id start)
  | .constant c => replaced denotes (.constant c)
  | .access value attr start => replaced denotes (.access value attr start)
  | .binary op left right => .binary op (renamed denotes left) (renamed denotes right)
  | .subscript base args => .subscript (replaced denotes base) (renamedUnder denotes (typingForm (denotes base.fullName)) args)
  | e => e
def renamedUnder (denotes : String → String) (form : String) : List Expr → List Expr
  | [] => []
  | e :: rest => renamed denotes e :: if form = "Annotated" then rest else renamedAll denotes rest
def renamedAll (denotes : String → String) : List Expr → List Expr
  | [] => []
  | e :: rest => renamed denotes e :: renamedAll denotes rest
end

theorem renamedPlain (denotes : String → String) {form : String} (plain : form ≠ "Annotated") (args : List Expr) :
    renamedUnder denotes form args = renamedAll denotes args := by
  cases args with
  | nil => rfl
  | cons e rest => rw [renamedUnder, renamedAll, if_neg plain]

theorem renamedHead (denotes : String → String) (form : String) (args : List Expr) :
    (renamedUnder denotes form args).head? = args.head?.map (renamed denotes) := by
  cases args <;> rfl

def isLiteral : Expr → Bool
  | .literal _ => true
  | _ => false

end Source.Expr

namespace TypeReader

open Source.Expr

mutual
/-- The expressions inside one that stand in the place of a type, with itself. -/
def typeParts (r : TypeReader) : Expr → List Expr
  | .binary op left right => .binary op left right :: (typeParts r left ++ typeParts r right)
  | .subscript base args => .subscript base args ::
      if r.formOf base.fullName ∈ wrappers then typePartsFirst r args else typePartsAll r args
  | e => [e]
def typePartsFirst (r : TypeReader) : List Expr → List Expr
  | [] => []
  | e :: _ => typeParts r e
def typePartsAll (r : TypeReader) : List Expr → List Expr
  | [] => []
  | e :: rest => typeParts r e ++ typePartsAll r rest
end

/-- The base of an application is a name of arrays both as it is written and as it is meant, or neither. -/
def arrayAgrees (r : TypeReader) : Expr → Bool
  | .subscript base _ => decide (r.formOf base.fullName ∈ constructs) ||
      arrayNames.contains (leaf (r.resolve base.fullName)) == arrayNames.contains (leaf base.fullName)
  | _ => true

/-- A reader that replaces dotted names by dotted names. -/
structure Renames (r : TypeReader) : Prop where
  dotted : ∀ n, DottedName n → DottedName (r.resolve n)
  blank : r.resolve "" = ""

/-- The reader for which names denote themselves. -/
def plainly (r : TypeReader) : TypeReader := { markers := r.markers }

/-- Two annotations with the same qualifiers, and with the same type if the given expressions agree about arrays. -/
structure Alike (r : TypeReader) (parts : List Expr) (q p : QualifiedType) : Prop where
  final : p.final = q.final
  classVar : p.classVar = q.classVar
  markers : p.markers = q.markers
  type : (∀ s ∈ parts, r.arrayAgrees s = true) → p.type = q.type

theorem alikeSame (r : TypeReader) (parts : List Expr) (q : QualifiedType) : Alike r parts q q := ⟨rfl, rfl, rfl, fun _ => rfl⟩

theorem alikeBoth {r : TypeReader} {firsts seconds parts : List Expr} {a b c d : QualifiedType} (first : Alike r firsts a c)
    (second : Alike r seconds b d) (inside : seconds ⊆ parts) : Alike r parts (a.withQualifiersOf b) (c.withQualifiersOf d) where
  final := by simp [QualifiedType.withQualifiersOf, first.final, second.final]
  classVar := by simp [QualifiedType.withQualifiersOf, first.classVar, second.classVar]
  markers := by simp [QualifiedType.withQualifiersOf, first.markers, second.markers]
  type agrees := second.type fun s part => agrees s (inside part)

section

variable {r : TypeReader} (renames : r.Renames) (reread again : String → Reading QualifiedType)

include renames

theorem replacedName (e : Expr) : (replaced r.resolve e).fullName = r.resolve e.fullName := by
  unfold replaced
  split
  · rename_i empty
    rw [String.isEmpty_iff.1 empty, renames.blank]
  · rename_i filled
    have name : DottedName e.fullName := fullNameDotted e fun empty => filled (by simp [empty])
    exact (spelledNames (renames.dotted _ name)).1

theorem replacedForm (e : Expr) : r.plainly.formOf (replaced r.resolve e).fullName = r.formOf e.fullName := by
  rw [replacedName renames]
  rfl

theorem resolvedEmpty (e : Expr) : (r.resolve e.fullName).isEmpty = e.fullName.isEmpty := by
  rcases nameOrNone e with empty | name
  · rw [empty, renames.blank]
  · have written : e.fullName.isEmpty = false := by simpa using dottedNonempty name
    have meant : (r.resolve e.fullName).isEmpty = false := by simpa using dottedNonempty (renames.dotted _ name)
    rw [written, meant]

theorem ofNameRenamed (e : Expr) : r.plainly.ofName (r.resolve e.fullName) = r.ofName e.fullName := by
  unfold ofName
  rw [resolvedEmpty renames e]
  rfl

variable {charset : CharacterNames}

omit renames in
theorem wrapperRead (s : TypeReader) {base : Expr} {args : List Expr} {q : QualifiedType}
    (wraps : s.wrapper? (s.formOf base.fullName) args.tail = some q) :
    ofExpr s reread (.subscript base args) = (ofFirst s reread args).map q.withQualifiersOf := by
  rw [ofExpr, wraps]
  cases ofFirst s reread args <;> rfl

omit renames in
theorem applicationRead (s : TypeReader) {base : Expr} {args : List Expr}
    (outer : s.wrapper? (s.formOf base.fullName) args.tail = none) :
    ofExpr s reread (.subscript base args) = (ofExprs s reread args).map fun done =>
      { done.2 with type := s.application base.fullName (s.formOf base.fullName) done.1 } := by
  rw [ofExpr, outer]
  cases ofExprs s reread args <;> rfl

theorem nameRenamed {e : Expr} (read : ∀ s : TypeReader, ∀ reread, ofExpr s reread e = .ok (s.ofName e.fullName)) :
    ofExpr r.plainly again (replaced r.resolve e) = .ok (r.ofName e.fullName) := by
  rw [← ofNameRenamed renames]
  unfold replaced
  split
  · rename_i empty
    rw [read, String.isEmpty_iff.1 empty, renames.blank]
  · rename_i filled
    have name : DottedName e.fullName := fullNameDotted e fun empty => filled (by simp [empty])
    exact (spelledNames (renames.dotted _ name)).2.2 _ _

omit renames in
theorem wrapperRenamed (form : String) (args : List Expr) :
    r.plainly.wrapper? form (renamedUnder r.resolve form args).tail = r.wrapper? form args.tail := by
  by_cases annotated : form = "Annotated"
  · cases args with
    | nil => rfl
    | cons e rest =>
      rw [renamedUnder, if_pos annotated]
      rfl
  · simp only [wrapper?, annotated, if_false]

omit renames in
theorem subscriptRenamed (base : Expr) (args : List Expr) : renamed r.resolve (.subscript base args) =
    .subscript (replaced r.resolve base) (renamedUnder r.resolve (r.formOf base.fullName) args) := rfl

theorem wrapsAgain (base : Expr) (args : List Expr) :
    r.plainly.wrapper? (r.plainly.formOf (replaced r.resolve base).fullName)
      (renamedUnder r.resolve (r.formOf base.fullName) args).tail = r.wrapper? (r.formOf base.fullName) args.tail := by
  rw [replacedForm renames, wrapperRenamed]

theorem applicationAgain {base : Expr} {args : List Expr} (plain : r.formOf base.fullName ∉ wrappers) :
    ofExpr r.plainly again (renamed r.resolve (.subscript base args)) =
      (ofExprs r.plainly again (renamedAll r.resolve args)).map fun done =>
        { done.2 with type := r.plainly.application (r.resolve base.fullName) (r.formOf base.fullName) done.1 } := by
  have other : r.formOf base.fullName ≠ "Annotated" := fun annotated => plain (by rw [annotated]; decide)
  have outer := wrapsAgain renames base args
  rw [(wrapperForm r _ _).2 plain] at outer
  rw [subscriptRenamed, applicationRead _ _ outer, renamedPlain _ other, replacedForm renames, replacedName renames]

/- An application comes out the same exactly if the two names of its base agree about arrays. -/
theorem applicationRenamed (base : Expr) (args : List Expr) (parts : List TypeRef) (plain : r.formOf base.fullName ∉ wrappers) :
    r.plainly.application (r.resolve base.fullName) (r.formOf base.fullName) parts =
      r.application base.fullName (r.formOf base.fullName) parts ↔ r.arrayAgrees (.subscript base args) = true := by
  have agrees : r.arrayAgrees (.subscript base args) = (decide (r.formOf base.fullName ∈ constructs) ||
      arrayNames.contains (leaf (r.resolve base.fullName)) == arrayNames.contains (leaf base.fullName)) := rfl
  rw [agrees]
  unfold application
  by_cases isOptional : r.formOf base.fullName = "Optional"
  · simp [isOptional, constructs]
  by_cases isUnion : r.formOf base.fullName = "Union"
  · simp [isUnion, constructs]
  have free : r.formOf base.fullName ∉ constructs := by
    intro construct
    simp only [constructs, wrappers, List.mem_append, List.mem_cons, List.not_mem_nil, or_false, isOptional, isUnion]
      at construct plain
    exact plain construct
  rw [resolvedEmpty renames base, if_neg isOptional, if_neg isUnion, if_neg isOptional, if_neg isUnion, decide_eq_false free,
    Bool.false_or, beq_iff_eq]
  rcases nameOrNone base with empty | name
  · rw [empty, renames.blank]
    simp
  · have written : base.fullName.isEmpty = false := by simpa using dottedNonempty name
    rw [written]
    cases arrayNames.contains (leaf (r.resolve base.fullName)) with
    | true => cases arrayNames.contains (leaf base.fullName) <;> simp [TypeRef.array, TypeRef.applied]
    | false => cases arrayNames.contains (leaf base.fullName) <;> simp [TypeRef.array, TypeRef.applied, plainly]

end

section
variable {charset : CharacterNames}

mutual
theorem ofExprRenamed {r : TypeReader} (renames : r.Renames) (reread again : String → Reading QualifiedType) : (e : Expr) →
    (∀ s ∈ r.typeParts e, s.isLiteral = false) →
    ∃ q p, ofExpr r reread e = .ok q ∧ ofExpr r.plainly again (e.renamed r.resolve) = .ok p ∧ Alike r (r.typeParts e) q p
  | .name id start, _ => ⟨_, _, rfl, nameRenamed renames again fun _ _ => rfl, alikeSame _ _ _⟩
  | .constant c, _ => ⟨_, _, rfl, nameRenamed renames again fun _ _ => rfl, alikeSame _ _ _⟩
  | .access value attr start, _ => ⟨_, _, rfl, nameRenamed renames again fun _ _ => rfl, alikeSame _ _ _⟩
  | .literal pieces, unquoted => by cases unquoted _ (List.mem_singleton_self _)
  | .binary op left right, unquoted => by
    simp only [typeParts, List.forall_mem_cons, List.forall_mem_append] at unquoted
    obtain ⟨a, c, first, firstAgain, alikeLeft⟩ := ofExprRenamed renames reread again left unquoted.2.1
    obtain ⟨b, d, second, secondAgain, alikeRight⟩ := ofExprRenamed renames reread again right unquoted.2.2
    have both := alikeBoth alikeLeft alikeRight (List.Subset.refl _)
    refine ⟨{ a.withQualifiersOf b with type := operation op (a.type.toList ++ b.type.toList) },
      { c.withQualifiersOf d with type := operation op (c.type.toList ++ d.type.toList) },
      by rw [ofExpr, first, second]; rfl, by rw [renamed, ofExpr, firstAgain, secondAgain]; rfl,
      both.final, both.classVar, both.markers, ?_⟩
    intro agrees
    simp only [typeParts, List.forall_mem_cons, List.forall_mem_append] at agrees
    rw [alikeLeft.type agrees.2.1, alikeRight.type agrees.2.2]
  | .subscript base args, unquoted => by
    rw [typeParts, List.forall_mem_cons] at unquoted
    have inside := unquoted.2
    -- both readers see the same construct around the arguments, with the same metadata
    cases wraps : r.wrapper? (r.formOf base.fullName) args.tail with
    | some q =>
      have form : r.formOf base.fullName ∈ wrappers := by
        by_contra plain
        rw [(wrapperForm r _ _).2 plain] at wraps
        cases wraps
      rw [if_pos form] at inside
      obtain ⟨a, c, first, firstAgain, alike⟩ := ofFirstRenamed renames reread again args inside _ (renamedHead _ _ args)
      have wrapsBoth := (wrapsAgain renames base args).trans wraps
      refine ⟨_, _, by rw [wrapperRead _ r wraps, first]; rfl,
        by rw [subscriptRenamed, wrapperRead _ _ wrapsBoth, firstAgain]; rfl, ?_⟩
      exact alikeBoth (alikeSame r [] q) alike (by rw [typeParts, if_pos form]; exact List.subset_cons_self _ _)
    | none =>
      have plain := (wrapperForm r _ _).1 wraps
      rw [if_neg plain] at inside
      obtain ⟨ts, a, us, c, first, firstAgain, alike, same⟩ := ofExprsRenamed renames reread again args inside
      refine ⟨{ a with type := r.application base.fullName (r.formOf base.fullName) ts },
        { c with type := r.plainly.application (r.resolve base.fullName) (r.formOf base.fullName) us },
        by rw [applicationRead _ r wraps, first]; rfl, by rw [applicationAgain renames again plain, firstAgain]; rfl,
        alike.final, alike.classVar, alike.markers, ?_⟩
      intro agrees
      rw [typeParts, if_neg plain, List.forall_mem_cons] at agrees
      dsimp only
      rw [same agrees.2, (applicationRenamed renames base args ts plain).2 agrees.1]
  | .call _ _, _ | .tuple _, _ | .list _, _ | .container _, _ | .starred _, _ | .other, _ => ⟨_, _, rfl, rfl, alikeSame _ _ _⟩
theorem ofFirstRenamed {r : TypeReader} (renames : r.Renames) (reread again : String → Reading QualifiedType) :
    (es : List Expr) → (∀ s ∈ r.typePartsFirst es, s.isLiteral = false) → ∀ others,
    others.head? = es.head?.map (Expr.renamed r.resolve) →
    ∃ q p, ofFirst r reread es = .ok q ∧ ofFirst r.plainly again others = .ok p ∧ Alike r (r.typePartsFirst es) q p
  | [], _, others, same => by
    rw [List.head?_eq_none_iff.1 same]
    exact ⟨_, _, rfl, rfl, alikeSame _ _ _⟩
  | e :: rest, unquoted, others, same => by
    obtain ⟨tail, rfl⟩ := List.head?_eq_some_iff.1 same
    exact ofExprRenamed renames reread again e unquoted
theorem ofExprsRenamed {r : TypeReader} (renames : r.Renames) (reread again : String → Reading QualifiedType) :
    (es : List Expr) → (∀ s ∈ r.typePartsAll es, s.isLiteral = false) →
    ∃ ts q us p, ofExprs r reread es = .ok (ts, q) ∧ ofExprs r.plainly again (renamedAll r.resolve es) = .ok (us, p) ∧
      Alike r (r.typePartsAll es) q p ∧ ((∀ s ∈ r.typePartsAll es, r.arrayAgrees s = true) → us = ts)
  | [], _ => ⟨_, _, _, _, rfl, rfl, alikeSame _ _ _, fun _ => rfl⟩
  | e :: rest, unquoted => by
    simp only [typePartsAll, List.forall_mem_append] at unquoted
    obtain ⟨a, c, first, firstAgain, alikeHead⟩ := ofExprRenamed renames reread again e unquoted.1
    obtain ⟨ts, b, us, d, second, secondAgain, alikeTail, same⟩ := ofExprsRenamed renames reread again rest unquoted.2
    refine ⟨_, _, _, _, by rw [ofExprs, first, second]; rfl, by rw [renamedAll, ofExprs, firstAgain, secondAgain]; rfl,
      alikeBoth alikeHead alikeTail (List.subset_append_right _ _), ?_⟩
    intro agrees
    simp only [typePartsAll, List.forall_mem_append] at agrees
    rw [alikeHead.type agrees.1, same agrees.2]
end

theorem typePartsEach (r : TypeReader) (es : List Expr) : r.typePartsAll es = es.flatMap r.typeParts := by
  induction es with
  | nil => rfl
  | cons e rest ih => rw [typePartsAll, ih, List.flatMap_cons]

/- The qualifiers are always the same, and the type is if every application inside has a base that agrees about arrays. One whose
arguments do has the same type exactly if its own base agrees. -/
theorem renamingCommutes {r : TypeReader} (renames : r.Renames) (e : Expr) (unquoted : ∀ s ∈ r.typeParts e, s.isLiteral = false) :
    ∃ q p, r.convert e = .ok q ∧ r.plainly.convert (e.renamed r.resolve) = .ok p ∧
      p.final = q.final ∧ p.classVar = q.classVar ∧ p.markers = q.markers ∧
      ((∀ s ∈ r.typeParts e, r.arrayAgrees s = true) → p.type = q.type) ∧
      ∀ base args, e = .subscript base args → r.formOf base.fullName ∉ wrappers →
        (∀ a ∈ args, ∀ s ∈ r.typeParts a, r.arrayAgrees s = true) → (p.type = q.type ↔ r.arrayAgrees e = true) := by
  obtain ⟨q, p, read, readAgain, alike⟩ := ofExprRenamed renames r.ofText r.plainly.ofText e unquoted
  refine ⟨q, p, read, readAgain, alike.final, alike.classVar, alike.markers, alike.type, ?_⟩
  intro base args shape plain agrees
  subst shape
  rw [typeParts, if_neg plain, List.forall_mem_cons] at unquoted
  obtain ⟨ts, a, us, c, first, firstAgain, _, same⟩ := ofExprsRenamed renames r.ofText r.plainly.ofText args unquoted.2
  rw [applicationRead _ r ((wrapperForm r _ _).2 plain), first] at read
  rw [applicationAgain renames _ plain, firstAgain] at readAgain
  cases Except.ok.inj read
  cases Except.ok.inj readAgain
  have equal : us = ts := same fun s part => by
    rw [typePartsEach] at part
    obtain ⟨a, here, inside⟩ := List.mem_flatMap.1 part
    exact agrees a here s inside
  dsimp only
  rw [equal, applicationRenamed renames base args ts plain]

end

/-! Names given to names. -/

theorem dottedIf {n : String} (spells : (spelled n).fullName = n ∧ n ≠ "") : DottedName n := by
  have name := fullNameDotted (spelled n) (by rw [spells.1]; exact spells.2)
  rwa [spells.1] at name

def denoting (names : List (String × String)) (n : String) : String := (names.lookup n).getD n

theorem denotingRenames {names : List (String × String)} (keyed : names.lookup "" = none)
    (spells : ∀ x ∈ names, (spelled x.2).fullName = x.2 ∧ x.2 ≠ "") (markers : List String) :
    Renames { resolve := denoting names, markers } where
  dotted n name := by
    show DottedName ((names.lookup n).getD n)
    cases found : names.lookup n with
    | none => exact name
    | some m =>
      obtain ⟨before, after, shape, _⟩ := List.lookup_eq_some_iff.1 found
      exact dottedIf (spells (n, m) (by rw [shape]; simp))
  blank := by
    show (names.lookup "").getD "" = ""
    rw [keyed]
    rfl

theorem parsedWith {text : String} {holds : Expr → Bool} (seen : (parseExpression text).toOption.any holds = true) :
    ∃ e, parseExpression text = .ok e ∧ holds e = true := by
  cases parsed : parseExpression text with
  | error _ => rw [parsed] at seen; cases seen
  | ok e =>
    rw [parsed] at seen
    exact ⟨e, rfl, seen⟩

/- Constructs and classes under other names, metadata that names a class, and an array that is called so in both ways. -/
def importedNames : TypeReader :=
  { resolve := denoting [("Fixed", "typing.Final"), ("tp.Annotated", "typing.Annotated"), ("A", "app.A"), ("Array", "lib.array"),
      ("Optional", "app.Optional")]
    markers := ["A"] }

def importedText : String := "Fixed[tp.Annotated[A, A, 'A'] | Optional[Array[None]]]"

def importedType : TypeRef := .union [.named "app.A", .applied "app.Optional" [.array (.named "None")]]

theorem importedNamesCommute : ∃ e, parseExpression importedText = .ok e ∧
    importedNames.convert e = .ok { type := some importedType, final := true, markers := ["A"] } ∧
    importedNames.plainly.convert (e.renamed importedNames.resolve) =
      .ok { type := some importedType, final := true, markers := ["A"] } := by
  have renames : importedNames.Renames := denotingRenames (by decide) (by decide +kernel) _
  obtain ⟨e, parsed, seen⟩ : ∃ e, parseExpression importedText = .ok e ∧
      ((importedNames.typeParts e).all (fun s => !s.isLiteral && importedNames.arrayAgrees s) &&
        decide (importedNames.convert e = .ok { type := some importedType, final := true, markers := ["A"] })) = true :=
    parsedWith (by decide +kernel)
  simp only [Bool.and_eq_true, List.all_eq_true, Bool.not_eq_true', decide_eq_true_eq] at seen
  obtain ⟨parts, converted⟩ := seen
  obtain ⟨q, p, read, readAgain, final, classVar, markers, type, _⟩ := renamingCommutes renames e fun s part => (parts s part).1
  rw [converted] at read
  cases Except.ok.inj read
  have whole : p = { type := some importedType, final := true, markers := ["A"] } := by
    cases p
    cases final
    cases classVar
    cases markers
    cases type fun s part => (parts s part).2
    rfl
  exact ⟨e, parsed, converted, whole ▸ readAgain⟩

/-- A text without literals that has one type where it stands, and another with its names replaced. -/
def ReadApart [CharacterNames] (r : TypeReader) (text : String) (written meant : TypeRef) : Prop :=
  r.Renames ∧ ∃ e, parseExpression text = .ok e ∧ (∀ s ∈ r.typeParts e, s.isLiteral = false) ∧
    r.convert e = .ok { type := some written } ∧ r.plainly.convert (e.renamed r.resolve) = .ok { type := some meant }

theorem readApart [CharacterNames] {r : TypeReader} (renames : r.Renames) {text : String} {written meant : TypeRef}
    (seen : ((parseExpression text).toOption.any fun e => decide ((∀ s ∈ r.typeParts e, s.isLiteral = false) ∧
      r.convert e = .ok { type := some written } ∧ r.plainly.convert (e.renamed r.resolve) = .ok { type := some meant })) = true) :
    r.ReadApart text written meant := by
  obtain ⟨e, parsed, holds⟩ := parsedWith seen
  exact ⟨renames, e, parsed, of_decide_eq_true holds⟩

def arrayAlias : TypeReader := { resolve := denoting [("nd", "numpy.ndarray")] }

def arrayShadow : TypeReader := { resolve := denoting [("Array", "lib.Matrix")] }

/- A name of arrays under another name is not seen, and another class under a name of arrays is taken for one. -/
theorem arrayNamesWritten :
    arrayAlias.ReadApart "nd[int]" (.applied "numpy.ndarray" [.named "int"]) (.array (.named "int")) ∧
      arrayShadow.ReadApart "Array[int]" (.array (.named "int")) (.applied "lib.Matrix" [.named "int"]) := by
  constructor
  · exact readApart (denotingRenames (by decide) (by decide +kernel) _) (by decide +kernel)
  · exact readApart (denotingRenames (by decide) (by decide +kernel) _) (by decide +kernel)

end TypeReader
end SharedState
