import SharedState.Program.Build
import SharedState.Proofs.Conversion
import SharedState.Proofs.Retyping

/-! What an annotation says. The type that a text denotes is denoted by its own text too, up to parentheses that widening does
not see. The qualifiers that are reported are all those met on the way: around the type, in its arguments, and in the texts of
string literals. -/
namespace SharedState

open SharedState.Source SharedState.Text

/-! The text of a type. -/

theorem typeTextStable [CharacterNames] {s : String} {t : TypeRef} (parsed : parseType s = .ok (some t)) :
    ∃ text u, t.text? = some text ∧ parseType text = .ok (some u) ∧ u.text? = some text ∧
      ∀ g : Graph, g.classSymbols u = g.classSymbols t := by
  have readable := parseTypeClosed (TypeRef.readableClosed fun _ name => name) parsed
  have free := TypeRef.arrayedFree t (parseTypeClosed TypeRef.arrayFreeClosed parsed)
  have told := TypeRef.readableTold readable
  refine ⟨t.shown, t.reread, told, TypeRef.parseShown readable, ?_, fun g => Graph.classSymbolsHeads ?_⟩
  · rw [TypeRef.rereadTold readable, free, told]
  · rw [TypeRef.rereadHeads, free]

/- A union in an intersection, and an application without an argument that counts. -/
def regroupedType : TypeRef :=
  .intersection [.union [.named "A", .named "B.C"], .applied "x" [.array (.named "object")], .applied "g" []]

def regroupedText : String := "A | B.C & x[Array[object]] & g"

theorem regroupedTextStable : ∃ u,
    parseType "(A | 'B.C') & x[Array[f()]] & g[:]" = .ok (some regroupedType) ∧
      regroupedType.text? = some regroupedText ∧ parseType regroupedText = .ok (some u) ∧ u.text? = some regroupedText ∧
      u ≠ regroupedType ∧ ∀ g : Graph, g.classSymbols u = g.classSymbols regroupedType := by
  have parsed : parseType "(A | 'B.C') & x[Array[f()]] & g[:]" = .ok (some regroupedType) := by decide +kernel
  have told : regroupedType.text? = some regroupedText := by decide +kernel
  have other : parseType regroupedText ≠ .ok (some regroupedType) := by decide +kernel
  obtain ⟨text, u, shown, again, same, classes⟩ := typeTextStable parsed
  cases Option.some.inj (told.symm.trans shown)
  refine ⟨u, parsed, told, again, same, ?_, classes⟩
  rintro rfl
  exact other again

namespace Source.Expr

def nowhere : Position := ⟨1, 0⟩

def word (w : String) : Expr :=
  match Constant.ofText? w with
  | some c => .constant c
  | none => if plain : PlainWord w then .name ⟨w, plain⟩ nowhere else .other

end Source.Expr

/-! Qualifiers. -/

inductive Qualifier where
  | final
  | classVar
  | marker (name : String)
  deriving DecidableEq, Repr

def qualifierOf? (form : String) : Option Qualifier :=
  if form = "Final" then some .final else if form = "ClassVar" then some .classVar else none

/- Constructs of which only the first argument is a type. -/
def wrappers : List String := ["Final", "Annotated"] ++ qualifierWrappers

namespace QualifiedType

def Reports (q : QualifiedType) : Qualifier → Prop
  | .final => q.final = true
  | .classVar => q.classVar = true
  | .marker name => name ∈ q.markers

theorem reportsBoth (a b : QualifiedType) (k : Qualifier) : (a.withQualifiersOf b).Reports k ↔ a.Reports k ∨ b.Reports k := by
  cases k with
  | final => simp [Reports, withQualifiersOf]
  | classVar => simp [Reports, withQualifiersOf]
  | marker name => exact ⟨insertAllMember, insertAllKept⟩

theorem reportsNothing (k : Qualifier) : ¬ ({} : QualifiedType).Reports k := by
  cases k <;> simp [Reports]

theorem reportsRetyped (q : QualifiedType) (type : Option TypeRef) (k : Qualifier) :
    { q with type }.Reports k ↔ q.Reports k := by
  cases k <;> rfl

end QualifiedType

namespace TypeReader

open QualifiedType

/-- Where qualifiers stand in an expression: in a name, in the text of a string literal, on either side of an operator, around
a type or in its metadata, and in every argument of anything but a wrapper. -/
inductive Carries [CharacterNames] (r : TypeReader) : Expr → Qualifier → Prop where
  | named {e : Expr} {k : Qualifier} (dotted : Program.isDotted e = true)
      (form : qualifierOf? (r.formOf e.fullName) = some k) : Carries r e k
  | quoted {pieces : List LiteralPiece} {codes : List Nat} {text : String} {q : QualifiedType} {k : Qualifier}
      (value : literalsValue pieces = .ok (some (.text codes))) (plain : plainText codes = .ok text)
      (read : r.ofText text = .ok q) (reported : q.Reports k) : Carries r (.literal pieces) k
  | left {op : BinaryOp} {first second : Expr} {k : Qualifier} (inner : Carries r first k) :
      Carries r (.binary op first second) k
  | right {op : BinaryOp} {first second : Expr} {k : Qualifier} (inner : Carries r second k) :
      Carries r (.binary op first second) k
  | around {base : Expr} {args : List Expr} {k : Qualifier} (form : qualifierOf? (r.formOf base.fullName) = some k) :
      Carries r (.subscript base args) k
  | metadata {base e : Expr} {args : List Expr} (form : r.formOf base.fullName = "Annotated") (here : e ∈ args.tail)
      (known : markerName e ∈ r.markers) : Carries r (.subscript base args) (.marker (markerName e))
  | wrapped {base first : Expr} {rest : List Expr} {k : Qualifier} (form : r.formOf base.fullName ∈ wrappers)
      (inner : Carries r first k) : Carries r (.subscript base (first :: rest)) k
  | argument {base e : Expr} {args : List Expr} {k : Qualifier} (form : r.formOf base.fullName ∉ wrappers) (here : e ∈ args)
      (inner : Carries r e k) : Carries r (.subscript base args) k

variable {r : TypeReader}

theorem nameReports (n : String) (k : Qualifier) : (r.ofName n).Reports k ↔ qualifierOf? (r.formOf n) = some k := by
  by_cases isFinal : r.formOf n = "Final"
  · cases k <;> simp [ofName, isFinal, Reports, qualifierOf?]
  by_cases isClass : r.formOf n = "ClassVar"
  · cases k <;> simp [ofName, isClass, Reports, qualifierOf?]
  have nothing : qualifierOf? (r.formOf n) = none := by simp [qualifierOf?, isFinal, isClass]
  by_cases empty : n.isEmpty
  · cases k <;> simp [ofName, isFinal, isClass, empty, nothing, Reports]
  · cases k <;> simp [ofName, isFinal, isClass, empty, nothing, Reports]

theorem wrapperForm (r : TypeReader) (form : String) (metadata : List Expr) :
    r.wrapper? form metadata = none ↔ form ∉ wrappers := by
  by_cases isFinal : form = "Final"
  · simp [wrapper?, wrappers, isFinal]
  by_cases plain : form ∈ qualifierWrappers
  · simp [wrapper?, wrappers, isFinal, plain]
  by_cases annotated : form = "Annotated"
  · simp [wrapper?, wrappers, qualifierWrappers, annotated]
  · simp [wrapper?, wrappers, isFinal, plain, annotated]

theorem markersIff {names : List String} {m : String} : m ∈ markerSet names ↔ m ∈ names :=
  ⟨fun member => (markerSetMade names).2 m member, fun member => insertAllKept (.inr member)⟩

theorem wrapperReports {form : String} {metadata : List Expr} {q : QualifiedType} (wraps : r.wrapper? form metadata = some q)
    (k : Qualifier) : q.Reports k ↔ qualifierOf? form = some k ∨
      form = "Annotated" ∧ ∃ e ∈ metadata, markerName e ∈ r.markers ∧ k = .marker (markerName e) := by
  unfold wrapper? at wraps
  split at wraps
  · rename_i isFinal
    cases Option.some.inj wraps
    cases k <;> simp [Reports, isFinal, qualifierOf?]
  · rename_i notFinal
    split at wraps
    · rename_i plain
      cases Option.some.inj wraps
      have other : form ≠ "Annotated" := by
        rintro rfl
        exact absurd plain (by decide)
      by_cases isClass : form = "ClassVar" <;> cases k <;> simp [Reports, qualifierOf?, notFinal, isClass, other]
    · rename_i notPlain
      split at wraps
      · rename_i annotated
        cases Option.some.inj wraps
        cases k with
        | marker name =>
          simp only [Reports, markersIff, List.mem_filter, List.mem_map, List.contains_iff_mem]
          constructor
          · rintro ⟨⟨e, here, rfl⟩, known⟩
            exact .inr ⟨annotated, e, here, known, rfl⟩
          · rintro (bare | ⟨_, e, here, known, same⟩)
            · simp [annotated, qualifierOf?] at bare
            · cases same
              exact ⟨⟨e, here, rfl⟩, known⟩
        | _ => simp [Reports, annotated, qualifierOf?]
      · cases wraps

section
variable {charset : CharacterNames}

theorem namedCarries {e : Expr} (dotted : Program.isDotted e = true) (k : Qualifier) :
    (r.ofName e.fullName).Reports k ↔ Carries r e k := by
  rw [nameReports]
  refine ⟨.named dotted, fun carried => ?_⟩
  cases carried with
  | named _ form => exact form
  | _ => cases dotted

theorem quotedCarries {pieces : List LiteralPiece} {q : QualifiedType} (made : r.convert (.literal pieces) = .ok q)
    (k : Qualifier) : q.Reports k ↔ Carries r (.literal pieces) k := by
  rw [convert, ofExpr] at made
  obtain ⟨value, found, read⟩ := bindOk made
  split at read
  · obtain ⟨text, plain, read⟩ := bindOk read
    refine ⟨.quoted found plain read, fun carried => ?_⟩
    cases carried with
    | named dotted => cases dotted
    | quoted found' plain' read' reported =>
      cases found.symm.trans found'
      cases plain.symm.trans plain'
      cases read.symm.trans read'
      exact reported
  · rename_i noText
    cases Except.ok.inj read
    refine ⟨fun reported => absurd reported (reportsNothing k), fun carried => ?_⟩
    cases carried with
    | named dotted => cases dotted
    | quoted found' => exact absurd (Except.ok.inj (found.symm.trans found')) (noText _)

theorem binaryCarries (op : BinaryOp) (first second : Expr) (k : Qualifier) :
    Carries r (.binary op first second) k ↔ Carries r first k ∨ Carries r second k := by
  constructor
  · intro carried
    cases carried with
    | named dotted => cases dotted
    | left inner => exact .inl inner
    | right inner => exact .inr inner
  · rintro (inner | inner)
    · exact .left inner
    · exact .right inner

/- A wrapper looks into its first argument only, and everything else looks into all of them. -/
theorem wrapperCarries {base : Expr} {args : List Expr} {q : QualifiedType}
    (wraps : r.wrapper? (r.formOf base.fullName) args.tail = some q) (k : Qualifier) :
    Carries r (.subscript base args) k ↔ q.Reports k ∨ ∃ e ∈ args.head?, Carries r e k := by
  have form : r.formOf base.fullName ∈ wrappers := by
    by_contra plain
    rw [(wrapperForm r _ args.tail).2 plain] at wraps
    cases wraps
  rw [wrapperReports wraps]
  constructor
  · intro carried
    cases carried with
    | named dotted => cases dotted
    | around found => exact .inl (.inl found)
    | metadata annotated here known => exact .inl (.inr ⟨annotated, _, here, known, rfl⟩)
    | wrapped _ inner => exact .inr ⟨_, rfl, inner⟩
    | argument plain => exact absurd form plain
  · rintro ((found | ⟨annotated, e, here, known, rfl⟩) | ⟨e, first, inner⟩)
    · exact .around found
    · exact .metadata annotated here known
    · cases args with
      | nil => cases first
      | cons a rest =>
        cases Option.some.inj first
        exact .wrapped form inner

theorem argumentCarries {base : Expr} {args : List Expr} (plain : r.formOf base.fullName ∉ wrappers) (k : Qualifier) :
    Carries r (.subscript base args) k ↔ ∃ e ∈ args, Carries r e k := by
  constructor
  · intro carried
    cases carried with
    | named dotted => cases dotted
    | around found =>
      unfold qualifierOf? at found
      split at found
      · rename_i isFinal
        exact absurd (by rw [isFinal]; decide) plain
      · split at found
        · rename_i isClass
          exact absurd (by rw [isClass]; decide) plain
        · cases found
    | metadata annotated => exact absurd (by rw [annotated]; decide) plain
    | wrapped form => exact absurd form plain
    | argument _ here inner => exact ⟨_, here, inner⟩
  · rintro ⟨e, here, inner⟩
    exact .argument plain here inner

mutual
theorem ofExprCarries : (e : Expr) → ∀ q, ofExpr r r.ofText e = .ok q → ∀ k, q.Reports k ↔ Carries r e k
  | .name id start, q, made, k => by
    cases Except.ok.inj made
    exact namedCarries (e := .name id start) rfl k
  | .constant c, q, made, k => by
    cases Except.ok.inj made
    exact namedCarries (e := .constant c) rfl k
  | .access value attr start, q, made, k => by
    cases Except.ok.inj made
    exact namedCarries (e := .access value attr start) rfl k
  | .literal pieces, q, made, k => quotedCarries made k
  | .binary op left right, q, made, k => by
    rw [ofExpr] at made
    obtain ⟨a, first, made⟩ := bindOk made
    obtain ⟨b, second, made⟩ := bindOk made
    cases Except.ok.inj made
    rw [reportsRetyped, reportsBoth, ofExprCarries left a first, ofExprCarries right b second, binaryCarries]
  | .subscript base args, q, made, k => by
    rw [ofExpr] at made
    split at made
    · rename_i wraps
      obtain ⟨a, first, made⟩ := bindOk made
      cases Except.ok.inj made
      rw [reportsBoth, wrapperCarries wraps, ofFirstCarries args a first]
    · rename_i outer
      obtain ⟨⟨parts, a⟩, first, made⟩ := bindOk made
      cases Except.ok.inj made
      rw [reportsRetyped, ofExprsCarries args parts a first, argumentCarries ((wrapperForm r _ _).1 outer)]
  | .call _ _, q, made, k | .tuple _, q, made, k | .list _, q, made, k | .container _, q, made, k | .starred _, q, made, k
  | .other, q, made, k => by
    cases Except.ok.inj made
    refine ⟨fun reported => absurd reported (reportsNothing k), fun carried => ?_⟩
    cases carried with
    | named dotted => cases dotted
theorem ofFirstCarries : (es : List Expr) → ∀ q, ofFirst r r.ofText es = .ok q → ∀ k,
    q.Reports k ↔ ∃ e ∈ es.head?, Carries r e k
  | [], q, made, k => by
    cases Except.ok.inj made
    simpa using reportsNothing k
  | e :: rest, q, made, k => by
    rw [ofExprCarries e q made]
    simp
theorem ofExprsCarries : (es : List Expr) → ∀ parts q, ofExprs r r.ofText es = .ok (parts, q) → ∀ k,
    q.Reports k ↔ ∃ e ∈ es, Carries r e k
  | [], parts, q, made, k => by
    cases Except.ok.inj made
    simpa using reportsNothing k
  | e :: rest, parts, q, made, k => by
    rw [ofExprs] at made
    obtain ⟨a, first, made⟩ := bindOk made
    obtain ⟨⟨others, b⟩, second, made⟩ := bindOk made
    cases Except.ok.inj made
    rw [reportsBoth, ofExprCarries e a first, ofExprsCarries rest others b second]
    simp
end

theorem exprsDone (es : List Expr) : (∃ done, ofExprs r r.ofText es = .ok done) ↔ ∀ e ∈ es, ∃ q, r.convert e = .ok q := by
  induction es with
  | nil => simp [ofExprs]
  | cons e rest ih =>
    rw [List.forall_mem_cons, ← ih, ofExprs]
    constructor
    · rintro ⟨done, made⟩
      obtain ⟨a, first, made⟩ := bindOk made
      obtain ⟨later, second, _⟩ := bindOk made
      exact ⟨⟨a, first⟩, later, second⟩
    · rintro ⟨⟨a, first⟩, ⟨parts, q⟩, second⟩
      have head : ofExpr r r.ofText e = .ok a := first
      exact ⟨(a.type.toList ++ parts, a.withQualifiersOf q), by rw [head, second]; rfl⟩

theorem argumentConverts {base : Expr} (plain : r.formOf base.fullName ∉ wrappers) (args : List Expr) :
    r.convert (.subscript base args) = (ofExprs r r.ofText args).map fun done =>
      { done.2 with type := r.application base.fullName (r.formOf base.fullName) done.1 } := by
  rw [convert, ofExpr, (wrapperForm r _ _).2 plain]
  cases ofExprs r r.ofText args <;> rfl

/- An application is converted exactly if all its arguments are, and reports whatever one of them carries, however deep. So it
reports nothing only if nothing is carried. -/
theorem qualifiersGathered (r : TypeReader) (base : Expr) (args : List Expr) (plain : r.formOf base.fullName ∉ constructs) :
    ((∃ q, r.convert (.subscript base args) = .ok q) ↔ ∀ a ∈ args, ∃ q, r.convert a = .ok q) ∧
    ∀ q, r.convert (.subscript base args) = .ok q →
      (q.final = true ↔ ∃ a ∈ args, Carries r a .final) ∧
      (q.classVar = true ↔ ∃ a ∈ args, Carries r a .classVar) ∧
      (∀ m, m ∈ q.markers ↔ ∃ a ∈ args, Carries r a (.marker m)) ∧
      (q.final = false ∧ q.classVar = false ∧ q.markers = [] ↔ ∀ a ∈ args, ∀ k, ¬ Carries r a k) := by
  have outer : r.formOf base.fullName ∉ wrappers := fun inside => plain (by
    simp only [wrappers, constructs, List.mem_append, List.mem_cons] at inside ⊢
    tauto)
  constructor
  · rw [argumentConverts outer, ← exprsDone]
    cases ofExprs r r.ofText args <;> simp [Except.map]
  · intro q made
    have reported (k : Qualifier) : q.Reports k ↔ ∃ a ∈ args, Carries r a k := by
      rw [ofExprCarries _ q made, argumentCarries outer]
    refine ⟨reported .final, reported .classVar, fun m => reported (.marker m), ?_⟩
    constructor
    · rintro ⟨notFinal, notClass, unmarked⟩ a here k carried
      have said := (reported k).2 ⟨a, here, carried⟩
      cases k with
      | final => exact absurd said (by simp [Reports, notFinal])
      | classVar => exact absurd said (by simp [Reports, notClass])
      | marker name => exact absurd said (by simp [Reports, unmarked])
    · intro clear
      have silent (k : Qualifier) : ¬ q.Reports k := fun said => by
        obtain ⟨a, here, carried⟩ := (reported k).1 said
        exact clear a here k carried
      exact ⟨by simpa [Reports] using silent .final, by simpa [Reports] using silent .classVar,
        List.eq_nil_iff_forall_not_mem.2 fun m => silent (.marker m)⟩

end

def readerOfM : TypeReader := { markers := ["m"] }

-- The arguments in `dict[Annotated[A, m], Literal['Final']]`.
def nestedQualifiers : List Expr :=
  [.subscript (.word "Annotated") [.word "A", .word "m"],
   .subscript (.word "Literal") [.literal [.plain "'Final'"]]]

theorem nestedQualifiersGathered : ∃ q, readerOfM.convert (.subscript (.word "dict") nestedQualifiers) = .ok q ∧
    q.final = true ∧ q.classVar = false ∧ q.markers = ["m"] ∧
    (∃ a ∈ nestedQualifiers, Carries readerOfM a .final) ∧ (∃ a ∈ nestedQualifiers, Carries readerOfM a (.marker "m")) ∧
    ¬ ∃ a ∈ nestedQualifiers, Carries readerOfM a .classVar := by
  have made : readerOfM.convert (.subscript (.word "dict") nestedQualifiers) =
      .ok { type := some (.applied "dict" [.named "A", .applied "Literal" []]), final := true, markers := ["m"] } := by
    decide +kernel
  obtain ⟨final, classVar, markers, _⟩ :=
    (qualifiersGathered readerOfM (.word "dict") nestedQualifiers (by decide +kernel)).2 _ made
  exact ⟨_, made, rfl, rfl, rfl, final.1 rfl, (markers "m").1 (by simp), fun carried => by cases classVar.2 carried⟩

/- Qualifiers are reported of an application although they stand in an argument, be it only the text of a literal. -/
theorem nestedQualifiersReported :
    readerOfM.formOf "list" ∉ constructs ∧ readerOfM.formOf "Literal" ∉ constructs ∧
    (∃ q, readerOfM.convert (.subscript (.word "list") [.subscript (.word "Final") [.word "int"]]) = .ok q ∧ q.final = true) ∧
    (∃ q, readerOfM.convert (.subscript (.word "list") [.subscript (.word "ClassVar") [.word "int"]]) = .ok q ∧
      q.classVar = true) ∧
    (∃ q, readerOfM.convert (.subscript (.word "list") [.subscript (.word "Annotated") [.word "int", .word "m"]]) = .ok q ∧
      q.markers = ["m"]) ∧
    ∃ q, readerOfM.convert (.subscript (.word "Literal") [.literal [.plain "'Final'"]]) = .ok q ∧ q.final = true := by
  refine ⟨by decide +kernel, by decide +kernel, ⟨{ type := some (.applied "list" [.named "int"]), final := true }, ?_, rfl⟩,
    ⟨{ type := some (.applied "list" [.named "int"]), classVar := true }, ?_, rfl⟩,
    ⟨{ type := some (.applied "list" [.named "int"]), markers := ["m"] }, ?_, rfl⟩,
    { type := some (.applied "Literal" []), final := true }, ?_, rfl⟩
  · decide +kernel
  · decide +kernel
  · decide +kernel
  · decide +kernel

end TypeReader

end SharedState
