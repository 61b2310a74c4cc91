import SharedState.Proofs.Conversion
import SharedState.Proofs.StatementLiterals

/-! Types written in string literals. The text of a literal is read as a type of its own, which may hold literals again. It is shorter
than the text that the literal stands in, so this comes to an end. -/
namespace SharedState

open SharedState.Source SharedState.Text

namespace Source

/- The text that adjacent literals stand for, without the blanks around it. -/
def quotedText? [CharacterNames] (pieces : List LiteralPiece) : Option String :=
  match literalsValue pieces with
  | .ok (some (.text codes)) => (plainText codes).toOption
  | _ => none

/- The texts in an expression that may be read again. -/
def Expr.quoted [CharacterNames] (e : Expr) : List String := e.literals.filterMap quotedText?

variable {charset : CharacterNames}

theorem quotedTextLength {pieces : List LiteralPiece} {text : String} (read : quotedText? pieces = some text) :
    text.length ≤ piecesLength pieces - 1 := by
  unfold quotedText? at read
  split at read
  · rename_i codes evaluated
    cases trimmed : plainText codes with
    | error e =>
      rw [trimmed] at read
      cases read
    | ok value =>
      rw [trimmed] at read
      cases read
      rw [← String.length_toList]
      exact Nat.le_trans (plainTextLength trimmed) (literalsValueLength evaluated)
  · cases read

theorem quotedLength {n : Nat} {e : Expr} (fits : e.Fits n) {v : String} (quoted : v ∈ e.quoted) : v.length ≤ n - 1 := by
  obtain ⟨pieces, inside, read⟩ := List.mem_filterMap.1 quoted
  have whole := fits pieces inside
  have value := quotedTextLength read
  omega

theorem readAllDraws {α : Type} {p : Grammar → Parse α} {good : Nat → α → Prop} (draws : ∀ {n g}, g.Drawing → Draws n (p g) (good n))
    {text : String} {a : α} (read : readAll p text = .ok a) : good text.length a := by
  unfold readAll at read
  split at read
  · cases read
  · rename_i ts lexed
    split at read
    · cases read
    · rename_i rest parsed
      have short := tokensLength lexed
      rw [String.length_toList] at short
      split at read <;> cases read
      exact (draws (grammarDrawing _) ts _ rest short parsed).2

theorem filledLength {text : String} (filled : text ≠ "") : 0 < text.length :=
  Nat.pos_of_ne_zero fun zero => filled (String.length_eq_zero_iff.1 zero)

theorem expressionQuotes {text : String} {e : Expr} (read : parseExpression text = .ok e) : ∀ v ∈ e.quoted, v.length < text.length := by
  intro v quoted
  have filled : text ≠ "" := by
    intro nothing
    have refused : parseExpression "" = .error .malformed := rfl
    rw [nothing, refused] at read
    cases read
  have short := quotedLength (readAllDraws drawsExpressionLine read) quoted
  have positive := filledLength filled
  omega

theorem moduleQuotes {text : String} {body : List Stmt} (read : parseModule text = .ok body) :
    ∀ e ∈ Stmt.allExpressions body, ∀ v ∈ e.quoted, v.length < text.length := by
  intro e inside v quoted
  have filled : text ≠ "" := by
    intro nothing
    have empty : parseModule "" = .ok [] := rfl
    rw [nothing, empty] at read
    cases read
    cases inside
  have positive := filledLength filled
  unfold parseModule at read
  split at read
  · rename_i rest marked
    have short := quotedLength (readAllDraws drawsStatements read e inside) quoted
    have whole := congrArg List.length marked
    rw [String.length_toList, List.length_cons] at whole
    rw [String.length_ofList] at short
    omega
  · have short := quotedLength (readAllDraws drawsStatements read e inside) quoted
    omega

theorem quotedIndex {value e : Expr} {indices : List Expr} (here : e ∈ indices) {v : String} (quoted : v ∈ e.quoted) :
    v ∈ (Expr.subscript value indices).quoted := by
  obtain ⟨pieces, inside, read⟩ := List.mem_filterMap.1 quoted
  exact List.mem_filterMap.2 ⟨pieces, List.mem_append_right _ (Expr.memAllLiterals here inside), read⟩

end Source

namespace TypeReader

variable {r : TypeReader} {f g : String → Reading QualifiedType}

section
variable {charset : CharacterNames}

theorem literalAgrees {pieces : List LiteralPiece} (agree : ∀ v ∈ (Expr.literal pieces).quoted, f v = g v) :
    ofExpr r f (.literal pieces) = ofExpr r g (.literal pieces) := by
  rw [ofExpr, ofExpr]
  cases evaluated : literalsValue pieces with
  | error e => rfl
  | ok value =>
    cases value with
    | none => rfl
    | some value =>
      cases value with
      | bytes => rfl
      | text codes =>
        show (plainText codes >>= f) = (plainText codes >>= g)
        cases trimmed : plainText codes with
        | error e => rfl
        | ok v =>
          have read : quotedText? pieces = some v := by
            rw [quotedText?, evaluated]
            exact congrArg Except.toOption trimmed
          exact agree v (List.mem_filterMap.2 ⟨pieces, List.mem_singleton_self _, read⟩)

mutual
theorem ofExprAgrees : (e : Expr) → (∀ v ∈ e.quoted, f v = g v) → ofExpr r f e = ofExpr r g e
  | .literal pieces, agree => literalAgrees agree
  | .binary op left right, agree => by
    have parts : (Expr.binary op left right).quoted = left.quoted ++ right.quoted := List.filterMap_append
    rw [parts] at agree
    rw [ofExpr, ofExpr, ofExprAgrees left fun v inside => agree v (by simp [inside]),
      ofExprAgrees right fun v inside => agree v (by simp [inside])]
  | .subscript value indices, agree => by
    have inner : ∀ e ∈ indices, ∀ v ∈ e.quoted, f v = g v := fun e here v inside => agree v (quotedIndex here inside)
    rw [ofExpr, ofExpr, ofFirstAgrees indices inner, ofExprsAgrees indices inner]
  | .name _ _, _ | .constant _, _ | .access _ _ _, _ | .call _ _, _ | .tuple _, _ | .list _, _ | .container _, _ | .starred _, _
  | .other, _ => by simp only [ofExpr]
theorem ofFirstAgrees : (es : List Expr) → (∀ e ∈ es, ∀ v ∈ e.quoted, f v = g v) → ofFirst r f es = ofFirst r g es
  | [], _ => by rw [ofFirst, ofFirst]
  | e :: _, agree => by rw [ofFirst, ofFirst, ofExprAgrees e (agree e (by simp))]
theorem ofExprsAgrees : (es : List Expr) → (∀ e ∈ es, ∀ v ∈ e.quoted, f v = g v) → ofExprs r f es = ofExprs r g es
  | [], _ => by rw [ofExprs, ofExprs]
  | e :: rest, agree => by
    rw [ofExprs, ofExprs, ofExprAgrees e (agree e (by simp)), ofExprsAgrees rest fun u later => agree u (by simp [later])]
end

/-! Reading again. -/

/- One text, where the texts in its literals are read by another reader. -/
def reading [CharacterNames] (r : TypeReader) (reread : String → Reading QualifiedType) (text : String) : Reading QualifiedType :=
  match parseExpression (strip text) with
  | .error .malformed => .ok {}
  | .error .mixedSorts => .error .mixedSorts
  | .ok e => ofExpr r reread e

theorem withinReading (r : TypeReader) (n : Nat) (text : String) : r.ofTextWithin (n + 1) text = r.reading (r.ofTextWithin n) text := by
  unfold ofTextWithin reading
  cases parseExpression (strip text) with
  | error fault => cases fault <;> rfl
  | ok e => rfl

/- A text is read again while another one is. -/
def QuotedIn [CharacterNames] (v text : String) : Prop := ∃ e, parseExpression (strip text) = .ok e ∧ v ∈ e.quoted

theorem stripLength (text : String) : (strip text).length ≤ text.length := by
  rw [strip, String.length_ofList, ← String.length_toList]
  exact trimWhileLength _ _

theorem quotedShorter {v text : String} (again : QuotedIn v text) : v.length < text.length := by
  obtain ⟨e, parsed, quoted⟩ := again
  exact Nat.lt_of_lt_of_le (expressionQuotes parsed v quoted) (stripLength text)

theorem quotedInEnds [CharacterNames] : WellFounded QuotedIn := Subrelation.wf quotedShorter (measure String.length).wf

theorem readingAgrees {text : String} (agree : ∀ v, QuotedIn v text → f v = g v) : r.reading f text = r.reading g text := by
  unfold reading
  split
  · rfl
  · rfl
  · rename_i e parsed
    exact ofExprAgrees e fun v quoted => agree v ⟨e, parsed, quoted⟩

/- Each level takes a character at least, so it does not matter how many more levels are allowed. -/
theorem withinAgrees (r : TypeReader) (n m : Nat) (text : String) (first : text.length < n) (second : text.length < m) :
    r.ofTextWithin n text = r.ofTextWithin m text := by
  induction n generalizing m text with
  | zero => exact absurd first (Nat.not_lt_zero _)
  | succ n ih =>
    cases m with
    | zero => exact absurd second (Nat.not_lt_zero _)
    | succ m =>
      have below : ∀ v, QuotedIn v text → r.ofTextWithin n v = r.ofTextWithin m v := by
        intro v again
        have shorter := quotedShorter again
        exact ih m v (by omega) (by omega)
      calc r.ofTextWithin (n + 1) text
        _ = r.reading (r.ofTextWithin n) text := withinReading r n text
        _ = r.reading (r.ofTextWithin m) text := readingAgrees below
        _ = r.ofTextWithin (m + 1) text := (withinReading r m text).symm

theorem ofTextReading (r : TypeReader) (text : String) : r.ofText text = r.reading r.ofText text := by
  have enough : ∀ v, QuotedIn v text → r.ofTextWithin text.length v = r.ofText v := fun v again =>
    withinAgrees r text.length (v.length + 1) v (quotedShorter again) (Nat.lt_succ_self _)
  exact (withinReading r text.length text).trans (readingAgrees enough)

theorem readingUnique (solves : ∀ text, f text = r.reading f text) (text : String) : f text = r.ofText text := by
  induction text using quotedInEnds.induction with
  | _ text ih =>
    calc f text
      _ = r.reading f text := solves text
      _ = r.reading r.ofText text := readingAgrees ih
      _ = r.ofText text := (ofTextReading r text).symm

/- Only the texts of literals are read again, and each is shorter than the text it is written in: an expression of its own, or a module
with the expression anywhere in it. So there is one way to read literals in literals, however deep, and no bound on the depth is felt. -/
theorem forwardReferencesEnd (r : TypeReader) :
    (∀ e f g, (∀ v ∈ e.quoted, f v = g v) → ofExpr r f e = ofExpr r g e) ∧
    (∀ source e, parseExpression source = .ok e → ∀ v ∈ e.quoted, v.length < source.length) ∧
    (∀ source body, parseModule source = .ok body → ∀ e ∈ Stmt.allExpressions body, ∀ v ∈ e.quoted, v.length < source.length) ∧
    WellFounded QuotedIn ∧
    (∀ text, r.ofText text = r.reading r.ofText text) ∧
    (∀ f, (∀ text, f text = r.reading f text) → (∀ text, f text = r.ofText text) ∧ ∀ e, ofExpr r f e = r.convert e) ∧
    ∀ levels text, text.length < levels → r.ofTextWithin levels text = r.ofText text := by
  refine ⟨fun e f g => ofExprAgrees e, fun source e => expressionQuotes, fun source body => moduleQuotes, quotedInEnds,
    ofTextReading r, ?_, ?_⟩
  · intro f solves
    have same := readingUnique solves
    exact ⟨same, fun e => ofExprAgrees e fun v _ => same v⟩
  · intro levels text enough
    exact withinAgrees r levels (text.length + 1) text enough (Nat.lt_succ_self _)

end

def nestedText : String := " Optional[u\"List['\\x41 | B'\" r\" ] \"]"

def nestedModule : String := "class C:\n  if x:\n    def f(self, a: \"t.List['C']\" = 1): pass\n"

def nestedType : TypeRef := .union [.applied "List" [.union [.named "A", .named "B"]], .named "None"]

theorem nestedReferences :
    (∃ e, parseExpression (strip nestedText) = .ok e ∧ e.quoted = ["List['A | B' ]"] ∧
      ofExpr {} (fun v => if v = "List['A | B' ]" then ofText {} v else .ok {}) e = convert {} e ∧
      "List['A | B' ]".length < (strip nestedText).length) ∧
    (∃ body, parseModule nestedModule = .ok body ∧ (Stmt.allExpressions body).map (·.quoted) = [["t.List['C']"]] ∧
      "t.List['C']".length < nestedModule.length) ∧
    (∃ f, (∀ text, f text = reading {} f text) ∧ (∀ text, f text = ofText {} text) ∧ f nestedText = .ok { type := some nestedType }) ∧
    ofTextWithin {} 37 nestedText = .ok { type := some nestedType } := by
  have quotes : (parseExpression (strip nestedText)).toOption.map (·.quoted) = some ["List['A | B' ]"] := by decide +kernel
  have annotation : (parseModule nestedModule).toOption.map (fun body => (Stmt.allExpressions body).map (·.quoted)) =
      some [["t.List['C']"]] := by decide +kernel
  have made : ofText {} nestedText = .ok { type := some nestedType } := by decide +kernel
  obtain ⟨agrees, inExpression, inModule, _, solves, unique, within⟩ := forwardReferencesEnd {}
  refine ⟨?_, ?_, ⟨ofText {}, solves, (unique _ solves).1, made⟩, (within 37 nestedText (by decide)).trans made⟩
  · cases parsed : parseExpression (strip nestedText) with
    | error fault =>
      rw [parsed] at quotes
      cases quotes
    | ok e =>
      rw [parsed] at quotes
      have only : e.quoted = ["List['A | B' ]"] := Option.some.inj quotes
      have inside : "List['A | B' ]" ∈ e.quoted := only ▸ List.mem_singleton_self _
      exact ⟨e, rfl, only, agrees e _ _ fun v other => if_pos (List.mem_singleton.1 (only ▸ other)), inExpression _ e parsed _ inside⟩
  · cases parsed : parseModule nestedModule with
    | error fault =>
      rw [parsed] at annotation
      cases annotation
    | ok body =>
      rw [parsed] at annotation
      have only : (Stmt.allExpressions body).map (·.quoted) = [["t.List['C']"]] := Option.some.inj annotation
      obtain ⟨e, inside, quoted⟩ := List.mem_map.1 (only ▸ List.mem_singleton_self ["t.List['C']"])
      exact ⟨body, rfl, only, inModule _ body parsed e inside _ (quoted ▸ List.mem_singleton_self _)⟩

end TypeReader
end SharedState
