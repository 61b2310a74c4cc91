import SharedState.Proofs.LiteralLength

/-! Literals in expressions. Reading an expression puts no string literal into it that is not among the tokens, and none twice into the
same value: so the literals of one value are no longer than all literals of the tokens. This is said once for the ways in which readers
are put together, and then for each reader of the grammar. -/
namespace SharedState.Source

open Parse

namespace Expr

mutual
/- The literals in an expression, at any depth. -/
def literals : Expr → List (List LiteralPiece)
  | .literal pieces => [pieces]
  | .access value _ _ | .starred value => value.literals
  | .call func args => func.literals ++ argumentLiterals args
  | .subscript value indices => value.literals ++ allLiterals indices
  | .binary _ left right => left.literals ++ right.literals
  | .tuple elements | .list elements => allLiterals elements
  | .name _ _ | .constant _ | .container _ | .other => []
def allLiterals : List Expr → List (List LiteralPiece)
  | [] => []
  | e :: rest => e.literals ++ allLiterals rest
def argumentLiterals : List (Option String × Expr) → List (List LiteralPiece)
  | [] => []
  | (_, e) :: rest => e.literals ++ argumentLiterals rest
end

/- No literal in an expression is longer than so many characters. -/
def Fits (n : Nat) (e : Expr) : Prop := ∀ pieces ∈ e.literals, piecesLength pieces ≤ n

section
variable {n : Nat} {e : Expr}

theorem memAllLiterals {pieces : List LiteralPiece} {es : List Expr} (here : e ∈ es) (inside : pieces ∈ e.literals) :
    pieces ∈ allLiterals es := by
  induction es with
  | nil => cases here
  | cons first es ih =>
    rcases List.mem_cons.1 here with same | later
    · exact List.mem_append_left _ (same ▸ inside)
    · exact List.mem_append_right _ (ih later)

theorem allFits (es : List Expr) : (∀ pieces ∈ allLiterals es, piecesLength pieces ≤ n) ↔ ∀ e ∈ es, Fits n e := by
  induction es with
  | nil => exact ⟨fun _ _ here => absurd here List.not_mem_nil, fun _ _ inside => absurd inside List.not_mem_nil⟩
  | cons e es ih =>
    rw [List.forall_mem_cons, ← ih]
    exact List.forall_mem_append

theorem argumentsFit (args : List (Option String × Expr)) :
    (∀ pieces ∈ argumentLiterals args, piecesLength pieces ≤ n) ↔ ∀ a ∈ args, Fits n a.2 := by
  induction args with
  | nil => exact ⟨fun _ _ here => absurd here List.not_mem_nil, fun _ _ inside => absurd inside List.not_mem_nil⟩
  | cons a args ih =>
    rw [List.forall_mem_cons, ← ih]
    exact List.forall_mem_append

@[simp] theorem fitsOther : Fits n .other := fun _ inside => absurd inside List.not_mem_nil

@[simp] theorem fitsName (id : Identifier) (start : Position) : Fits n (.name id start) := fun _ inside => absurd inside List.not_mem_nil

@[simp] theorem fitsConstant (c : Constant) : Fits n (.constant c) := fun _ inside => absurd inside List.not_mem_nil

@[simp] theorem fitsContainer (kind : Container) : Fits n (.container kind) := fun _ inside => absurd inside List.not_mem_nil

@[simp] theorem fitsLiteral (pieces : List LiteralPiece) : Fits n (.literal pieces) ↔ piecesLength pieces ≤ n := List.forall_mem_singleton

@[simp] theorem fitsAccess (attr : Identifier) (start : Position) : Fits n (.access e attr start) ↔ Fits n e := Iff.rfl

@[simp] theorem fitsStarred : Fits n (.starred e) ↔ Fits n e := Iff.rfl

@[simp] theorem fitsBinary (op : BinaryOp) (left right : Expr) : Fits n (.binary op left right) ↔ Fits n left ∧ Fits n right :=
  List.forall_mem_append

@[simp] theorem fitsTuple (elements : List Expr) : Fits n (.tuple elements) ↔ ∀ e ∈ elements, Fits n e := allFits elements

@[simp] theorem fitsList (elements : List Expr) : Fits n (.list elements) ↔ ∀ e ∈ elements, Fits n e := allFits elements

@[simp] theorem fitsSubscript (indices : List Expr) : Fits n (.subscript e indices) ↔ Fits n e ∧ ∀ i ∈ indices, Fits n i :=
  List.forall_mem_append.trans (and_congr_right fun _ => allFits indices)

@[simp] theorem fitsCall (args : List (Option String × Expr)) : Fits n (.call e args) ↔ Fits n e ∧ ∀ a ∈ args, Fits n a.2 :=
  List.forall_mem_append.trans (and_congr_right fun _ => argumentsFit args)
end

end Expr

open SharedState.Source.Expr

/-! Readers. -/

/-- What is read from tokens whose literals have at most so many characters: it leaves such tokens, and it is as said. -/
def Draws {α : Type} (n : Nat) (p : Parse α) (good : α → Prop) : Prop :=
  ∀ ts a rest, literalsLength ts ≤ n → p ts = some (a, rest) → literalsLength rest ≤ n ∧ good a

abbrev Skips {α : Type} (n : Nat) (p : Parse α) : Prop := Draws n p fun _ => True

section Rules

variable {α β : Type} {n : Nat} {good : α → Prop} {right : β → Prop}

theorem bindRead {p : Parse α} {f : α → Parse β} {ts rest : List Token} {b : β} (read : (p >>= f) ts = some (b, rest)) :
    ∃ a more, p ts = some (a, more) ∧ f a more = some (b, rest) := by
  obtain ⟨⟨a, more⟩, before, after⟩ := Option.bind_eq_some_iff.1 read
  exact ⟨a, more, before, after⟩

namespace Draws

theorem pure {a : α} (fine : good a) : Draws n (Pure.pure a) good := by
  intro ts b rest light read
  cases read
  exact ⟨light, fine⟩

theorem fail : Draws n (failure : Parse α) good := by
  intro ts b rest light read
  cases read

theorem bind {p : Parse α} {f : α → Parse β} (first : Draws n p good) (next : ∀ a, good a → Draws n (f a) right) :
    Draws n (p >>= f) right := by
  intro ts b rest light read
  obtain ⟨a, more, before, after⟩ := bindRead read
  obtain ⟨less, fine⟩ := first ts a more light before
  exact next a fine more b rest less after

/- The same where it does not matter what was read. -/
theorem next {p : Parse α} {f : α → Parse β} (first : Draws n p good) (next : ∀ a, Draws n (f a) right) : Draws n (p >>= f) right :=
  first.bind fun a _ => next a

theorem ite {c : Prop} [Decidable c] {p q : Parse α} (yes : Draws n p good) (no : Draws n q good) :
    Draws n (if c then p else q) good := by
  split
  · exact yes
  · exact no

/- Something may stand in front of the rest. -/
theorem optional {c : Prop} [Decidable c] {p : Parse α} {rest : Parse β} (first : Draws n p good) (next : Draws n rest right) :
    Draws n (if c then p >>= fun _ => rest else rest) right :=
  ite (first.next fun _ => next) next

/- What one round keeps holds after all of them. -/
theorem loop {step : α → Parse (α × Bool)} (each : ∀ a, good a → Draws n (step a) (good ·.1)) (rounds : Nat) {a : α}
    (start : good a) : Draws n (Parse.loop step rounds a) good := by
  induction rounds generalizing a with
  | zero => exact fail
  | succ rounds ih => exact (each a start).bind fun _ fine => ite (ih fine) (pure fine)

theorem attempt {p : Parse α} (draws : Draws n p good) : Skips n (Parse.attempt p) := by
  intro ts o rest light read
  unfold Parse.attempt at read
  split at read
  · rename_i a more done
    cases read
    exact ⟨(draws ts a _ light done).1, trivial⟩
  · cases read
    exact ⟨light, trivial⟩

end Draws

theorem skipsFail : Skips n (failure : Parse α) := .fail

theorem lighter {t : Token} {ts : List Token} (light : literalsLength (t :: ts) ≤ n) : literalsLength ts ≤ n :=
  Nat.le_trans (Nat.le_add_left _ _) light

theorem skipsPeek : Skips n peek := by
  intro ts a rest light read
  cases read
  exact ⟨light, trivial⟩

theorem skipsPeekSecond : Skips n peekSecond := by
  intro ts a rest light read
  cases read
  exact ⟨light, trivial⟩

theorem skipsHere : Skips n here := by
  intro ts a rest light read
  cases ts <;> cases read <;> exact ⟨light, trivial⟩

theorem skipsAdvance : Skips n advance := by
  intro ts a rest light read
  cases ts <;> cases read
  · exact ⟨light, trivial⟩
  · exact ⟨lighter light, trivial⟩

theorem skipsExpect (kind : TokenKind) : Skips n (expect kind) := by
  intro ts a rest light read
  unfold expect at read
  split at read
  · cases read
  · split at read <;> cases read
    exact ⟨lighter light, trivial⟩

theorem skipsAccept (kind : TokenKind) : Skips n (accept kind) := by
  intro ts a rest light read
  unfold accept at read
  split at read
  · cases read
    exact ⟨light, trivial⟩
  · split at read <;> cases read
    · exact ⟨lighter light, trivial⟩
    · exact ⟨light, trivial⟩

theorem skipsIdent : Skips n ident := by
  intro ts a rest light read
  unfold ident at read
  split at read
  · split at read <;> cases read
    exact ⟨lighter light, trivial⟩
  · cases read

theorem drawsCommaStep {begins : TokenKind → Bool} {item : Parse α} (each : Draws n item good) {state : List α × Bool}
    (before : ∀ a ∈ state.1, good a) : Draws n (commaStep begins item state) fun r => ∀ a ∈ r.1.1, good a :=
  (skipsAccept _).next fun _ => .ite
    (skipsPeek.next fun _ => .ite (each.bind fun _ fine => .pure (by simpa [or_imp, forall_and] using ⟨before, fine⟩)) (.pure before))
    (.pure before)

theorem drawsCommaList {begins : TokenKind → Bool} {item : Parse α} (each : Draws n item good) (bound : Nat) :
    Draws n (commaList bound begins item) fun r => ∀ a ∈ r.1, good a :=
  each.bind fun _ fine => .loop (fun _ before => drawsCommaStep each before) bound (by simpa using fine)

end Rules

/-- The readers of the next level draw literals from their tokens. -/
structure Grammar.Drawing (g : Grammar) : Prop where
  expression {n : Nat} : Draws n g.expression (Fits n)
  disjunction {n : Nat} : Draws n g.disjunction (Fits n)
  inversion {n : Nat} : Draws n g.inversion (Fits n)
  bitOr {n : Nat} : Draws n g.bitOr (Fits n)
  factor {n : Nat} : Draws n g.factor (Fits n)
  primary {n : Nat} : Draws n g.primary (Fits n)

section Readers

variable {n : Nat} {g : Grammar}

/-! Lists of expressions. -/

theorem skipsAtNamed : Skips n atNamed := skipsPeek.next fun _ => skipsPeekSecond.next fun _ => .pure trivial

theorem drawsNamed (h : g.Drawing) : Draws n (namedExpr g) (Fits n) :=
  skipsAtNamed.next fun _ => .ite (skipsIdent.next fun _ => (skipsExpect _).next fun _ => h.expression.next fun _ => .pure fitsOther)
    h.expression

theorem drawsStarNamed (h : g.Drawing) : Draws n (starNamed g) (Fits n) :=
  (skipsAccept _).next fun _ => .ite (h.bitOr.bind fun _ fits => .pure (fitsStarred.2 fits)) (drawsNamed h)

theorem drawsStarExpression (h : g.Drawing) : Draws n (starExpression g) (Fits n) :=
  (skipsAccept _).next fun _ => .ite (h.bitOr.bind fun _ fits => .pure (fitsStarred.2 fits)) h.expression

/- A single item without a comma stands for itself. -/
theorem drawsItems {items : List Expr} (fits : ∀ e ∈ items, Fits n e) (comma : Bool) : Draws n
    (match items with
      | [e] => Pure.pure (if comma then .tuple [e] else e)
      | _ => Pure.pure (.tuple items)) (Fits n) := by
  split
  · refine .pure ?_
    split <;> simpa using fits
  · exact .pure ((fitsTuple _).2 fits)

theorem drawsStarExpressions (h : g.Drawing) : Draws n (starExpressions g) (Fits n) :=
  (drawsCommaList (drawsStarExpression h) _).bind fun _ fits => drawsItems fits _

theorem drawsYieldTail (h : g.Drawing) : Draws n (yieldTail g) (Fits n) :=
  (skipsAccept _).next fun _ => .ite (h.expression.next fun _ => .pure fitsOther)
    (skipsPeek.next fun _ => .optional (drawsStarExpressions h) (.pure fitsOther))

theorem drawsYieldOrExpressions (h : g.Drawing) : Draws n (yieldOrExpressions g) (Fits n) :=
  (skipsAccept _).next fun _ => .ite (drawsYieldTail h) (drawsStarExpressions h)

theorem drawsStarTarget (h : g.Drawing) : Draws n (starTarget g) (Fits n) :=
  (skipsAccept _).next fun _ => h.primary.bind fun _ fits => .ite (.pure (by split <;> simpa using fits)) .fail

theorem drawsStarTargets (h : g.Drawing) : Draws n (starTargets g) (Fits n) :=
  (drawsCommaList (drawsStarTarget h) _).bind fun _ fits => drawsItems fits _

/-! Comprehensions and displays. -/

theorem skipsConditions (h : g.Drawing) : Skips n (comprehensionConditions g) :=
  .loop (fun _ _ => (skipsAccept _).next fun _ => .ite (h.disjunction.next fun _ => .pure trivial) (.pure trivial)) _ trivial

theorem skipsAtClause : Skips n atClause := by
  refine skipsPeek.next fun t => ?_
  split
  · exact .pure trivial
  · exact skipsPeekSecond.next fun _ => .pure trivial
  · exact .pure trivial

theorem skipsClauses (h : g.Drawing) : Skips n (comprehensionClauses g) :=
  .loop (fun _ _ => (skipsAccept _).next fun _ => (skipsExpect _).next fun _ => (drawsStarTargets h).next fun _ =>
    (skipsExpect _).next fun _ => h.disjunction.next fun _ => (skipsConditions h).next fun _ =>
    skipsAtClause.next fun _ => .pure trivial) _ trivial

/- What only an expression without a star is read on with. -/
theorem drawsUnstarred {α : Type} {good : α → Prop} {first : Expr} {next : Unit → Parse α} (rest : Draws n (next ()) good) :
    Draws n (match first with
      | .starred _ => failure >>= next
      | _ => next ()) good := by
  split
  · exact skipsFail.next fun _ => rest
  · exact rest

theorem drawsParenthesized (h : g.Drawing) : Draws n (parenthesized g) (Fits n) := by
  refine (skipsAccept _).next fun _ => .ite (.pure (by simp)) ((skipsAccept _).next fun _ => .ite ?_ ?_)
  · exact (drawsYieldTail h).bind fun _ fits => (skipsExpect _).next fun _ => .pure fits
  refine (drawsStarNamed h).bind fun first fits => skipsAtClause.next fun _ => .ite ?_ ((skipsAccept _).next fun _ => .ite ?_ ?_)
  · exact drawsUnstarred ((skipsClauses h).next fun _ => (skipsExpect _).next fun _ => .pure fitsOther)
  · refine (skipsAccept _).next fun _ => .ite (.pure (by simpa using fits)) ?_
    exact (drawsCommaList (drawsStarNamed h) _).bind fun _ others => (skipsExpect _).next fun _ => .pure (by simpa using ⟨fits, others⟩)
  · exact (skipsExpect _).next fun _ => drawsUnstarred (.pure fits)

theorem drawsBracketed (h : g.Drawing) : Draws n (bracketed g) (Fits n) := by
  refine (skipsAccept _).next fun _ => .ite (.pure (by simp)) ?_
  refine (drawsStarNamed h).bind fun first fits => skipsAtClause.next fun _ => .ite ?_ ((skipsAccept _).next fun _ => .ite ?_ ?_)
  · exact drawsUnstarred ((skipsClauses h).next fun _ => (skipsExpect _).next fun _ => .pure (fitsContainer _))
  · refine (skipsAccept _).next fun _ => .ite (.pure (by simpa using fits)) ?_
    exact (drawsCommaList (drawsStarNamed h) _).bind fun _ others => (skipsExpect _).next fun _ => .pure (by simpa using ⟨fits, others⟩)
  · exact (skipsExpect _).next fun _ => .pure (by simpa using fits)

theorem skipsDictEntry (h : g.Drawing) : Skips n (dictEntry g) :=
  (skipsAccept _).next fun _ => .ite (h.bitOr.next fun _ => .pure trivial)
    (h.expression.next fun _ => (skipsExpect _).next fun _ => h.expression.next fun _ => .pure trivial)

/- The closing brace, after which there is a new container. -/
theorem drawsClosed (close : String) (kind : Container) :
    Draws n (op close >>= fun _ => Pure.pure (Expr.container kind)) (Fits n) :=
  (skipsExpect _).next fun _ => .pure (fitsContainer _)

theorem drawsDictEntries (h : g.Drawing) : Draws n (dictEntries g) (Fits n) :=
  (skipsAccept _).next fun _ => .ite (skipsPeek.next fun _ => .optional (drawsCommaList (skipsDictEntry h) _) (drawsClosed _ _))
    (drawsClosed _ _)

theorem drawsBraced (h : g.Drawing) : Draws n (braced g) (Fits n) := by
  refine (skipsAccept _).next fun _ => .ite (.pure (by simp)) ((skipsAccept _).next fun _ => .ite ?_ ?_)
  · exact h.bitOr.next fun _ => drawsDictEntries h
  refine skipsAtNamed.next fun _ => (drawsStarNamed h).next fun first => (skipsAccept _).next fun _ => .ite ?_ ?_
  · exact h.expression.next fun _ => skipsAtClause.next fun _ => .ite ((skipsClauses h).next fun _ => drawsClosed _ _) (drawsDictEntries h)
  refine skipsAtClause.next fun _ => .ite ((skipsClauses h).next fun _ => drawsClosed _ _) ?_
  exact (skipsAccept _).next fun _ => .ite (skipsPeek.next fun _ => .optional (drawsCommaList (drawsStarNamed h) _) (drawsClosed _ _))
    (drawsClosed _ _)

/-! Literals. -/

theorem skipsConversion : Skips n conversion := by
  refine (skipsAccept _).next fun _ => .ite (skipsPeek.next fun t => ?_) (.pure trivial)
  split
  · exact .ite skipsAdvance .fail
  · exact .fail

theorem skipsFormattedContents (h : g.Drawing) (depth : Nat) : Skips n (formattedContents g depth) := by
  induction depth with
  | zero => exact .fail
  | succ depth ih =>
    refine .loop (fun _ _ => (skipsAccept _).next fun _ => .ite (.pure trivial) ((skipsAccept _).next fun _ => .ite ?_ (.pure trivial)))
      _ trivial
    exact (drawsYieldOrExpressions h).next fun _ => (skipsAccept _).next fun _ => skipsConversion.next fun _ =>
      (skipsAccept _).next fun _ => .optional ih ((skipsExpect _).next fun _ => .pure trivial)

/- Each round takes from the tokens what it adds. -/
theorem drawsGathered {α : Type} (weight : α → Nat) {step : α → Parse (α × Bool)}
    (each : ∀ a ts r rest, step a ts = some (r, rest) → weight r.1 + literalsLength rest ≤ weight a + literalsLength ts)
    (rounds : Nat) {a : α} (start : weight a = 0) : Draws n (loop step rounds a) (weight · ≤ n) := by
  have all : ∀ rounds a ts b rest, loop step rounds a ts = some (b, rest) →
      weight b + literalsLength rest ≤ weight a + literalsLength ts := by
    intro rounds
    induction rounds with
    | zero => intro a ts b rest read; cases read
    | succ rounds ih =>
      intro a ts b rest read
      obtain ⟨r, more, first, after⟩ := bindRead read
      have once := each a ts r more first
      dsimp only at after
      split at after
      · exact Nat.le_trans (ih r.1 more b rest after) once
      · cases after
        exact once
  intro ts b rest light read
  have total := all rounds a ts b rest read
  omega

theorem piecesLengthAdd (pieces : List LiteralPiece) (p : LiteralPiece) :
    piecesLength (pieces ++ [p]) = piecesLength pieces + p.length := by
  induction pieces with
  | nil => exact Nat.add_comm _ _
  | cons q pieces ih => rw [List.cons_append, piecesLengthCons, piecesLengthCons, ih, Nat.add_assoc]

theorem drawsLiteral (h : g.Drawing) : Draws n (literal g) (Fits n) := by
  refine (drawsGathered piecesLength ?_ _ rfl).bind fun pieces fits => .pure ((fitsLiteral _).2 fits)
  intro pieces ts r rest read
  cases ts with
  | nil =>
    cases read
    exact Nat.le_refl _
  | cons t ts =>
    obtain ⟨kind, position⟩ := t
    cases kind with
    | string raw =>
      cases read
      rw [piecesLengthAdd, Nat.add_assoc]
      exact Nat.le_refl _
    | formattedStart =>
      -- The expressions in a formatted literal are passed over, with the literals in them.
      have formatted : Draws (literalsLength ts) (formattedContents g (g.bound + 1) >>= fun _ => expect .formattedEnd >>= fun _ =>
          Pure.pure (pieces ++ [LiteralPiece.formatted], true)) (·.1 = pieces ++ [.formatted]) :=
        (skipsFormattedContents h _).next fun _ => (skipsExpect _).next fun _ => .pure rfl
      obtain ⟨less, added⟩ := formatted ts r rest (Nat.le_refl _) read
      rw [added, piecesLengthAdd]
      exact Nat.add_le_add_left (Nat.le_trans less (Nat.le_add_left _ _)) _
    | _ =>
      cases read
      exact Nat.le_refl _

/-! From atoms to operators. -/

theorem drawsAtom (h : g.Drawing) : Draws n (atom g) (Fits n) := by
  refine skipsHere.next fun start => skipsPeek.next fun kind => ?_
  split
  · split
    · exact skipsAdvance.next fun _ => .pure (fitsConstant _)
    · exact skipsIdent.next fun _ => .pure (fitsName _ _)
  · exact skipsAdvance.next fun _ => .pure fitsOther
  · exact drawsLiteral h
  · exact drawsLiteral h
  · refine skipsAdvance.next fun _ => ?_
    split
    · exact drawsParenthesized h
    · exact drawsBracketed h
    · exact drawsBraced h
    · exact .pure fitsOther
    · exact .fail
  · exact .fail

theorem drawsArgument (h : g.Drawing) (phase : ArgumentPhase) : Draws n (argument g phase) fun r => ∀ a ∈ r.2, Fits n a.2 := by
  refine (skipsAccept _).next fun _ => .ite ?_ ((skipsAccept _).next fun _ => .ite ?_ (skipsPeek.next fun _ =>
    skipsPeekSecond.next fun _ => .ite ?_ ?_))
  · exact h.expression.bind fun _ fits => .ite .fail (.pure (by simpa using fits))
  · exact h.expression.next fun _ => .pure (by simp)
  · exact skipsIdent.next fun _ => (skipsExpect _).next fun _ => h.expression.bind fun _ fits => .pure (by simpa using fits)
  · exact (drawsNamed h).bind fun _ fits => .ite (.pure (by simpa using fits)) .fail

theorem drawsArguments (h : g.Drawing) (generator : Bool) : Draws n (arguments g generator) fun args => ∀ a ∈ args, Fits n a.2 := by
  refine (skipsAccept _).next fun _ => .ite (.pure (by simp)) (skipsPeek.next fun _ => (drawsArgument h _).bind fun first fits =>
    skipsAtClause.next fun _ => .ite ?_ ?_)
  · exact (skipsClauses h).next fun _ => (skipsExpect _).next fun _ => .pure (by simp)
  refine (Draws.loop (fun state (before : ∀ a ∈ state.2, Fits n a.2) => ?_) _ fits).bind fun _ fits =>
    (skipsExpect _).next fun _ => .pure fits
  refine (skipsAccept _).next fun _ => .ite (skipsPeek.next fun _ => .ite ?_ (.pure before)) (.pure before)
  exact (drawsArgument h _).bind fun _ added => .pure fun a inside => (List.mem_append.1 inside).elim (before a) (added a)

theorem skipsSliceTail (h : g.Drawing) : Skips n (sliceTail g) :=
  skipsPeek.next fun _ => .optional h.expression ((skipsAccept _).next fun _ => .ite
    (skipsPeek.next fun _ => .optional h.expression (.pure trivial)) (.pure trivial))

theorem drawsSubscriptItem (h : g.Drawing) : Draws n (subscriptItem g) fun es => ∀ e ∈ es, Fits n e := by
  refine (skipsAccept _).next fun _ => .ite ?_ ((skipsAccept _).next fun _ => .ite ?_ ?_)
  · exact (skipsSliceTail h).next fun _ => .pure (by simp)
  · exact h.expression.bind fun _ fits => .pure (by simpa using fits)
  refine skipsAtNamed.next fun _ => (drawsNamed h).bind fun _ fits => (skipsAccept _).next fun _ => .ite ?_ (.pure (by simpa using fits))
  exact (skipsSliceTail h).next fun _ => .pure (by simp)

theorem drawsTrailer (h : g.Drawing) (start : Position) {e : Expr} (fits : Fits n e) :
    Draws n (trailer g start e) fun r => Fits n r.1 := by
  refine (skipsAccept _).next fun _ => .ite ?_ ((skipsAccept _).next fun _ => .ite ?_ ((skipsAccept _).next fun _ => .ite ?_ (.pure fits)))
  · exact skipsIdent.next fun _ => .pure (by simpa using fits)
  · exact (drawsArguments h _).bind fun _ args => .pure ((fitsCall _).2 ⟨fits, args⟩)
  · refine (drawsCommaList (drawsSubscriptItem h) _).bind fun _ items => (skipsExpect _).next fun _ =>
      .pure ((fitsSubscript _).2 ⟨fits, ?_⟩)
    intro e inside
    obtain ⟨item, here, among⟩ := List.mem_flatten.1 inside
    exact items item here e among

theorem drawsPrimary (h : g.Drawing) : Draws n (primary g) (Fits n) :=
  skipsHere.next fun start => (drawsAtom h).bind fun _ fits => .loop (fun _ fits => drawsTrailer h start fits) _ fits

theorem drawsPower (h : g.Drawing) : Draws n (power g) (Fits n) := by
  have awaits : Draws n (awaited g) (Fits n) :=
    (skipsAccept _).next fun _ => .ite (h.primary.next fun _ => .pure fitsOther) (drawsPrimary h)
  refine awaits.bind fun _ base => (skipsAccept _).next fun _ => .ite ?_ (.pure base)
  exact h.factor.bind fun _ fits => .pure ((fitsBinary _ _ _).2 ⟨base, fits⟩)

theorem drawsFactor (h : g.Drawing) : Draws n (factor g) (Fits n) := by
  refine skipsPeek.next fun kind => ?_
  split
  · exact .ite (skipsAdvance.next fun _ => h.factor.next fun _ => .pure fitsOther) (drawsPower h)
  · exact drawsPower h

theorem drawsLink {ops : List String} {operand : Parse Expr} (each : Draws n operand (Fits n)) {left : Expr} (fits : Fits n left) :
    Draws n (link ops operand left) fun r => Fits n r.1 := by
  refine skipsPeek.next fun kind => ?_
  split
  · exact .ite (skipsAdvance.next fun _ => each.bind fun _ right => .pure ((fitsBinary _ _ _).2 ⟨fits, right⟩)) (.pure fits)
  · exact .pure fits

theorem drawsChain {ops : List String} {operand : Parse Expr} (each : Draws n operand (Fits n)) (bound : Nat) :
    Draws n (chain bound ops operand) (Fits n) :=
  each.bind fun _ fits => .loop (fun _ fits => drawsLink each fits) _ fits

theorem drawsBitOr (h : g.Drawing) : Draws n (bitOr g) (Fits n) :=
  drawsChain (drawsChain (drawsChain (drawsChain (drawsChain (drawsChain (drawsFactor h) _) _) _) _) _) _

theorem skipsComparisonOp : Skips n comparisonOp := by
  refine skipsPeek.next fun kind => ?_
  split
  · exact .ite (skipsAdvance.next fun _ => .pure trivial) (.pure trivial)
  · exact skipsAdvance.next fun _ => .pure trivial
  · exact skipsAdvance.next fun _ => (skipsAccept _).next fun _ => .pure trivial
  · exact skipsPeekSecond.next fun _ => .ite (skipsAdvance.next fun _ => skipsAdvance.next fun _ => .pure trivial) (.pure trivial)
  · exact .pure trivial

theorem drawsJoined {operator : Parse Bool} (taken : Skips n operator) {operand : Parse Expr} (each : Draws n operand (Fits n))
    (bound : Nat) : Draws n (joined bound operator operand) (Fits n) :=
  each.bind fun _ fits => .loop
    (fun _ left => taken.next fun _ => .ite (each.next fun _ => .pure fitsOther) (.pure left)) _ fits

theorem drawsInversion (h : g.Drawing) : Draws n (inversion g) (Fits n) :=
  (skipsAccept _).next fun _ => .ite (h.inversion.next fun _ => .pure fitsOther) (drawsJoined skipsComparisonOp (drawsBitOr h) _)

theorem drawsDisjunction (h : g.Drawing) : Draws n (disjunction g) (Fits n) :=
  drawsJoined (skipsAccept _) (drawsJoined (skipsAccept _) (drawsInversion h) _) _

/-! Parameters, and whole expressions. -/

/- The types written behind the names of parameters. -/
def Parameters.types (params : Parameters) : List Expr :=
  (params.positionalOnly ++ params.regular ++ params.keywordOnly).filterMap (·.type)

theorem drawsParameterType (h : g.Drawing) (annotated starred : Bool) :
    Draws n (parameterType g annotated starred) fun type => ∀ t ∈ type, Fits n t := by
  refine .ite ((skipsAccept _).next fun _ => .ite (.ite ?_ ?_) (.pure (by simp))) (.pure (by simp))
  · exact (drawsStarExpression h).bind fun _ fits => .pure (by simpa using fits)
  · exact h.expression.bind fun _ fits => .pure (by simpa using fits)

theorem drawsParameterItem (h : g.Drawing) (annotated : Bool) {s : ParameterState} (before : ∀ t ∈ s.params.types, Fits n t) :
    Draws n (parameterItem g annotated s) fun s => ∀ t ∈ s.params.types, Fits n t := by
  refine .ite .fail ((skipsAccept _).next fun _ => .ite (.ite .fail (.pure ?_)) ((skipsAccept _).next fun _ => .ite (.ite .fail ?_)
    ((skipsAccept _).next fun _ => .ite (.ite .fail ?_) ?_)))
  · exact fun t inside => before t (by simp [Parameters.types] at inside ⊢; grind)
  · exact skipsPeek.next fun _ => .ite (skipsIdent.next fun _ => (drawsParameterType h _ _).next fun _ => .pure before) (.pure before)
  · exact skipsIdent.next fun _ => (drawsParameterType h _ _).next fun _ => .pure before
  · refine skipsIdent.next fun name => (drawsParameterType h _ _).bind fun type fits => (skipsAccept _).next fun _ =>
      .optional h.expression ?_
    have added : ∀ t, t ∈ s.params.types ∨ t ∈ type → Fits n t := fun t known => known.elim (before t) (fits t)
    exact .ite (.pure fun t inside => added t (by simp [Parameters.types] at inside ⊢; grind))
      (.ite .fail (.pure fun t inside => added t (by simp [Parameters.types] at inside ⊢; grind)))

theorem drawsParameters (h : g.Drawing) (annotated : Bool) (close : String) :
    Draws n (parameters g annotated close) fun params => ∀ t ∈ params.types, Fits n t := by
  have empty : ∀ t ∈ Parameters.types {}, Fits n t := fun t inside => by cases inside
  refine (skipsAccept _).next fun _ => .ite (.pure empty) ?_
  refine (Draws.loop (fun (s : ParameterState) (before : ∀ t ∈ s.params.types, Fits n t) => ?_) _ empty).bind fun _ fits =>
    .ite .fail (.pure fits)
  refine (drawsParameterItem h annotated before).bind fun s fits => (skipsAccept _).next fun _ => .ite ?_ ?_
  · exact (skipsAccept _).next fun _ => .ite (.pure fits) (.pure fits)
  · exact (skipsExpect _).next fun _ => .pure fits

theorem drawsExpression (h : g.Drawing) : Draws n (expression g) (Fits n) := by
  refine (skipsAccept _).next fun _ => .ite ?_ ((drawsDisjunction h).bind fun _ fits => (skipsAccept _).next fun _ => .ite ?_ (.pure fits))
  · exact (drawsParameters h _ _).next fun _ => h.expression.next fun _ => .pure fitsOther
  · exact (drawsDisjunction h).next fun _ => (skipsExpect _).next fun _ => h.expression.next fun _ => .pure fitsOther

/- The readers of no level read nothing, those of the next one draw from what the ones below them draw. -/
theorem grammarDrawing (levels : Nat) : (grammar levels).Drawing := by
  induction levels with
  | zero => exact ⟨.fail, .fail, .fail, .fail, .fail, .fail⟩
  | succ levels ih =>
    exact ⟨drawsExpression ih, drawsDisjunction ih, drawsInversion ih, drawsBitOr ih, drawsFactor ih, drawsPrimary ih⟩

theorem drawsExpressionLine (h : g.Drawing) : Draws n (expressionLine g) (Fits n) :=
  (drawsStarExpressions h).bind fun _ fits => (skipsExpect _).next fun _ => (skipsExpect _).next fun _ => .pure fits

end Readers

end SharedState.Source
