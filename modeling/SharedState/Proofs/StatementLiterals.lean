import SharedState.Proofs.WrittenLiterals

/-! Literals in statements. The expressions of a statement, at any depth of blocks, hold no literal that is longer than those of the
tokens. -/
namespace SharedState.Source

open Parse SharedState.Source.Expr

namespace Stmt

mutual
/- The expressions of a statement: its own, and those of the statements in its blocks. -/
def expressions : Stmt → List Expr
  | .assign targets value => targets ++ [value]
  | .annAssign target type value => [target, type] ++ value.toList
  | .classDef _ decorators bases body _ => decorators ++ bases ++ allExpressions body
  | .functionDef _ decorators params returns body _ => decorators ++ params.types ++ returns.toList ++ allExpressions body
  | .compound body => allExpressions body
  | .importNames _ | .importFrom _ _ _ | .other => []
def allExpressions : List Stmt → List Expr
  | [] => []
  | s :: rest => s.expressions ++ allExpressions rest
end

/- No literal in a statement is longer than so many characters. -/
def Fits (n : Nat) (s : Stmt) : Prop := ∀ e ∈ s.expressions, e.Fits n

def AllFit (n : Nat) (body : List Stmt) : Prop := ∀ e ∈ allExpressions body, e.Fits n

variable {n : Nat} {body more : List Stmt}

theorem allFitNil : AllFit n [] := fun _ inside => absurd inside List.not_mem_nil

theorem allFitSingle {s : Stmt} (fits : s.Fits n) : AllFit n [s] := List.forall_mem_append.2 ⟨fits, allFitNil⟩

theorem allFitAppend (first : AllFit n body) (second : AllFit n more) : AllFit n (body ++ more) := by
  induction body with
  | nil => exact second
  | cons s body ih =>
    have both := List.forall_mem_append.1 first
    exact List.forall_mem_append.2 ⟨both.1, ih both.2⟩

theorem fitsOther : Fits n .other := fun _ inside => absurd inside List.not_mem_nil

theorem fitsImport (names : List ImportedName) : Fits n (.importNames names) := fun _ inside => absurd inside List.not_mem_nil

theorem fitsImportFrom (level : Nat) (module : Option DottedPath) (names : Option (List ImportedName)) :
    Fits n (.importFrom level module names) :=
  fun _ inside => absurd inside List.not_mem_nil

theorem fitsCompound (inner : AllFit n body) : Fits n (.compound body) := inner

theorem fitsAssign {targets : List Expr} {value : Expr} (left : ∀ t ∈ targets, t.Fits n) (right : value.Fits n) :
    Fits n (.assign targets value) :=
  List.forall_mem_append.2 ⟨left, List.forall_mem_singleton.2 right⟩

theorem fitsAnnAssign {target type : Expr} {value : Option Expr} (left : target.Fits n) (typed : type.Fits n)
    (right : ∀ e ∈ value, e.Fits n) : Fits n (.annAssign target type value) :=
  List.forall_mem_cons.2 ⟨left, List.forall_mem_cons.2 ⟨typed, fun e inside => right e (Option.mem_toList.1 inside)⟩⟩

theorem fitsClass {name : Identifier} {decorators bases : List Expr} {start : Position} (marks : ∀ d ∈ decorators, d.Fits n)
    (parents : ∀ b ∈ bases, b.Fits n) (inner : AllFit n body) : Fits n (.classDef name decorators bases body start) :=
  List.forall_mem_append.2 ⟨List.forall_mem_append.2 ⟨marks, parents⟩, inner⟩

theorem fitsFunction {name : Identifier} {decorators : List Expr} {params : Parameters} {returns : Option Expr} {start : Position}
    (marks : ∀ d ∈ decorators, d.Fits n) (inputs : ∀ t ∈ params.types, t.Fits n) (output : ∀ e ∈ returns, e.Fits n)
    (inner : AllFit n body) : Fits n (.functionDef name decorators params returns body start) := by
  have signature := List.forall_mem_append.2 ⟨marks, inputs⟩
  have result : ∀ e ∈ returns.toList, e.Fits n := fun e inside => output e (Option.mem_toList.1 inside)
  exact List.forall_mem_append.2 ⟨List.forall_mem_append.2 ⟨signature, result⟩, inner⟩

end Stmt

section Readers

variable {n : Nat} {g : Grammar}

/-! Patterns. -/

theorem skipsNumberPattern : Skips n numberPattern := by
  refine (skipsAccept _).next fun _ => skipsPeek.next fun kind => ?_
  split
  · refine skipsAdvance.next fun _ => .ite (skipsPeek.next fun sign => ?_) (.pure trivial)
    split
    · exact .ite (skipsAdvance.next fun _ => skipsExpect _) (.pure trivial)
    · exact .pure trivial
  · exact .fail

theorem skipsStringPattern (h : g.Drawing) : Skips n (stringPattern g) := (drawsLiteral h).next fun _ => .pure trivial

theorem skipsDottedTail (bound : Nat) : Skips n (dottedTail bound) :=
  .loop (fun _ _ => (skipsAccept _).next fun _ => .ite (skipsIdent.next fun _ => .pure trivial) (.pure trivial)) _ trivial

theorem skipsStarPattern {pattern : Parse Unit} (each : Skips n pattern) : Skips n (starPattern pattern) :=
  (skipsAccept _).next fun _ => .ite (skipsIdent.next fun _ => .pure trivial) each

theorem skipsClassPattern {pattern : Parse Unit} (each : Skips n pattern) (bound : Nat) : Skips n (classPattern bound pattern) := by
  refine (skipsAccept _).next fun _ => .ite (.pure trivial) ?_
  refine Draws.next (Draws.loop (fun (_ : Bool) (_ : True) => ?_) _ trivial) fun _ => .pure trivial
  refine skipsPeek.next fun _ => skipsPeekSecond.next fun _ => Draws.next (show Skips n _ from .ite ?_ (.ite .fail ?_)) fun _ =>
    (skipsAccept _).next fun _ => .ite ?_ ?_
  · exact skipsIdent.next fun _ => (skipsExpect _).next fun _ => each.next fun _ => .pure trivial
  · exact each.next fun _ => .pure trivial
  · exact (skipsAccept _).next fun _ => .ite (.pure trivial) (.pure trivial)
  · exact (skipsExpect _).next fun _ => .pure trivial

theorem skipsMappingEntry (h : g.Drawing) {pattern : Parse Unit} (each : Skips n pattern) : Skips n (mappingEntry g pattern) := by
  have value : Skips n (op ":" >>= fun _ => pattern) := (skipsExpect _).next fun _ => each
  refine skipsPeek.next fun kind => ?_
  dsimp only
  split
  · exact .ite (skipsAdvance.next fun _ => value) (skipsIdent.next fun _ => (skipsDottedTail _).next fun _ => .optional skipsFail value)
  · exact (skipsStringPattern h).next fun _ => value
  · exact (skipsStringPattern h).next fun _ => value
  · exact skipsNumberPattern.next fun _ => value

theorem skipsMappingPattern (h : g.Drawing) {pattern : Parse Unit} (each : Skips n pattern) : Skips n (mappingPattern g pattern) := by
  refine (skipsAccept _).next fun _ => .ite (.pure trivial) (.loop (fun _ _ => (skipsAccept _).next fun _ => .ite ?_ ?_) _ trivial)
  · exact skipsIdent.next fun _ => (skipsAccept _).next fun _ => (skipsExpect _).next fun _ => .pure trivial
  refine (skipsMappingEntry h each).next fun _ => (skipsAccept _).next fun _ => .ite ?_ ?_
  · exact (skipsAccept _).next fun _ => .ite (.pure trivial) (.pure trivial)
  · exact (skipsExpect _).next fun _ => .pure trivial

theorem skipsClosedPattern (h : g.Drawing) {pattern : Parse Unit} (each : Skips n pattern) : Skips n (closedPattern g pattern) := by
  refine skipsPeek.next fun kind => ?_
  split
  · exact .ite skipsAdvance (skipsIdent.next fun _ => (skipsDottedTail _).next fun _ => (skipsAccept _).next fun _ =>
      .ite (skipsClassPattern each _) (.pure trivial))
  · exact skipsStringPattern h
  · exact skipsStringPattern h
  · refine skipsAdvance.next fun _ => (skipsAccept _).next fun _ => .ite (.pure trivial) (skipsPeek.next fun _ => ?_)
    exact (drawsCommaList (skipsStarPattern each) _).next fun _ => (skipsExpect _).next fun _ => .ite .fail (.pure trivial)
  · refine skipsAdvance.next fun _ => (skipsAccept _).next fun _ => .ite (.pure trivial) ?_
    exact (drawsCommaList (skipsStarPattern each) _).next fun _ => skipsExpect _
  · exact skipsAdvance.next fun _ => skipsMappingPattern h each
  · exact skipsNumberPattern

theorem skipsAsPattern (h : g.Drawing) (depth : Nat) : Skips n (asPattern g depth) := by
  induction depth with
  | zero => exact .fail
  | succ depth ih =>
    have closed := skipsClosedPattern h ih
    refine closed.next fun _ => Draws.next (Draws.loop (fun _ (_ : True) => ?_) _ trivial) fun _ => (skipsAccept _).next fun _ => ?_
    · exact (skipsAccept _).next fun _ => .ite (closed.next fun _ => .pure trivial) (.pure trivial)
    · exact .ite (skipsIdent.next fun _ => .ite .fail (.pure trivial)) (.pure trivial)

theorem skipsCasePattern (h : g.Drawing) : Skips n (casePattern g) :=
  skipsPeek.next fun _ => (drawsCommaList (skipsStarPattern (skipsAsPattern h _)) _).next fun _ => .ite .fail (.pure trivial)

/-! Statements without blocks. -/

theorem drawsWithLast {α : Type} {good : α → Prop} {p : Parse α} (draws : Draws n p good) : Draws n (withLast p) (good ·.1) := by
  intro ts a rest light read
  unfold withLast at read
  split at read
  · cases read
  · rename_i done
    cases read
    exact draws ts _ _ light done

theorem drawsAssignments (h : g.Drawing) {first : Expr} (fits : first.Fits n) : Draws n (assignments g first) (Stmt.Fits n) := by
  have start : ∀ e ∈ [first], e.Fits n := fun e here => List.mem_singleton.1 here ▸ fits
  refine .optional skipsFail ((Draws.loop (fun state (before : (∀ e ∈ state.1, e.Fits n) ∧ state.2.Fits n) => ?_) _
    ⟨start, fitsOther⟩).bind fun _ fine => .pure (Stmt.fitsAssign fine.1 fine.2))
  refine (skipsExpect _).next fun _ => (skipsAccept _).next fun _ => .ite ?_ ?_
  · exact (drawsYieldTail h).bind fun _ value => .pure ⟨before.1, value⟩
  refine (drawsStarExpressions h).bind fun e value => skipsPeek.next fun _ =>
    .ite (.ite (.pure ⟨?_, value⟩) .fail) (.pure ⟨before.1, value⟩)
  intro t here
  rcases List.mem_append.1 here with old | new
  · exact before.1 t old
  · exact List.mem_singleton.1 new ▸ value

theorem drawsExpressionStatement (h : g.Drawing) : Draws n (expressionStatement g) (Stmt.Fits n) := by
  refine skipsPeek.next fun first => (drawsWithLast (drawsStarExpressions h)).bind fun r fits => skipsPeek.next fun kind => ?_
  dsimp only
  split
  · refine skipsAdvance.next fun _ => .optional skipsFail (h.expression.bind fun type typed => (skipsAccept _).next fun _ => .ite ?_ ?_)
    · exact (drawsYieldOrExpressions h).bind fun value right => .pure (Stmt.fitsAnnAssign fits typed (by simpa using right))
    · exact .pure (Stmt.fitsAnnAssign fits typed (by simp))
  · exact drawsAssignments h fits
  · refine .ite (skipsAdvance.next fun _ => .optional skipsFail ?_) (.pure Stmt.fitsOther)
    exact (drawsYieldOrExpressions h).next fun _ => .pure Stmt.fitsOther
  · exact .pure Stmt.fitsOther

theorem skipsDottedName (bound : Nat) : Skips n (dottedName bound) :=
  skipsIdent.next fun _ => .loop (fun _ _ => (skipsAccept _).next fun _ => .ite (skipsIdent.next fun _ => .pure trivial) (.pure trivial))
    _ trivial

theorem skipsAsName : Skips n asName :=
  (skipsAccept _).next fun _ => .ite (skipsIdent.next fun _ => .pure trivial) (.pure trivial)

theorem skipsSeparated {α : Type} {item : Parse α} (each : Skips n item) (bound : Nat) : Skips n (separated bound item) :=
  each.next fun _ => .loop (fun _ _ => (skipsAccept _).next fun _ => .ite (each.next fun _ => .pure trivial) (.pure trivial)) _ trivial

theorem drawsImport (g : Grammar) : Draws n (importStatement g) (Stmt.Fits n) :=
  (skipsSeparated ((skipsDottedName _).next fun _ => skipsAsName.next fun _ => .pure trivial) _).next fun _ => .pure (Stmt.fitsImport _)

theorem skipsImportTargets (g : Grammar) : Skips n (importTargets g) := by
  have item : Skips n (ident >>= fun id => asName >>= fun as => Pure.pure (⟨{ first := id }, as⟩ : ImportedName)) :=
    skipsIdent.next fun _ => skipsAsName.next fun _ => .pure trivial
  refine (skipsAccept _).next fun _ => .ite (.pure trivial) ((skipsAccept _).next fun _ => .ite ?_ ?_)
  · exact (drawsCommaList item _).next fun _ => (skipsExpect _).next fun _ => .pure trivial
  · exact (skipsSeparated item _).next fun _ => .pure trivial

theorem skipsImportLevel (g : Grammar) : Skips n (importLevel g) :=
  .loop (fun _ _ => (skipsAccept _).next fun _ => .ite (.pure trivial)
    ((skipsAccept _).next fun _ => .ite (.pure trivial) (.pure trivial))) _ trivial

theorem drawsImportFrom (g : Grammar) : Draws n (importFromStatement g) (Stmt.Fits n) := by
  refine (skipsImportLevel g).next fun _ => Draws.next (show Skips n _ from skipsPeek.next fun _ => .ite (.pure trivial) ?_) fun _ => ?_
  · exact (skipsDottedName _).next fun _ => .pure trivial
  · exact (skipsExpect _).next fun _ => (skipsImportTargets g).next fun _ => .pure (Stmt.fitsImportFrom _ _ _)

theorem drawsDelete (h : g.Drawing) : Draws n (deleteStatement g) (Stmt.Fits n) :=
  (drawsCommaList (h.primary (n := n)) _).next fun _ => .ite (.pure Stmt.fitsOther) .fail

theorem drawsRaise (h : g.Drawing) : Draws n (raiseStatement g) (Stmt.Fits n) :=
  skipsPeek.next fun _ => .ite
    (h.expression.next fun _ => (skipsAccept _).next fun _ => .optional h.expression (.pure Stmt.fitsOther)) (.pure Stmt.fitsOther)

theorem drawsAssert (h : g.Drawing) : Draws n (assertStatement g) (Stmt.Fits n) :=
  h.expression.next fun _ => (skipsAccept _).next fun _ => .optional h.expression (.pure Stmt.fitsOther)

theorem skipsTypeParameter (h : g.Drawing) : Skips n (typeParameter g) := by
  refine (skipsAccept _).next fun _ => .ite ?_ ((skipsAccept _).next fun _ => .ite ?_ ?_)
  · exact skipsIdent.next fun _ => (skipsAccept _).next fun _ => .optional (drawsStarExpression h) (.pure trivial)
  · exact skipsIdent.next fun _ => (skipsAccept _).next fun _ => .optional h.expression (.pure trivial)
  · exact skipsIdent.next fun _ => (skipsAccept _).next fun _ => .optional h.expression
      ((skipsAccept _).next fun _ => .optional h.expression (.pure trivial))

theorem skipsTypeParameters (h : g.Drawing) : Skips n (typeParameters g) :=
  (skipsAccept _).next fun _ => .ite ((drawsCommaList (skipsTypeParameter h) _).next fun _ => skipsExpect _) (.pure trivial)

theorem drawsTypeStatement (h : g.Drawing) : Draws n (typeStatement g) (Stmt.Fits n) :=
  skipsIdent.next fun _ => (skipsTypeParameters h).next fun _ => (skipsExpect _).next fun _ => h.expression.next fun _ =>
    .pure Stmt.fitsOther

theorem drawsSmallStatement (h : g.Drawing) : Draws n (smallStatement g) (Stmt.Fits n) := by
  refine skipsPeek.next fun kind => ?_
  split
  · exact skipsAdvance.next fun _ => skipsPeek.next fun _ => .optional (drawsStarExpressions h) (.pure Stmt.fitsOther)
  · exact skipsAdvance.next fun _ => drawsImport g
  · exact skipsAdvance.next fun _ => drawsImportFrom g
  · exact skipsAdvance.next fun _ => drawsRaise h
  · exact skipsAdvance.next fun _ => .pure Stmt.fitsOther
  · exact skipsAdvance.next fun _ => .pure Stmt.fitsOther
  · exact skipsAdvance.next fun _ => .pure Stmt.fitsOther
  · exact skipsAdvance.next fun _ => drawsDelete h
  · exact skipsAdvance.next fun _ => (drawsYieldTail h).next fun _ => .pure Stmt.fitsOther
  · exact skipsAdvance.next fun _ => drawsAssert h
  · exact skipsAdvance.next fun _ => (skipsSeparated skipsIdent _).next fun _ => .pure Stmt.fitsOther
  · exact skipsAdvance.next fun _ => (skipsSeparated skipsIdent _).next fun _ => .pure Stmt.fitsOther
  · exact skipsPeekSecond.next fun _ => .ite (skipsAdvance.next fun _ => drawsTypeStatement h) (drawsExpressionStatement h)
  · exact drawsExpressionStatement h

/-! Blocks, and statements with them. -/

open Stmt (AllFit allFitNil allFitSingle allFitAppend)

theorem drawsStatementLine (h : g.Drawing) : Draws n (statementLine g) (AllFit n) := by
  refine (drawsSmallStatement h).bind fun _ fits => .loop (fun _ before => (skipsAccept _).next fun _ => .ite ?_ ?_) _ (allFitSingle fits)
  · refine (skipsAccept _).next fun _ => .ite (.pure before) ?_
    exact (drawsSmallStatement h).bind fun _ added => .pure (allFitAppend before (allFitSingle added))
  · exact (skipsExpect _).next fun _ => .pure before

section

variable {inner : Parse (List Stmt)}

theorem drawsBlock (h : g.Drawing) (each : Draws n inner (AllFit n)) : Draws n (block g inner) (AllFit n) := by
  refine (skipsExpect _).next fun _ => (skipsAccept _).next fun _ => .ite ?_ (drawsStatementLine h)
  refine (skipsExpect _).next fun _ => .loop (fun _ before => each.bind fun _ added => (skipsAccept _).next fun _ => ?_) _ allFitNil
  exact .ite (.pure (allFitAppend before added)) (.pure (allFitAppend before added))

theorem drawsOptionalBlock (h : g.Drawing) (each : Draws n inner (AllFit n)) (keyword : String) :
    Draws n (optionalBlock g inner keyword) (AllFit n) :=
  (skipsAccept _).next fun _ => .ite (drawsBlock h each) (.pure allFitNil)

theorem drawsIf (h : g.Drawing) (each : Draws n inner (AllFit n)) : Draws n (ifStatement g inner) (Stmt.Fits n) := by
  refine (drawsNamed h).next fun _ => (drawsBlock h each).bind fun _ first =>
    (Draws.loop (fun _ before => ?_) _ first).bind fun _ branches => (drawsOptionalBlock h each _).bind fun _ last =>
    .pure (Stmt.fitsCompound (allFitAppend branches last))
  refine (skipsAccept _).next fun _ => .ite ?_ (.pure before)
  exact (drawsNamed h).next fun _ => (drawsBlock h each).bind fun _ added => .pure (allFitAppend before added)

/- A block with another one after it. -/
theorem drawsLoop (h : g.Drawing) (each : Draws n inner (AllFit n)) : Draws n (do
    let first ← block g inner
    return .compound (first ++ (← optionalBlock g inner "else"))) (Stmt.Fits n) :=
  (drawsBlock h each).bind fun _ first => (drawsOptionalBlock h each _).bind fun _ last =>
    .pure (Stmt.fitsCompound (allFitAppend first last))

theorem drawsWhile (h : g.Drawing) (each : Draws n inner (AllFit n)) : Draws n (whileStatement g inner) (Stmt.Fits n) :=
  (drawsNamed h).next fun _ => drawsLoop h each

theorem drawsFor (h : g.Drawing) (each : Draws n inner (AllFit n)) : Draws n (forStatement g inner) (Stmt.Fits n) :=
  (drawsStarTargets h).next fun _ => (skipsExpect _).next fun _ => (drawsStarExpressions h).next fun _ => drawsLoop h each

theorem skipsWithItem (h : g.Drawing) : Skips n (withItem g) :=
  h.expression.next fun _ => (skipsAccept _).next fun _ => .optional (drawsStarTarget h) (.pure trivial)

theorem skipsWithItems (h : g.Drawing) : Skips n (withItems g) := by
  have grouped : Skips n (op "(" >>= fun _ => commaList g.bound startsExpression (withItem g) >>= fun _ => op ")" >>= fun _ =>
      peek >>= fun t => if (t == .op ":") = true then Pure.pure () else failure) :=
    (skipsExpect _).next fun _ => (drawsCommaList (skipsWithItem h) _).next fun _ => (skipsExpect _).next fun _ =>
      skipsPeek.next fun _ => .ite (.pure trivial) .fail
  refine grouped.attempt.next fun tried => ?_
  split
  · exact .pure trivial
  · exact (skipsSeparated (skipsWithItem h) _).next fun _ => .pure trivial

theorem drawsWith (h : g.Drawing) (each : Draws n inner (AllFit n)) : Draws n (withStatement g inner) (Stmt.Fits n) :=
  (skipsWithItems h).next fun _ => (drawsBlock h each).bind fun _ fits => .pure (Stmt.fitsCompound fits)

theorem drawsHandlers (h : g.Drawing) (each : Draws n inner (AllFit n)) (starred : Bool) :
    Draws n (handlers g inner starred) (AllFit n) := by
  refine .loop (fun statements before => (skipsExpect _).next fun _ => .optional (skipsExpect _) (skipsPeek.next fun _ => ?_)) _ allFitNil
  have handled : Draws n (block g inner >>= fun added => peek >>= fun t =>
      Pure.pure (statements ++ added, t == .name "except")) fun r => AllFit n r.1 :=
    (drawsBlock h each).bind fun _ added => skipsPeek.next fun _ => .pure (allFitAppend before added)
  exact .ite (h.expression.next fun _ => skipsAsName.next fun _ => handled) handled

theorem drawsTry (h : g.Drawing) (each : Draws n inner (AllFit n)) : Draws n (tryStatement g inner) (Stmt.Fits n) := by
  refine (drawsBlock h each).bind fun _ first => (skipsAccept _).next fun _ => .ite ?_ ?_
  · exact (drawsBlock h each).bind fun _ last => .pure (Stmt.fitsCompound (allFitAppend first last))
  refine skipsPeekSecond.next fun _ => (drawsHandlers h each _).bind fun _ handled => (drawsOptionalBlock h each _).bind fun _ otherwise =>
    (drawsOptionalBlock h each _).bind fun _ last => .pure (Stmt.fitsCompound ?_)
  exact allFitAppend (allFitAppend (allFitAppend first handled) otherwise) last

theorem skipsMatchHead (h : g.Drawing) : Skips n (matchHead g) :=
  (skipsExpect _).next fun _ => skipsPeek.next fun _ => (drawsCommaList (drawsStarNamed (n := n) h) _).next fun _ => .optional skipsFail
    ((skipsExpect _).next fun _ => (skipsExpect _).next fun _ => skipsExpect _)

theorem drawsMatchCases (h : g.Drawing) (each : Draws n inner (AllFit n)) : Draws n (matchCases g inner) (Stmt.Fits n) := by
  refine (Draws.loop (fun _ before => ?_) _ allFitNil).bind fun _ fits => .pure (Stmt.fitsCompound fits)
  refine (skipsExpect _).next fun _ => (skipsCasePattern h).next fun _ => (skipsAccept _).next fun _ => .optional (drawsNamed h) ?_
  refine (drawsBlock h each).bind fun _ added => (skipsAccept _).next fun _ => ?_
  exact .ite (.pure (allFitAppend before added)) (.pure (allFitAppend before added))

theorem drawsFunction (h : g.Drawing) (each : Draws n inner (AllFit n)) {decorators : List Expr} (marks : ∀ d ∈ decorators, d.Fits n)
    (start : Position) : Draws n (functionStatement g inner decorators start) (Stmt.Fits n) := by
  have returns : Draws n (acceptOp "->" >>= fun arrow => if arrow = true then
      g.expression >>= fun e => Pure.pure (some e) else Pure.pure none) fun type => ∀ t ∈ type, t.Fits n :=
    (skipsAccept _).next fun _ => .ite (h.expression.bind fun _ fits => .pure (by simpa using fits)) (.pure (by simp))
  exact (skipsExpect _).next fun _ => skipsIdent.next fun _ => (skipsTypeParameters h).next fun _ => (skipsExpect _).next fun _ =>
    (drawsParameters h _ _).bind fun _ inputs => returns.bind fun _ output => (drawsBlock h each).bind fun _ body =>
    .pure (Stmt.fitsFunction marks inputs output body)

theorem drawsClass (h : g.Drawing) (each : Draws n inner (AllFit n)) {decorators : List Expr} (marks : ∀ d ∈ decorators, d.Fits n)
    (start : Position) : Draws n (classStatement g inner decorators start) (Stmt.Fits n) := by
  have listed : Draws n (acceptOp "(" >>= fun paren => if paren = true then arguments g false else Pure.pure [])
      fun args => ∀ a ∈ args, a.2.Fits n :=
    (skipsAccept _).next fun _ => .ite (drawsArguments h _) (.pure (by simp))
  refine (skipsExpect _).next fun _ => skipsIdent.next fun _ => (skipsTypeParameters h).next fun _ => listed.bind fun args fits =>
    (drawsBlock h each).bind fun _ body => .pure (Stmt.fitsClass marks ?_ body)
  intro b here
  obtain ⟨a, among, kept⟩ := List.mem_filterMap.1 here
  split at kept <;> cases kept
  exact fits a among

theorem drawsDecoratorLines (h : g.Drawing) : Draws n (decoratorLines g) fun ds => ∀ d ∈ ds, d.Fits n := by
  refine .loop (fun _ before => (skipsAccept _).next fun _ => .ite ?_ (.pure before)) _ (by simp)
  refine (drawsNamed h).bind fun e fits => (skipsExpect _).next fun _ => .pure fun d here => ?_
  rcases List.mem_append.1 here with old | new
  · exact before d old
  · exact List.mem_singleton.1 new ▸ fits

theorem drawsDefinition (h : g.Drawing) (each : Draws n inner (AllFit n)) {decorators : List Expr} (marks : ∀ d ∈ decorators, d.Fits n) :
    Draws n (definition g inner decorators) (Stmt.Fits n) := by
  refine skipsHere.next fun start => skipsPeek.next fun kind => ?_
  split
  · exact drawsClass h each marks start
  · exact drawsFunction h each marks start
  · exact skipsAdvance.next fun _ => drawsFunction h each marks start
  · exact .fail

theorem drawsOne {p : Parse Stmt} (draws : Draws n p (Stmt.Fits n)) : Draws n (do return [← p]) (AllFit n) :=
  draws.bind fun _ fits => .pure (allFitSingle fits)

theorem drawsAnyStatement (h : g.Drawing) (each : Draws n inner (AllFit n)) : Draws n (anyStatement g inner) (AllFit n) := by
  have plain : Draws n (definition g inner []) (Stmt.Fits n) := drawsDefinition h each (by simp)
  refine skipsPeek.next fun kind => ?_
  split
  · exact (drawsDecoratorLines h).bind fun _ marks => drawsOne (drawsDefinition h each marks)
  · exact drawsOne plain
  · exact drawsOne plain
  · refine skipsPeekSecond.next fun second => ?_
    split
    · exact skipsAdvance.next fun _ => skipsAdvance.next fun _ => drawsOne (drawsWith h each)
    · exact skipsAdvance.next fun _ => skipsAdvance.next fun _ => drawsOne (drawsFor h each)
    · exact drawsOne plain
  · exact skipsAdvance.next fun _ => drawsOne (drawsIf h each)
  · exact skipsAdvance.next fun _ => drawsOne (drawsWhile h each)
  · exact skipsAdvance.next fun _ => drawsOne (drawsFor h each)
  · exact skipsAdvance.next fun _ => drawsOne (drawsWith h each)
  · exact skipsAdvance.next fun _ => drawsOne (drawsTry h each)
  · refine (skipsMatchHead h).attempt.next fun tried => ?_
    split
    · exact drawsOne (drawsMatchCases h each)
    · exact drawsStatementLine h
  · exact drawsStatementLine h

end

theorem drawsStatement (h : g.Drawing) (depth : Nat) : Draws n (statement g depth) (AllFit n) := by
  induction depth with
  | zero => exact .fail
  | succ depth ih => exact drawsAnyStatement h ih

theorem drawsStatements (h : g.Drawing) : Draws n (statements g) (AllFit n) := by
  refine (skipsAccept _).next fun _ => .ite (.pure allFitNil) (.loop (fun _ before => ?_) _ allFitNil)
  refine (drawsStatement h _).bind fun _ added => (skipsAccept _).next fun _ => ?_
  exact .ite (.pure (allFitAppend before added)) (.pure (allFitAppend before added))

end Readers
end SharedState.Source
