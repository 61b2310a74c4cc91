import SharedState.Source.Pattern

/-! The grammar of statements. -/
namespace SharedState.Source

open Parse

def augmentedOps : List String :=
  ["+=", "-=", "*=", "/=", "//=", "%=", "@=", "&=", "|=", "^=", ">>=", "<<=", "**="]

def isSingleTarget : Expr → Bool
  | .name _ _ => true
  | .access _ _ _ | .subscript _ _ => true
  | _ => false

mutual
def isDeletable : Expr → Bool
  | .name _ _ => true
  | .access _ _ _ => true
  | .subscript _ _ => true
  | .tuple elements => areDeletable elements
  | .list elements => areDeletable elements
  | _ => false
def areDeletable : List Expr → Bool
  | [] => true
  | e :: rest => isDeletable e && areDeletable rest
end

/-- Whether an annotated target may be written as it is: a bare name, or an attribute or subscript. The two arguments are
the first token and the last one before the colon. -/
def isAnnotatable (first last : TokenKind) : Expr → Bool
  | .name id _ => first == .name id.text && last == .name id.text
  | .access _ _ _ | .subscript _ _ => last != .op ")"
  | _ => false

def withLast {α : Type} (p : Parse α) : Parse (α × TokenKind) := fun ts =>
  match p ts with
  | none => none
  | some (a, rest) => some ((a, headKind (ts.drop (ts.length - rest.length - 1))), rest)

def assignments (g : Grammar) (first : Expr) : Parse Stmt := do
  if !isTarget first then failure
  let (targets, value) ← loop (fun (state : List Expr × Expr) => do
    op "="
    if ← acceptWord "yield" then
      let e ← yieldTail g
      return ((state.1, e), false)
    else
      let e ← starExpressions g
      if (← peek) == .op "=" then
        if isTarget e then return ((state.1 ++ [e], e), true) else failure
      else return ((state.1, e), false)) (g.bound + 1) ([first], .other)
  return .assign targets value

def expressionStatement (g : Grammar) : Parse Stmt := do
  let first ← peek
  let (e, last) ← withLast (starExpressions g)
  match ← peek with
  | .op ":" =>
    advance
    if !isAnnotatable first last e then failure
    let type ← g.expression
    if ← acceptOp "=" then return .annAssign e type (some (← yieldOrExpressions g))
    else return .annAssign e type none
  | .op "=" => assignments g e
  | .op text =>
    if augmentedOps.contains text then
      advance
      if !isSingleTarget e then failure
      let _ ← yieldOrExpressions g
      return .other
    else return .other
  | _ => return .other

def dottedName (bound : Nat) : Parse DottedPath := do
  let first ← ident
  loop (fun (name : DottedPath) => do
    if ← acceptOp "." then return (name.access (← ident), true) else return (name, false)) (bound + 1) { first }

def asName : Parse (Option String) := do
  if ← acceptWord "as" then return some (← ident).text else return none

def separated {α : Type} (bound : Nat) (item : Parse α) : Parse (List α) := do
  let first ← item
  loop (fun (items : List α) => do
    if ← acceptOp "," then return (items ++ [← item], true) else return (items, false)) (bound + 1) [first]

def importStatement (g : Grammar) : Parse Stmt := do
  let names ← separated g.bound (do return ⟨← dottedName g.bound, ← asName⟩)
  return .importNames names

def importTargets (g : Grammar) : Parse (Option (List ImportedName)) := do
  let item : Parse ImportedName := do return ⟨{ first := ← ident }, ← asName⟩
  if ← acceptOp "*" then return none
  else if ← acceptOp "(" then
    let (names, _) ← commaList g.bound isIdent item
    op ")"
    return some names
  else return some (← separated g.bound item)

def importLevel (g : Grammar) : Parse Nat :=
  loop (fun (level : Nat) => do
    if ← acceptOp "." then return (level + 1, true)
    -- Three dots are one token.
    else if ← acceptOp "..." then return (level + 3, true)
    else return (level, false)) (g.bound + 1) 0

def importFromStatement (g : Grammar) : Parse Stmt := do
  let level ← importLevel g
  let module ← (do
    if level > 0 && (← peek) == .name "import" then return none
    else return some (← dottedName g.bound))
  word "import"
  return .importFrom level module (← importTargets g)

def startsTarget (t : TokenKind) : Bool := startsExpression t

def deleteStatement (g : Grammar) : Parse Stmt := do
  let (targets, _) ← commaList g.bound startsTarget g.primary
  if areDeletable targets then return .other else failure

def raiseStatement (g : Grammar) : Parse Stmt := do
  if startsExpression (← peek) then
    let _ ← g.expression
    if ← acceptWord "from" then let _ ← g.expression
  return .other

def assertStatement (g : Grammar) : Parse Stmt := do
  let _ ← g.expression
  if ← acceptOp "," then let _ ← g.expression
  return .other

def typeParameter (g : Grammar) : Parse Unit := do
  if ← acceptOp "*" then
    let _ ← ident
    if ← acceptOp "=" then let _ ← starExpression g
  else if ← acceptOp "**" then
    let _ ← ident
    if ← acceptOp "=" then let _ ← g.expression
  else
    let _ ← ident
    if ← acceptOp ":" then let _ ← g.expression
    if ← acceptOp "=" then let _ ← g.expression

def typeParameters (g : Grammar) : Parse Unit := do
  if ← acceptOp "[" then
    let _ ← commaList g.bound (fun t => isIdent t || t == .op "*" || t == .op "**") (typeParameter g)
    op "]"

def typeStatement (g : Grammar) : Parse Stmt := do
  let _ ← ident
  typeParameters g
  op "="
  let _ ← g.expression
  return .other

def smallStatement (g : Grammar) : Parse Stmt := do
  match ← peek with
  | .name "return" =>
    advance
    if startsStarred (← peek) then let _ ← starExpressions g
    return .other
  | .name "import" =>
    advance
    importStatement g
  | .name "from" =>
    advance
    importFromStatement g
  | .name "raise" =>
    advance
    raiseStatement g
  | .name "pass" | .name "break" | .name "continue" =>
    advance
    return .other
  | .name "del" =>
    advance
    deleteStatement g
  | .name "yield" =>
    advance
    yieldTail g *> return .other
  | .name "assert" =>
    advance
    assertStatement g
  | .name "global" | .name "nonlocal" =>
    advance
    let _ ← separated g.bound ident
    return .other
  | .name "type" =>
    if isIdent (← peekSecond) then
      advance
      typeStatement g
    else expressionStatement g
  | _ => expressionStatement g

def statementLine (g : Grammar) : Parse (List Stmt) := do
  let first ← smallStatement g
  loop (fun (statements : List Stmt) => do
    if ← acceptOp ";" then
      if ← accept .newline then return (statements, false)
      else return (statements ++ [← smallStatement g], true)
    else
      expect .newline
      return (statements, false)) (g.bound + 1) [first]

def block (g : Grammar) (statement : Parse (List Stmt)) : Parse (List Stmt) := do
  op ":"
  if ← accept .newline then
    expect .indent
    loop (fun (statements : List Stmt) => do
      let statements := statements ++ (← statement)
      if ← accept .dedent then return (statements, false) else return (statements, true)) (g.bound + 1) []
  else statementLine g

def optionalBlock (g : Grammar) (statement : Parse (List Stmt)) (keyword : String) : Parse (List Stmt) := do
  if ← acceptWord keyword then block g statement else return []

def ifStatement (g : Grammar) (statement : Parse (List Stmt)) : Parse Stmt := do
  let _ ← namedExpr g
  let first ← block g statement
  let branches ← loop (fun (statements : List Stmt) => do
    if ← acceptWord "elif" then
      let _ ← namedExpr g
      return (statements ++ (← block g statement), true)
    else return (statements, false)) (g.bound + 1) first
  return .compound (branches ++ (← optionalBlock g statement "else"))

def whileStatement (g : Grammar) (statement : Parse (List Stmt)) : Parse Stmt := do
  let _ ← namedExpr g
  let first ← block g statement
  return .compound (first ++ (← optionalBlock g statement "else"))

def forStatement (g : Grammar) (statement : Parse (List Stmt)) : Parse Stmt := do
  let _ ← starTargets g
  word "in"
  let _ ← starExpressions g
  let first ← block g statement
  return .compound (first ++ (← optionalBlock g statement "else"))

def withItem (g : Grammar) : Parse Unit := do
  let _ ← g.expression
  if ← acceptWord "as" then let _ ← starTarget g

/-- The items of a `with` statement: in parentheses if they can be read so, else as they are. -/
def withItems (g : Grammar) : Parse Unit := do
  let grouped : Parse Unit := do
    op "("
    let _ ← commaList g.bound startsExpression (withItem g)
    op ")"
    if (← peek) == .op ":" then return () else failure
  match ← attempt grouped with
  | some _ => return ()
  | none =>
    let _ ← separated g.bound (withItem g)

def withStatement (g : Grammar) (statement : Parse (List Stmt)) : Parse Stmt := do
  withItems g
  return .compound (← block g statement)

def handlers (g : Grammar) (statement : Parse (List Stmt)) (starred : Bool) : Parse (List Stmt) :=
  loop (fun (statements : List Stmt) => do
    word "except"
    if starred then op "*"
    if starred || (← peek) != .op ":" then
      let _ ← g.expression
      let _ ← asName
    let statements := statements ++ (← block g statement)
    return (statements, (← peek) == .name "except")) (g.bound + 1) []

def tryStatement (g : Grammar) (statement : Parse (List Stmt)) : Parse Stmt := do
  let first ← block g statement
  if ← acceptWord "finally" then return .compound (first ++ (← block g statement))
  else
    let starred := (← peekSecond) == .op "*"
    let handled ← handlers g statement starred
    let otherwise ← optionalBlock g statement "else"
    let last ← optionalBlock g statement "finally"
    return .compound (first ++ handled ++ otherwise ++ last)

def matchHead (g : Grammar) : Parse Unit := do
  word "match"
  let starred := (← peek) == .op "*"
  let (items, comma) ← commaList g.bound startsStarred (starNamed g)
  if starred && items.length = 1 && !comma then failure
  op ":"
  expect .newline
  expect .indent

def matchCases (g : Grammar) (statement : Parse (List Stmt)) : Parse Stmt := do
  let body ← loop (fun (statements : List Stmt) => do
    word "case"
    casePattern g
    if ← acceptWord "if" then let _ ← namedExpr g
    let statements := statements ++ (← block g statement)
    if ← accept .dedent then return (statements, false) else return (statements, true)) (g.bound + 1) []
  return .compound body

def functionStatement (g : Grammar) (statement : Parse (List Stmt)) (decorators : List Expr) (start : Position) :
    Parse Stmt := do
  word "def"
  let name ← ident
  typeParameters g
  op "("
  let params ← parameters g true ")"
  let returns ← (do if ← acceptOp "->" then return some (← g.expression) else return none)
  let body ← block g statement
  return .functionDef name decorators params returns body start

def classStatement (g : Grammar) (statement : Parse (List Stmt)) (decorators : List Expr) (start : Position) :
    Parse Stmt := do
  word "class"
  let name ← ident
  typeParameters g
  let args ← (do if ← acceptOp "(" then arguments g false else return [])
  let bases := args.filterMap fun a => if a.1.isNone then some a.2 else none
  let body ← block g statement
  return .classDef name decorators bases body start

def decoratorLines (g : Grammar) : Parse (List Expr) :=
  loop (fun (decorators : List Expr) => do
    if ← acceptOp "@" then
      let e ← namedExpr g
      expect .newline
      return (decorators ++ [e], true)
    else return (decorators, false)) (g.bound + 1) []

def definition (g : Grammar) (statement : Parse (List Stmt)) (decorators : List Expr) : Parse Stmt := do
  let start ← here
  match ← peek with
  | .name "class" => classStatement g statement decorators start
  | .name "def" => functionStatement g statement decorators start
  | .name "async" =>
    advance
    functionStatement g statement decorators start
  | _ => failure

def anyStatement (g : Grammar) (statement : Parse (List Stmt)) : Parse (List Stmt) := do
  let one (p : Parse Stmt) : Parse (List Stmt) := do return [← p]
  match ← peek with
  | .op "@" =>
    let decorators ← decoratorLines g
    one (definition g statement decorators)
  | .name "class" | .name "def" => one (definition g statement [])
  | .name "async" =>
    match ← peekSecond with
    | .name "with" =>
      advance
      advance
      one (withStatement g statement)
    | .name "for" =>
      advance
      advance
      one (forStatement g statement)
    | _ => one (definition g statement [])
  | .name "if" =>
    advance
    one (ifStatement g statement)
  | .name "while" =>
    advance
    one (whileStatement g statement)
  | .name "for" =>
    advance
    one (forStatement g statement)
  | .name "with" =>
    advance
    one (withStatement g statement)
  | .name "try" =>
    advance
    one (tryStatement g statement)
  | .name "match" =>
    match ← attempt (matchHead g) with
    | some _ => one (matchCases g statement)
    | none => statementLine g
  | _ => statementLine g

def statement (g : Grammar) : Nat → Parse (List Stmt)
  | 0 => failure
  | n + 1 => anyStatement g (statement g n)

def statements (g : Grammar) : Parse (List Stmt) := do
  if ← accept .finish then return []
  else
    loop (fun (statements : List Stmt) => do
      let statements := statements ++ (← statement g (g.bound + 1))
      if ← accept .finish then return (statements, false) else return (statements, true)) (g.bound + 1) []

end SharedState.Source
