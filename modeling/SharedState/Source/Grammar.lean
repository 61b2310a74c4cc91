import SharedState.Source.Expr
import SharedState.Source.Parse

/-! The grammar of expressions, from atoms up to lists of starred expressions. Recursion goes through `Grammar`, the
readers of one level of nesting deeper; at least one token is taken before each of them is used. -/
namespace SharedState.Source

open Parse

/-- The readers of the next level of nesting. `bound` is the greatest number of items in a list there. -/
structure Grammar where
  bound : Nat
  expression : Parse Expr
  disjunction : Parse Expr
  inversion : Parse Expr
  bitOr : Parse Expr
  factor : Parse Expr
  primary : Parse Expr

namespace Grammar

def none : Grammar where
  bound := 0
  expression := failure
  disjunction := failure
  inversion := failure
  bitOr := failure
  factor := failure
  primary := failure

end Grammar

def startsExpression : TokenKind → Bool
  | .name id => !keywords.contains id || ["None", "True", "False", "not", "lambda", "await"].contains id
  | .number _ | .string _ | .formattedStart => true
  | .op text => ["(", "[", "\x7b", "-", "+", "~", "..."].contains text
  | _ => false

def commaStep {α : Type} (begins : TokenKind → Bool) (item : Parse α) (state : List α × Bool) :
    Parse ((List α × Bool) × Bool) := do
  if ← acceptOp "," then
    if begins (← peek) then return ((state.1 ++ [← item], false), true)
    else return ((state.1, true), false)
  else return (state, false)

/-- Items separated by commas, with an optional comma at the end; `begins` says whether a token starts another item. The
second part of the result says whether the last item was followed by a comma. -/
def commaList {α : Type} (bound : Nat) (begins : TokenKind → Bool) (item : Parse α) : Parse (List α × Bool) := do
  let first ← item
  loop (commaStep begins item) bound ([first], false)

def atNamed : Parse Bool := do
  let first ← peek
  let second ← peekSecond
  return isIdent first && second == .op ":="

def namedExpr (g : Grammar) : Parse Expr := do
  if ← atNamed then
    let _ ← ident
    op ":="
    let _ ← g.expression
    return .other
  else g.expression

def startsStarred (t : TokenKind) : Bool := startsExpression t || t == .op "*"

def starNamed (g : Grammar) : Parse Expr := do
  if ← acceptOp "*" then return .starred (← g.bitOr) else namedExpr g

def starExpression (g : Grammar) : Parse Expr := do
  if ← acceptOp "*" then return .starred (← g.bitOr) else g.expression

def starExpressions (g : Grammar) : Parse Expr := do
  let (items, comma) ← commaList g.bound startsStarred (starExpression g)
  match items with
  | [e] => return if comma then .tuple [e] else e
  | _ => return .tuple items

def yieldTail (g : Grammar) : Parse Expr := do
  if ← acceptWord "from" then
    let _ ← g.expression
    return .other
  else
    if startsStarred (← peek) then let _ ← starExpressions g
    return .other

def yieldOrExpressions (g : Grammar) : Parse Expr := do
  if ← acceptWord "yield" then yieldTail g else starExpressions g

mutual
def isTarget : Expr → Bool
  | .name _ _ => true
  | .access _ _ _ => true
  | .subscript _ _ => true
  | .tuple elements => areTargets elements
  | .list elements => areTargets elements
  | .starred value => isTarget value
  | _ => false
def areTargets : List Expr → Bool
  | [] => true
  | e :: rest => isTarget e && areTargets rest
end

def starTarget (g : Grammar) : Parse Expr := do
  let starred ← acceptOp "*"
  let e ← g.primary
  if isTarget e then return if starred then .starred e else e else failure

def starTargets (g : Grammar) : Parse Expr := do
  let (items, comma) ← commaList g.bound startsStarred (starTarget g)
  match items with
  | [e] => return if comma then .tuple [e] else e
  | _ => return .tuple items

def comprehensionConditions (g : Grammar) : Parse Unit :=
  loop (fun _ => do
    if ← acceptWord "if" then
      let _ ← g.disjunction
      return ((), true)
    else return ((), false)) g.bound ()

def atClause : Parse Bool := do
  match ← peek with
  | .name "for" => return true
  | .name "async" => return (← peekSecond) == .name "for"
  | _ => return false

def comprehensionClauses (g : Grammar) : Parse Unit :=
  loop (fun _ => do
    let _ ← acceptWord "async"
    word "for"
    let _ ← starTargets g
    word "in"
    let _ ← g.disjunction
    comprehensionConditions g
    return ((), ← atClause)) g.bound ()

def parenthesized (g : Grammar) : Parse Expr := do
  if ← acceptOp ")" then return .tuple []
  else if ← acceptWord "yield" then
    let e ← yieldTail g
    op ")"
    return e
  else
    let first ← starNamed g
    if ← atClause then
      if let .starred _ := first then failure
      comprehensionClauses g
      op ")"
      return .other
    else if ← acceptOp "," then
      if ← acceptOp ")" then return .tuple [first]
      else
        let (items, _) ← commaList g.bound startsStarred (starNamed g)
        op ")"
        return .tuple (first :: items)
    else
      op ")"
      if let .starred _ := first then failure
      return first

def bracketed (g : Grammar) : Parse Expr := do
  if ← acceptOp "]" then return .list []
  else
    let first ← starNamed g
    if ← atClause then
      if let .starred _ := first then failure
      comprehensionClauses g
      op "]"
      return .container .list
    else if ← acceptOp "," then
      if ← acceptOp "]" then return .list [first]
      else
        let (items, _) ← commaList g.bound startsStarred (starNamed g)
        op "]"
        return .list (first :: items)
    else
      op "]"
      return .list [first]

def dictEntry (g : Grammar) : Parse Unit := do
  if ← acceptOp "**" then let _ ← g.bitOr
  else
    let _ ← g.expression
    op ":"
    let _ ← g.expression

def startsEntry (t : TokenKind) : Bool := startsExpression t || t == .op "**"

def dictEntries (g : Grammar) : Parse Expr := do
  if ← acceptOp "," then
    if startsEntry (← peek) then let _ ← commaList g.bound startsEntry (dictEntry g)
  op "\x7d"
  return .container .dict

def braced (g : Grammar) : Parse Expr := do
  if ← acceptOp "\x7d" then return .container .dict
  else if ← acceptOp "**" then
    let _ ← g.bitOr
    dictEntries g
  else
    let named ← atNamed
    let first ← starNamed g
    let starred := if let .starred _ := first then true else false
    if !named && !starred && (← acceptOp ":") then
      let _ ← g.expression
      if ← atClause then
        comprehensionClauses g
        op "\x7d"
        return .container .dict
      else dictEntries g
    else if !starred && (← atClause) then
      comprehensionClauses g
      op "\x7d"
      return .container .set
    else
      if ← acceptOp "," then
        if startsStarred (← peek) then let _ ← commaList g.bound startsStarred (starNamed g)
      op "\x7d"
      return .container .set

def conversion : Parse Unit := do
  if ← acceptOp "!" then
    match ← peek with
    | .name id => if ["r", "s", "a"].contains id then advance else failure
    | _ => failure

/-- The text and fields of a formatted string or of a format, up to a token that is neither. The first argument bounds how
deeply formats are nested. -/
def formattedContents (g : Grammar) : Nat → Parse Unit
  | 0 => failure
  | n + 1 =>
    loop (fun _ => do
      if ← accept .formattedText then return ((), true)
      else if ← acceptOp "\x7b" then
        let _ ← yieldOrExpressions g
        let _ ← acceptOp "="
        conversion
        if ← acceptOp ":" then formattedContents g n
        op "\x7d"
        return ((), true)
      else return ((), false)) (g.bound + 1) ()

def literal (g : Grammar) : Parse Expr := do
  let pieces ← loop (fun (pieces : List LiteralPiece) => do
    match ← peek with
    | .string raw =>
      advance
      return (pieces ++ [.plain raw], true)
    | .formattedStart =>
      advance
      formattedContents g (g.bound + 1)
      expect .formattedEnd
      return (pieces ++ [.formatted], true)
    | _ => return (pieces, false)) (g.bound + 1) []
  return .literal pieces

def atom (g : Grammar) : Parse Expr := do
  let start ← here
  match ← peek with
  | .name id =>
    match Constant.ofText? id with
    | some c =>
      advance
      return .constant c
    | none => return .name (← ident) start
  | .number _ =>
    advance
    return .other
  | .string _ | .formattedStart => literal g
  | .op text =>
    advance
    match text with
    | "(" => parenthesized g
    | "[" => bracketed g
    | "\x7b" => braced g
    | "..." => return .other
    | _ => failure
  | _ => failure

/-- How far the arguments of a call have come: an argument by name rules out plain ones, one by `**` rules out starred
ones. -/
inductive ArgumentPhase where
  | plain
  | named
  | mapped
  deriving DecidableEq, Repr

def argument (g : Grammar) (phase : ArgumentPhase) : Parse (ArgumentPhase × List (Option String × Expr)) := do
  if ← acceptOp "*" then
    let e ← g.expression
    if phase = .mapped then failure else return (phase, [(none, e)])
  else if ← acceptOp "**" then
    let _ ← g.expression
    return (.mapped, [])
  else
    let first ← peek
    let second ← peekSecond
    if isIdent first && second == .op "=" then
      let id ← ident
      op "="
      let e ← g.expression
      return (if phase = .mapped then .mapped else .named, [(some id.text, e)])
    else
      let e ← namedExpr g
      if phase = .plain then return (.plain, [(none, e)]) else failure

def startsArgument (t : TokenKind) : Bool := startsExpression t || t == .op "*" || t == .op "**"

/-- Arguments up to the closing parenthesis. What is collected by `**` is left out. If `generator` is set, a generator
may stand alone in place of a list. -/
def arguments (g : Grammar) (generator : Bool) : Parse (List (Option String × Expr)) := do
  if ← acceptOp ")" then return []
  else
    let unstarred := startsExpression (← peek)
    let first ← argument g .plain
    if generator && unstarred && first.1 = .plain && (← atClause) then
      comprehensionClauses g
      op ")"
      return [(none, .other)]
    else
      let step (state : ArgumentPhase × List (Option String × Expr)) :
          Parse ((ArgumentPhase × List (Option String × Expr)) × Bool) := do
        if ← acceptOp "," then
          if startsArgument (← peek) then
            let (phase, items) ← argument g state.1
            return ((phase, state.2 ++ items), true)
          else return (state, false)
        else return (state, false)
      let (_, items) ← loop step (g.bound + 1) first
      op ")"
      return items

def sliceTail (g : Grammar) : Parse Unit := do
  if startsExpression (← peek) then let _ ← g.expression
  if ← acceptOp ":" then
    if startsExpression (← peek) then let _ ← g.expression

def subscriptItem (g : Grammar) : Parse (List Expr) := do
  if ← acceptOp ":" then
    sliceTail g
    return []
  else if ← acceptOp "*" then return [← g.expression]
  else
    let named ← atNamed
    let e ← namedExpr g
    if !named && (← acceptOp ":") then
      sliceTail g
      return []
    else return [e]

def startsSubscript (t : TokenKind) : Bool := startsStarred t || t == .op ":"

def trailer (g : Grammar) (start : Position) (e : Expr) : Parse (Expr × Bool) := do
  if ← acceptOp "." then return (.access e (← ident) start, true)
  else if ← acceptOp "(" then return (.call e (← arguments g true), true)
  else if ← acceptOp "[" then
    let (items, _) ← commaList g.bound startsSubscript (subscriptItem g)
    op "]"
    return (.subscript e items.flatten, true)
  else return (e, false)

def primary (g : Grammar) : Parse Expr := do
  let start ← here
  let first ← atom g
  loop (trailer g start) (g.bound + 1) first

def awaited (g : Grammar) : Parse Expr := do
  if ← acceptWord "await" then
    let _ ← g.primary
    return .other
  else primary g

def power (g : Grammar) : Parse Expr := do
  let base ← awaited g
  if ← acceptOp "**" then return .binary .other base (← g.factor) else return base

def factor (g : Grammar) : Parse Expr := do
  match ← peek with
  | .op text =>
    if ["+", "-", "~"].contains text then
      advance
      let _ ← g.factor
      return .other
    else power g
  | _ => power g

namespace BinaryOp

def ofText : String → BinaryOp
  | "|" => bitOr
  | "&" => bitAnd
  | _ => other

end BinaryOp

def link (ops : List String) (operand : Parse Expr) (left : Expr) : Parse (Expr × Bool) := do
  match ← peek with
  | .op text =>
    if ops.contains text then
      advance
      return (.binary (.ofText text) left (← operand), true)
    else return (left, false)
  | _ => return (left, false)

def chain (bound : Nat) (ops : List String) (operand : Parse Expr) : Parse Expr := do
  let first ← operand
  loop (link ops operand) (bound + 1) first

def term (g : Grammar) : Parse Expr := chain g.bound ["*", "/", "//", "%", "@"] (factor g)

def sum (g : Grammar) : Parse Expr := chain g.bound ["+", "-"] (term g)

def shift (g : Grammar) : Parse Expr := chain g.bound ["<<", ">>"] (sum g)

def bitAnd (g : Grammar) : Parse Expr := chain g.bound ["&"] (shift g)

def bitXor (g : Grammar) : Parse Expr := chain g.bound ["^"] (bitAnd g)

def bitOr (g : Grammar) : Parse Expr := chain g.bound ["|"] (bitXor g)

def comparisonOp : Parse Bool := do
  match ← peek with
  | .op text =>
    if ["==", "!=", "<=", "<", ">=", ">"].contains text then
      advance
      return true
    else return false
  | .name "in" =>
    advance
    return true
  | .name "is" =>
    advance
    let _ ← acceptWord "not"
    return true
  | .name "not" =>
    if (← peekSecond) == .name "in" then
      advance
      advance
      return true
    else return false
  | _ => return false

def joinStep (operator : Parse Bool) (operand : Parse Expr) (left : Expr) : Parse (Expr × Bool) := do
  if ← operator then
    let _ ← operand
    return (.other, true)
  else return (left, false)

def joined (bound : Nat) (operator : Parse Bool) (operand : Parse Expr) : Parse Expr := do
  let first ← operand
  loop (joinStep operator operand) (bound + 1) first

def comparison (g : Grammar) : Parse Expr := joined g.bound comparisonOp (bitOr g)

def inversion (g : Grammar) : Parse Expr := do
  if ← acceptWord "not" then
    let _ ← g.inversion
    return .other
  else comparison g

def conjunction (g : Grammar) : Parse Expr := joined g.bound (acceptWord "and") (inversion g)

def disjunction (g : Grammar) : Parse Expr := joined g.bound (acceptWord "or") (conjunction g)

structure ParameterState where
  params : Parameters := {}
  slash : Bool := false
  star : Bool := false
  bareStar : Bool := false
  defaulted : Bool := false
  finished : Bool := false

def parameterType (g : Grammar) (annotated : Bool) (starred : Bool) : Parse (Option Expr) := do
  if annotated then
    if ← acceptOp ":" then
      return some (← if starred then starExpression g else g.expression)
    else return none
  else return none

def parameterItem (g : Grammar) (annotated : Bool) (s : ParameterState) : Parse ParameterState := do
  if s.finished then failure
  else if ← acceptOp "/" then
    if s.slash || s.star || s.params.regular.isEmpty then failure
    else return { s with slash := true, params := { s.params with positionalOnly := s.params.regular, regular := [] } }
  else if ← acceptOp "*" then
    if s.star then failure
    else if isIdent (← peek) then
      let _ ← ident
      let _ ← parameterType g annotated true
      return { s with star := true }
    else return { s with star := true, bareStar := true }
  else if ← acceptOp "**" then
    if s.bareStar then failure
    else
      let _ ← ident
      let _ ← parameterType g annotated false
      return { s with finished := true }
  else
    let name ← ident
    let type ← parameterType g annotated false
    let hasDefault ← acceptOp "="
    if hasDefault then let _ ← g.expression
    let p : Parameter := { name := name.text, type }
    if s.star then
      return { s with bareStar := false, params := { s.params with keywordOnly := s.params.keywordOnly ++ [p] } }
    else if s.defaulted && !hasDefault then failure
    else return { s with defaulted := s.defaulted || hasDefault,
                         params := { s.params with regular := s.params.regular ++ [p] } }

def parameters (g : Grammar) (annotated : Bool) (close : String) : Parse Parameters := do
  if ← acceptOp close then return {}
  else
    let s ← loop (fun (s : ParameterState) => do
      let s ← parameterItem g annotated s
      if ← acceptOp "," then
        if ← acceptOp close then return (s, false) else return (s, true)
      else
        op close
        return (s, false)) (g.bound + 1) {}
    if s.bareStar then failure else return s.params

def expression (g : Grammar) : Parse Expr := do
  if ← acceptWord "lambda" then
    let _ ← parameters g false ":"
    let _ ← g.expression
    return .other
  else
    let e ← disjunction g
    if ← acceptWord "if" then
      let _ ← disjunction g
      word "else"
      let _ ← g.expression
      return .other
    else return e

/-- The readers with the given number of levels below them. -/
def grammar : Nat → Grammar
  | 0 => .none
  | n + 1 =>
    let g := grammar n
    { bound := n + 1
      expression := expression g
      disjunction := disjunction g
      inversion := inversion g
      bitOr := bitOr g
      factor := factor g
      primary := primary g }

def expressionLine (g : Grammar) : Parse Expr := do
  let e ← starExpressions g
  expect .newline
  expect .finish
  return e

end SharedState.Source
