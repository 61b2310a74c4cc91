import SharedState.Source.Grammar

/-! The patterns of `match` statements. They declare nothing, so they are only recognized. -/
namespace SharedState.Source

open Parse

def numberPattern : Parse Unit := do
  let _ ← acceptOp "-"
  match ← peek with
  | .number imaginary =>
    advance
    if !imaginary then
      match ← peek with
      | .op text =>
        if text == "+" || text == "-" then
          advance
          expect (.number true)
      | _ => return ()
  | _ => failure

def stringPattern (g : Grammar) : Parse Unit := do
  let _ ← literal g

def dottedTail (bound : Nat) : Parse Bool :=
  loop (fun (seen : Bool) => do
    if ← acceptOp "." then
      let _ ← ident
      return (true, true)
    else return (seen, false)) (bound + 1) false

def startsPattern : TokenKind → Bool
  | .name id => !keywords.contains id || ["None", "True", "False"].contains id
  | .number _ | .string _ | .formattedStart => true
  | .op text => ["-", "(", "[", "\x7b"].contains text
  | _ => false

def starPattern (pattern : Parse Unit) : Parse Unit := do
  if ← acceptOp "*" then let _ ← ident
  else pattern

def startsStarPattern (t : TokenKind) : Bool := startsPattern t || t == .op "*"

def classPattern (bound : Nat) (pattern : Parse Unit) : Parse Unit := do
  if ← acceptOp ")" then return ()
  else
    let _ ← loop (fun (named : Bool) => do
      let first ← peek
      let second ← peekSecond
      let named ← (do
        if isIdent first && second == .op "=" then
          let _ ← ident
          op "="
          pattern
          return true
        else if named then failure
        else
          pattern
          return false)
      if ← acceptOp "," then
        if ← acceptOp ")" then return (named, false) else return (named, true)
      else
        op ")"
        return (named, false)) (bound + 1) false

def mappingEntry (g : Grammar) (pattern : Parse Unit) : Parse Unit := do
  match ← peek with
  | .name id =>
    if ["None", "True", "False"].contains id then advance
    else
      let _ ← ident
      if !(← dottedTail g.bound) then failure
  | .string _ | .formattedStart => stringPattern g
  | _ => numberPattern
  op ":"
  pattern

def mappingPattern (g : Grammar) (pattern : Parse Unit) : Parse Unit := do
  if ← acceptOp "\x7d" then return ()
  else
    loop (fun _ => do
      if ← acceptOp "**" then
        let _ ← ident
        let _ ← acceptOp ","
        op "\x7d"
        return ((), false)
      else
        mappingEntry g pattern
        if ← acceptOp "," then
          if ← acceptOp "\x7d" then return ((), false) else return ((), true)
        else
          op "\x7d"
          return ((), false)) (g.bound + 1) ()

def closedPattern (g : Grammar) (pattern : Parse Unit) : Parse Unit := do
  match ← peek with
  | .name id =>
    if ["None", "True", "False"].contains id then advance
    else
      let _ ← ident
      let _ ← dottedTail g.bound
      if ← acceptOp "(" then classPattern g.bound pattern
  | .string _ | .formattedStart => stringPattern g
  | .op "(" =>
    advance
    if ← acceptOp ")" then return ()
    else
      let starred := (← peek) == .op "*"
      let (items, comma) ← commaList g.bound startsStarPattern (starPattern pattern)
      op ")"
      if starred && items.length = 1 && !comma then failure
  | .op "[" =>
    advance
    if ← acceptOp "]" then return ()
    else
      let _ ← commaList g.bound startsStarPattern (starPattern pattern)
      op "]"
  | .op "\x7b" =>
    advance
    mappingPattern g pattern
  | _ => numberPattern

def asPattern (g : Grammar) : Nat → Parse Unit
  | 0 => failure
  | n + 1 => do
    let closed := closedPattern g (asPattern g n)
    closed
    loop (fun _ => do
      if ← acceptOp "|" then
        closed
        return ((), true)
      else return ((), false)) (g.bound + 1) ()
    if ← acceptWord "as" then
      let id ← ident
      if id.text == "_" then failure

def casePattern (g : Grammar) : Parse Unit := do
  let starred := (← peek) == .op "*"
  let (items, comma) ← commaList g.bound startsStarPattern (starPattern (asPattern g (g.bound + 1)))
  if starred && items.length = 1 && !comma then failure

end SharedState.Source
