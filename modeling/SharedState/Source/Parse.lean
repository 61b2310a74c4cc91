import SharedState.Source.Name

/-! Reading from a list of tokens. -/
namespace SharedState.Source

abbrev Parse := StateT (List Token) Option

namespace Parse

def headKind (ts : List Token) : TokenKind :=
  match ts with
  | [] => .finish
  | t :: _ => t.kind

def peek : Parse TokenKind := fun ts => some (headKind ts, ts)

def peekSecond : Parse TokenKind := fun ts => some (headKind ts.tail, ts)

def here : Parse Position := fun ts =>
  match ts with
  | [] => some (⟨0, 0⟩, [])
  | t :: _ => some (t.position, ts)

def advance : Parse Unit := fun ts => some ((), ts.tail)

def expect (kind : TokenKind) : Parse Unit := fun ts =>
  match ts with
  | [] => none
  | t :: rest => if t.kind = kind then some ((), rest) else none

def accept (kind : TokenKind) : Parse Bool := fun ts =>
  match ts with
  | [] => some (false, [])
  | t :: rest => if t.kind = kind then some (true, rest) else some (false, ts)

def op (text : String) : Parse Unit := expect (.op text)

def acceptOp (text : String) : Parse Bool := accept (.op text)

def word (text : String) : Parse Unit := expect (.name text)

def acceptWord (text : String) : Parse Bool := accept (.name text)

def ident : Parse Identifier := fun ts =>
  match ts with
  | ⟨.name id, _⟩ :: rest => if plain : PlainWord id then some (⟨id, plain⟩, rest) else none
  | _ => none

def isIdent : TokenKind → Bool
  | .name id => !keywords.contains id
  | _ => false

def loop {α : Type} (step : α → Parse (α × Bool)) : Nat → α → Parse α
  | 0, _ => failure
  | n + 1, a => do
    let (a, more) ← step a
    if more then loop step n a else return a

def attempt {α : Type} (p : Parse α) : Parse (Option α) := fun ts =>
  match p ts with
  | some (a, rest) => some (some a, rest)
  | none => some (none, ts)

end Parse
end SharedState.Source
