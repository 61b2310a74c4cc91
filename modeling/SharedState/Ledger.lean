import SharedState.Symbol

/-! The findings of a run: each symbol at most once, in the order in which they were made. -/
namespace SharedState

/-- A mutable symbol that a singleton reaches, and the class in which it was met. -/
structure Violation where
  owner : Symbol
  symbol : Symbol
  declaredType : Option TypeRef
  deriving DecidableEq, Repr

structure Ledger where
  entries : List Violation := []
  deriving DecidableEq, Repr

namespace Ledger

def size (l : Ledger) : Nat := l.entries.length

def flags (l : Ledger) (s : Symbol) : Bool := l.entries.any fun v => v.symbol == s

/-- Adds a violation unless its symbol is flagged; the first part is the violation if it is new. -/
def record (l : Ledger) (v : Violation) : Option Violation × Ledger :=
  if l.flags v.symbol then (none, l) else (some v, { entries := l.entries ++ [v] })

end Ledger
end SharedState
