import SharedState.Ledger

/-! Findings as they are told to the user. -/
namespace SharedState

structure Diagnostic where
  severity : Severity := .error
  location : Option Location
  message : String
  symbol : String
  declaredType : Option String
  deriving DecidableEq, Repr

namespace Diagnostic

def wording (s : Symbol) (typeText : Option String) : String :=
  "possible data race involving globally reachable " ++ s.located ++ ": " ++ typeText.getD "<unknown>" ++
  "\n  use --trace to find out more about why the " ++ s.kind.label ++ " is reachable."

/-- The text of a declared type: `none` if there is a type without a text. -/
def typeText? : Option TypeRef → Option (Option String)
  | none => some none
  | some t => t.text?.map some

def ofViolation? (severity : Severity) (v : Violation) : Option Diagnostic :=
  (typeText? v.declaredType).map fun t =>
    { severity, location := v.symbol.location, message := wording v.symbol t, symbol := v.symbol.qualifiedName,
      declaredType := t }

end Diagnostic
end SharedState
