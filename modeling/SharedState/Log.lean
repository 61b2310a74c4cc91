import SharedState.Walk
import SharedState.Text.Markup

/-! Records of the log. Messages are markup. -/
namespace SharedState

inductive LogLevel where
  | debug
  | info
  | success
  | warning
  | error
  deriving DecidableEq, Repr

namespace LogLevel

def name : LogLevel → String
  | debug => "DEBUG"
  | info => "INFO"
  | success => "SUCCESS"
  | warning => "WARNING"
  | error => "ERROR"

def weight : LogLevel → Nat
  | debug => 10
  | info => 20
  | success => 25
  | warning => 30
  | error => 40

def reaches (l least : LogLevel) : Bool := least.weight ≤ l.weight

def ofSeverity : Severity → LogLevel
  | .error => error
  | .warning => warning
  | .info => info

end LogLevel

structure LogRecord where
  level : LogLevel
  message : String
  deriving DecidableEq, Repr

namespace LogRecord

def info (message : String) : LogRecord := { level := .info, message := "ℹ️  " ++ message }

def success (message : String) : LogRecord := { level := .success, message := "✅ " ++ message }

def warning (message : String) : LogRecord := { level := .warning, message := "⚠️  " ++ message }

def error (message : String) : LogRecord := { level := .error, message := "❌ " ++ message }

def finding (severity : Severity) (location : Option Location) (message : String) : LogRecord :=
  let place := match location with
    | some l => l.text ++ ": "
    | none => ""
  { level := .ofSeverity severity, message := Text.escapeMarkup (place ++ message) }

def trace (line : String) : LogRecord := { level := .debug, message := Text.escapeMarkup line }

end LogRecord

namespace Event

def logRecord : Event → LogRecord
  | scanning s depth => .trace (((scanning s depth).traceLine?).getD "")
  | finding d => .finding d.severity d.location d.message

end Event
end SharedState
