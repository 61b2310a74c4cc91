/-! What a symbol is, and how serious a finding is. -/
namespace SharedState

inductive Kind where
  | plainClass
  | enumHolder
  | field
  | method
  | accessor
  | paramAccessor
  | setter
  | other
  deriving DecidableEq, Repr

namespace Kind

def all : List Kind :=
  [plainClass, enumHolder, field, method, accessor, paramAccessor, setter, other]

def isClass : Kind → Bool
  | plainClass | enumHolder => true
  | _ => false

def isMethod : Kind → Bool
  | method | accessor | paramAccessor | setter => true
  | _ => false

/-- The noun used in messages. -/
def label : Kind → String
  | plainClass => "class"
  | enumHolder => "enum"
  | field => "field"
  | method => "method"
  | accessor => "accessor"
  | paramAccessor => "parameter accessor"
  | setter => "setter"
  | other => "symbol"

/-- The word used in graph documents. -/
def tag : Kind → String
  | plainClass => "class"
  | enumHolder => "enum_values_holder"
  | field => "field"
  | method => "method"
  | accessor => "accessor"
  | paramAccessor => "param_accessor"
  | setter => "setter"
  | other => "other"

def ofTag? (s : String) : Option Kind := all.find? (fun k => k.tag == s)

theorem ofTagTag (k : Kind) : ofTag? k.tag = some k := by cases k <;> decide

end Kind

inductive Severity where
  | error
  | warning
  | info
  deriving DecidableEq, Repr

namespace Severity

def all : List Severity := [error, warning, info]

def tag : Severity → String
  | error => "error"
  | warning => "warning"
  | info => "info"

def ofTag? (s : String) : Option Severity := all.find? (fun v => v.tag == s)

theorem ofTagTag (v : Severity) : ofTag? v.tag = some v := by cases v <;> decide

end Severity
end SharedState
