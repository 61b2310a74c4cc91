import SharedState.Graph
import SharedState.Exemption
import SharedState.Diagnostic

/-! The depth-first walk over classes: members in declaration order, then parents. A mutable member is recorded; an
immutable field or accessor leads to the classes of its declared type. -/
namespace SharedState

inductive Event where
  | scanning (symbol : Symbol) (depth : Nat)
  | finding (diagnostic : Diagnostic)
  deriving DecidableEq, Repr

namespace Event

def traceLine? : Event → Option String
  | scanning s depth => some (String.ofList (List.replicate (2 * depth) ' ') ++ "scanning " ++ s.text)
  | finding _ => none

def diagnostic? : Event → Option Diagnostic
  | scanning _ _ => none
  | finding d => some d

end Event

structure Reporter where
  severity : Severity := .error
  tracing : Bool := false
  deriving DecidableEq, Repr

structure Scanner where
  graph : Graph
  exemption : Exemption := {}
  reporter : Reporter := {}
  deriving DecidableEq, Repr

/-- The state of a walk. `halted` is set by a finding whose declared type has no text: nothing happens afterwards. -/
structure Walk where
  visited : List Symbol := []
  ledger : Ledger := {}
  depth : Nat := 0
  events : List Event := []
  halted : Bool := false
  deriving DecidableEq, Repr

namespace Walk

def diagnostics (w : Walk) : List Diagnostic := w.events.filterMap Event.diagnostic?

end Walk

namespace Scanner

def followed : Kind → Bool
  | .field | .accessor | .paramAccessor => true
  | _ => false

def skipped : Kind → Bool
  | .setter | .plainClass | .enumHolder | .other => true
  | _ => false

def enter (sc : Scanner) (s : Symbol) (w : Walk) : Walk :=
  { w with
    depth := w.depth + 1
    events := if sc.reporter.tracing then w.events ++ [.scanning s w.depth] else w.events }

def leave (w : Walk) : Walk := { w with depth := w.depth - 1 }

def report (sc : Scanner) (v : Violation) (w : Walk) : Walk :=
  match Diagnostic.ofViolation? sc.reporter.severity v with
  | none => { w with halted := true }
  | some d => { w with events := w.events ++ [.finding d] }

def flag (sc : Scanner) (cls member : Symbol) (w : Walk) : Walk :=
  match w.ledger.record { owner := cls, symbol := member, declaredType := member.declaredType } with
  | (none, _) => w
  | (some v, ledger) => sc.report v { w with ledger }

def visitMember (sc : Scanner) (visit : Walk → Symbol → Walk) (cls : Symbol) (w : Walk) (member : Symbol) : Walk :=
  if w.halted || skipped member.kind || sc.exemption.covers member then w
  -- What is mutable is flagged and not followed.
  else if member.mutable then sc.flag cls member w
  else if followed member.kind then
    leave ((sc.graph.typeClasses member.declaredType).foldl visit (sc.enter member w))
  else w

/-- Walks into a class that is neither visited nor exempt. Every level of the recursion visits another class, so the
first argument is only a bound. -/
def visitClass (sc : Scanner) : Nat → Walk → Symbol → Walk
  | 0, w, _ => w
  | n + 1, w, cls =>
    if w.halted || w.visited.contains cls || sc.exemption.covers cls then w
    else
      let entered := sc.enter cls { w with visited := w.visited ++ [cls] }
      let withMembers := (sc.graph.members cls).foldl (sc.visitMember (sc.visitClass n) cls) entered
      leave ((sc.graph.parentClasses cls).foldl (sc.visitClass n) withMembers)

/-- Walks from a root class. The root itself need not belong to the graph; all other classes do. -/
def walk (sc : Scanner) (root : Symbol) (w : Walk) : Walk := sc.visitClass (sc.graph.size + 1) w root

end Scanner
end SharedState
