import SharedState.Walk
import SharedState.Settings

/-! The check of a whole graph: one walk from all owners of singletons. -/
namespace SharedState

inductive CheckError where
  | rootNotAClass (root : Symbol)
  | typeWithoutText
  deriving DecidableEq, Repr

namespace CheckError

def message : CheckError → String
  | rootNotAClass root => "Scan root must be a class symbol, got " ++ root.text
  | typeWithoutText => "array type without an element"

end CheckError

structure CheckResult where
  enabled : Bool := true
  roots : List String := []
  visitedClasses : List String := []
  diagnostics : List Diagnostic := []
  deriving DecidableEq, Repr

namespace CheckResult

def hasViolations (r : CheckResult) : Bool := !r.diagnostics.isEmpty

def success (r : CheckResult) : Bool := !(r.diagnostics.any fun d => d.severity == .error)

end CheckResult

structure CheckRun where
  result : CheckResult
  events : List Event := []
  deriving DecidableEq, Repr

namespace Settings

def exemption (s : Settings) : Exemption := { sharable := s.sharableMarker, unshared := s.unsharedMarker }

def reporter (s : Settings) : Reporter := { severity := s.severity, tracing := s.trace }

def scanner (s : Settings) (g : Graph) : Scanner := { graph := g, exemption := s.exemption, reporter := s.reporter }

end Settings

namespace Scanner

def scan (sc : Scanner) (w : Walk) (root : Symbol) : Except CheckError Walk :=
  if !root.isClass then .error (.rootNotAClass root)
  else
    let w := sc.walk root w
    if w.halted then .error .typeWithoutText else .ok w

end Scanner

namespace Graph

def checkFrom (g : Graph) (s : Settings) (roots : List Symbol) : Except CheckError CheckRun :=
  if !s.checkReentrant then .ok { result := { enabled := false } }
  else do
    let w ← roots.foldlM (s.scanner g).scan {}
    return {
      result := {
        roots := roots.map (·.qualifiedName)
        visitedClasses := w.visited.map (·.qualifiedName)
        diagnostics := w.diagnostics }
      events := w.events }

def check (g : Graph) (s : Settings) : Except CheckError CheckRun := g.checkFrom s g.staticOwners

end Graph
end SharedState
