import SharedState.Symbol

/-! Symbols that the check neither visits nor reports. -/
namespace SharedState

/-- The names of the two markers that exempt a symbol: safe to share, and never shared. -/
structure Exemption where
  sharable : String := "sharable"
  unshared : String := "unshared"
  deriving DecidableEq, Repr

namespace Exemption

def covers (x : Exemption) (s : Symbol) : Bool :=
  s.markers.contains x.sharable || s.markers.contains x.unshared ||
  (match s.enclosing with
    | [] => false
    | owner :: _ => owner.kind == .enumHolder)

end Exemption
end SharedState
