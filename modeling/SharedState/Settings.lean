import SharedState.Kind

/-! What a user may set for a run. -/
namespace SharedState

structure Settings where
  checkReentrant : Bool := true
  trace : Bool := false
  sharableMarker : String := "sharable"
  unsharedMarker : String := "unshared"
  singletonDecorators : List String := ["singleton"]
  severity : Severity := .error
  exclude : List String := []
  deriving DecidableEq, Repr

end SharedState
