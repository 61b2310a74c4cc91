import SharedState.Symbol

/-! Graph documents: a graph as texts, in the order in which it is written down. -/
namespace SharedState

structure LocationSpec where
  path : String
  line : Int
  column : Int := 1
  deriving DecidableEq, Repr

structure MemberSpec where
  name : String
  kind : Kind := .field
  type : Option String := none
  mutable : Bool := false
  annotations : List String := []
  location : Option LocationSpec := none
  deriving DecidableEq, Repr

structure ClassSpec where
  name : String
  owner : Option String := none
  kind : Kind := .plainClass
  annotations : List String := []
  parents : List String := []
  members : List MemberSpec := []
  location : Option LocationSpec := none
  deriving DecidableEq, Repr

structure Document where
  classes : List ClassSpec := []
  aliases : List (String × String) := []
  staticOwners : List String := []
  deriving DecidableEq, Repr

end SharedState
