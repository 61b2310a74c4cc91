/-! Keys with values, in the order in which the keys were first bound. -/
namespace SharedState

def valueOf? {α β : Type} [DecidableEq α] (key : α) : List (α × β) → Option β
  | [] => none
  | (k, v) :: rest => if k = key then some v else valueOf? key rest

/-- Binds a key: in place if it is bound already, else at the end. -/
def bindKey {α β : Type} [DecidableEq α] (key : α) (value : β) : List (α × β) → List (α × β)
  | [] => [(key, value)]
  | (k, v) :: rest => if k = key then (k, value) :: rest else (k, v) :: bindKey key value rest

end SharedState
