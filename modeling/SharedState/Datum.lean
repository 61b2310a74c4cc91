import SharedState.Decimal

/-! Values of data formats: JSON documents and project files. -/
namespace SharedState

inductive Datum where
  | null
  | bool (b : Bool)
  | int (n : Int)
  | real (d : Decimal)
  /-- An infinite number, or no number at all. -/
  | unreal
  | text (s : String)
  /-- A date or time. -/
  | moment
  | list (items : List Datum)
  | table (fields : List (String × Datum))
  deriving Repr, Inhabited

end SharedState
