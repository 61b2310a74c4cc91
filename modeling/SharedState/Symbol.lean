import SharedState.TypeRef
import SharedState.Kind

/-! Symbols of a program: classes and their members, with the declarations that enclose them. -/
namespace SharedState

/-- A position in a source file, counted from one. -/
structure Location where
  path : String
  line : Int
  column : Int := 1
  deriving DecidableEq, Repr

namespace Location

def text (l : Location) : String := l.path ++ ":" ++ toString l.line ++ ":" ++ toString l.column

end Location

/-- One declaration. `serial` tells apart declarations that agree in everything else; `markers` is a set, kept sorted and
without repetition. -/
structure Declaration where
  serial : Nat
  name : String
  kind : Kind
  declaredType : Option TypeRef := none
  mutable : Bool := false
  markers : List String := []
  location : Option Location := none
  deriving DecidableEq, Repr

/-- A declaration together with those around it, innermost first. -/
structure Symbol extends Declaration where
  enclosing : List Declaration := []
  deriving DecidableEq, Repr

def insertMarker (name : String) : List String → List String
  | [] => [name]
  | m :: rest => if name = m then m :: rest else if name < m then name :: m :: rest else m :: insertMarker name rest

def markerSet (names : List String) : List String := names.foldl (fun set n => insertMarker n set) []

namespace Symbol

def owner? (s : Symbol) : Option Symbol :=
  match s.enclosing with
  | [] => none
  | d :: rest => some { toDeclaration := d, enclosing := rest }

def inside (owner : Symbol) (d : Declaration) : Symbol :=
  { toDeclaration := d, enclosing := owner.toDeclaration :: owner.enclosing }

def isClass (s : Symbol) : Bool := s.kind.isClass

def qualifiedName (s : Symbol) : String :=
  ".".intercalate ((s.name :: s.enclosing.map (·.name)).reverse)

def text (s : Symbol) : String := s.kind.label ++ " " ++ s.qualifiedName

def located (s : Symbol) : String :=
  let own := s.kind.label ++ " " ++ s.name
  match s.owner? with
  | none => own
  | some o => own ++ " in " ++ o.text

theorem ownerInside (o : Symbol) (d : Declaration) : (o.inside d).owner? = some o := by
  cases o; rfl

end Symbol
end SharedState
