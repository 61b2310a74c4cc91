import SharedState.TypeRef
import SharedState.Symbol
import SharedState.Text.Dotted
import SharedState.Source.Syntax
import SharedState.Source.Literal

/-! Type annotations: from expressions and texts to declared types and the qualifiers written around them. -/
namespace SharedState

open SharedState.Source SharedState.Text

variable [CharacterNames]

def typingModules : List String := ["", "typing", "typing_extensions", "t"]

def qualifierWrappers : List String := ["ClassVar", "Required", "NotRequired", "ReadOnly", "InitVar"]

def arrayNames : List String := ["Array", "array", "ndarray", "bytearray"]

/-- The typing construct that a dotted name denotes, empty if it is none. -/
def typingForm (dotted : String) : String := if typingModules.contains (qualifier dotted) then leaf dotted else ""

/-- A converted annotation: its type if there is one, whether it declares something final or of the class, and the markers
in its metadata (a sorted set). -/
structure QualifiedType where
  type : Option TypeRef := none
  final : Bool := false
  classVar : Bool := false
  markers : List String := []
  deriving DecidableEq, Repr

namespace QualifiedType

def withQualifiersOf (a b : QualifiedType) : QualifiedType :=
  { type := b.type
    final := a.final || b.final
    classVar := a.classVar || b.classVar
    markers := b.markers.foldl (fun set m => insertMarker m set) a.markers }

end QualifiedType

structure TypeReader where
  resolve : String → String := id
  markers : List String := []

namespace TypeReader

def formOf (r : TypeReader) (dotted : String) : String := typingForm (r.resolve dotted)

/-- Joins several types into a union or intersection: none of no types, a single one as it is, members of the same form
taken one level up. -/
def flatten (form : TypeForm) (parts : List TypeRef) : Option TypeRef :=
  match parts with
  | [] => none
  | [part] => some part
  | _ => some (.mk form "" (parts.flatMap fun p => if p.form = form then p.args else [p]))

def markerName (e : Expr) : String := leaf e.callee.fullName

def ofName (r : TypeReader) (dotted : String) : QualifiedType :=
  let form := r.formOf dotted
  if form = "Final" then { final := true }
  else if form = "ClassVar" then { classVar := true }
  else if dotted.isEmpty then {}
  else { type := some (.named (r.resolve dotted)) }

/-- The qualifiers that a wrapper adds to the type in it, `none` if the construct is no wrapper. -/
def wrapper? (r : TypeReader) (form : String) (metadata : List Expr) : Option QualifiedType :=
  if form = "Final" then some { final := true }
  else if qualifierWrappers.contains form then some { classVar := form == "ClassVar" }
  else if form = "Annotated" then
    some { markers := markerSet ((metadata.map markerName).filter r.markers.contains) }
  else none

def application (r : TypeReader) (dotted form : String) (parts : List TypeRef) : Option TypeRef :=
  if form = "Optional" then flatten .union (parts ++ [.named "None"])
  else if form = "Union" then flatten .union parts
  else if arrayNames.contains (leaf dotted) then some (.array (parts.head?.getD (.named "object")))
  else if dotted.isEmpty then none
  else some (.applied (r.resolve dotted) parts)

def operation (op : BinaryOp) (parts : List TypeRef) : Option TypeRef :=
  match op with
  | .bitOr => flatten .union parts
  | .bitAnd => flatten .intersection parts
  | .other => none

abbrev Reading := Except LiteralError

mutual
/-- Converts an expression; `reread` converts the text in a string literal. Every qualifier met on the way counts. -/
def ofExpr (r : TypeReader) (reread : String → Reading QualifiedType) : Expr → Reading QualifiedType
  | .name id _ => .ok (r.ofName id.text)
  | .constant c => .ok (r.ofName c.text)
  | .access value attr start => .ok (r.ofName (Expr.access value attr start).fullName)
  | .literal pieces => do
    match ← literalsValue pieces with
    | some (.text codes) => reread (← plainText codes)
    | _ => return {}
  | .binary op left right => do
    let a ← ofExpr r reread left
    let b ← ofExpr r reread right
    return { a.withQualifiersOf b with type := operation op (a.type.toList ++ b.type.toList) }
  | .subscript value indices => do
    let dotted := value.fullName
    let form := r.formOf dotted
    match r.wrapper? form indices.tail with
    | some q => return q.withQualifiersOf (← ofFirst r reread indices)
    | none =>
      let (parts, q) ← ofExprs r reread indices
      return { q with type := r.application dotted form parts }
  | _ => .ok {}
def ofFirst (r : TypeReader) (reread : String → Reading QualifiedType) : List Expr → Reading QualifiedType
  | [] => .ok {}
  | e :: _ => ofExpr r reread e
def ofExprs (r : TypeReader) (reread : String → Reading QualifiedType) :
    List Expr → Reading (List TypeRef × QualifiedType)
  | [] => .ok ([], {})
  | e :: rest => do
    let a ← ofExpr r reread e
    let (parts, q) ← ofExprs r reread rest
    return (a.type.toList ++ parts, a.withQualifiersOf q)
end

/-- Converts a text, with at most so many literals inside literals. A text that is no expression has no type. -/
def ofTextWithin (r : TypeReader) : Nat → String → Reading QualifiedType
  | 0, _ => .ok {}
  | n + 1, text =>
    match parseExpression (strip text) with
    | .error .malformed => .ok {}
    | .error .mixedSorts => .error .mixedSorts
    | .ok e => ofExpr r (ofTextWithin r n) e

/-- Converts a text. A literal in it is longer than its value, so there are fewer levels than characters. -/
def ofText (r : TypeReader) (text : String) : Reading QualifiedType := ofTextWithin r (text.length + 1) text

def convert (r : TypeReader) (e : Expr) : Reading QualifiedType := ofExpr r r.ofText e

end TypeReader

def parseType (text : String) : Except LiteralError (Option TypeRef) :=
  (TypeReader.ofText {} text).map (·.type)

end SharedState
