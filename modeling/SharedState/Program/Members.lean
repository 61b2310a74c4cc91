import SharedState.Program.ClassDecl
import SharedState.Graph
import SharedState.TypeExpr

/-! The members of a class, from its body and its constructor. -/
namespace SharedState

open SharedState.Source SharedState.Text

variable [CharacterNames]

structure Viewpoint where
  vocabulary : Vocabulary
  module : Module
  scope : List String

namespace Viewpoint

def resolve (p : Viewpoint) (name : String) : String := p.module.resolve p.scope name

def reader (p : Viewpoint) : TypeReader := { resolve := p.resolve, markers := p.vocabulary.markers }

def valueType? (p : Viewpoint) : Expr → Option TypeRef
  | .call func _ => if func.fullName.isEmpty then none else some (.named (p.resolve func.fullName))
  | .list _ => some (.named "list")
  | .container .list => some (.named "list")
  | .container .dict => some (.named "dict")
  | .container .set => some (.named "set")
  | _ => none

end Viewpoint

def QualifiedType.orValue (a : QualifiedType) (p : Viewpoint) (value : Option Expr) : QualifiedType :=
  match a.type, value with
  | none, some v => { a with type := p.valueType? v }
  | _, _ => a

/-- A field of a class. One of an instance is immutable if instances are frozen, any one if it is final. -/
def fieldDeclaration (p : Viewpoint) (d : ClassDecl) (name : String) (kind : Kind) (a : QualifiedType)
    (start : Position) (ofInstance : Bool) : Declaration :=
  { serial := 0, name, kind, declaredType := a.type, mutable := !(a.final || (ofInstance && d.frozen)),
    markers := p.vocabulary.markersOf a.markers, location := some (locationOf p.module.path start) }

def isDunder (name : String) : Bool := name.startsWith "__" && name.endsWith "__"

def attributeFields (p : Viewpoint) (d : ClassDecl) : Stmt → TypeReader.Reading (List Declaration)
  | .annAssign (.name id start) type value => do
    let a := (← p.reader.convert type).orValue p value
    -- Where fields are parameters of the constructor, those of the class itself are none.
    let isParam := d.paramFields && !a.classVar
    return [fieldDeclaration p d id.text (if isParam then .paramAccessor else .field) a start isParam]
  | .assign targets value =>
    .ok (targets.filterMap fun t =>
      match t with
      | .name id start =>
        if isDunder id.text then none
        else some (fieldDeclaration p d id.text .field { type := p.valueType? value } start false)
      | _ => none)
  | _ => .ok []

structure SelfAssignment where
  attr : Identifier
  start : Position
  type : Option Expr
  value : Option Expr
  deriving Repr

mutual
/-- The attributes of `self` in a target. Inside a tuple or list they have neither annotation nor value. -/
def selfTargets (self : String) (type value : Option Expr) : Expr → List SelfAssignment
  | .access (.name id _) attr start => if id.text = self then [{ attr, start, type, value }] else []
  | .tuple elements => selfElements self elements
  | .list elements => selfElements self elements
  | _ => []
def selfElements (self : String) : List Expr → List SelfAssignment
  | [] => []
  | .starred e :: rest => selfTargets self none none e ++ selfElements self rest
  | e :: rest => selfTargets self none none e ++ selfElements self rest
end

mutual
/-- The attributes of `self` that a statement assigns, outside functions and classes in it. -/
def selfAssignments (self : String) : Stmt → List SelfAssignment
  | .assign targets value => targets.flatMap (selfTargets self none (some value))
  | .annAssign target type value => selfTargets self (some type) value target
  | .compound body => selfAssignmentsIn self body
  | _ => []
def selfAssignmentsIn (self : String) : List Stmt → List SelfAssignment
  | [] => []
  | s :: rest => selfAssignments self s ++ selfAssignmentsIn self rest
end

def parameterType? (params : List Parameter) (name : String) : Option Expr :=
  -- Of several parameters with one name the last annotated one counts.
  (params.reverse.find? fun p => p.name = name && p.type.isSome).bind (·.type)

def constructorType (p : Viewpoint) (params : List Parameter) (s : SelfAssignment) :
    TypeReader.Reading QualifiedType :=
  match s.type, s.value with
  | some e, _ => p.reader.convert e
  | none, some (.name id _) =>
    match parameterType? params id.text with
    -- A final parameter does not make the attribute final.
    | some e => (p.reader.convert e).map fun a => { a with final := false }
    | none => .ok {}
  | none, _ => .ok {}

def instanceField (p : Viewpoint) (d : ClassDecl) (params : List Parameter) (s : SelfAssignment) :
    TypeReader.Reading Declaration := do
  let a ← constructorType p params s
  return fieldDeclaration p d s.attr.text .field (a.orValue p s.value) s.start true

def instanceFields (p : Viewpoint) (d : ClassDecl) (params : Parameters) (body : List Stmt) :
    TypeReader.Reading (List Declaration) :=
  match params.regular with
  | [] => .ok []
  | self :: others => (selfAssignmentsIn self.name body).mapM (instanceField p d others)

def propertyDecorators : List String := ["property", "cached_property"]

def functionMembers (p : Viewpoint) (d : ClassDecl) (name : Identifier) (decorators : List Expr) (params : Parameters)
    (returns : Option Expr) (body : List Stmt) (start : Position) : TypeReader.Reading (List Declaration) := do
  let names := decorators.map decoratorName
  let plain (kind : Kind) : Declaration :=
    { serial := 0, name := name.text, kind, markers := p.vocabulary.markersOf (names.map leaf),
      location := some (locationOf p.module.path start) }
  if names.any fun n => propertyDecorators.contains (leaf n) then
    let a : QualifiedType ← match returns with
      | some e => p.reader.convert e
      | none => .ok {}
    return [{ plain .accessor with
      declaredType := a.type
      markers := markerSet ((plain .accessor).markers ++ p.vocabulary.markersOf a.markers) }]
  else if names.any (·.endsWith ".setter") then return [plain .setter]
  else if names.any (·.endsWith ".deleter") then return [plain .other]
  else if name.text = "__init__" then return plain .method :: (← instanceFields p d params body)
  else return [plain .method]

/-- A nested class is stored in the class around it, so it is an immutable field there. -/
def nestedClassField (p : Viewpoint) (d : ClassDecl) (name : Identifier) (start : Position) : Declaration :=
  { serial := 0, name := name.text, kind := .field,
    declaredType := some (.named (d.symbol.qualifiedName ++ "." ++ name.text)),
    location := some (locationOf p.module.path start) }

def statementMembers (p : Viewpoint) (d : ClassDecl) : Stmt → TypeReader.Reading (List Declaration)
  | .functionDef name decorators params returns body start =>
    functionMembers p d name decorators params returns body start
  | .classDef name _ _ _ start => .ok [nestedClassField p d name start]
  | s => attributeFields p d s

/-- What makes two members the same: the name and the kind, parameters counted as fields. -/
def memberKey (d : Declaration) : String × Kind :=
  (d.name, if d.kind = .paramAccessor then .field else d.kind)

def addMember (members : List Declaration) (d : Declaration) : List Declaration :=
  if members.any fun m => memberKey m = memberKey d then members
  else members ++ [{ d with serial := members.length }]

def elaborateClass (p : Viewpoint) (d : ClassDecl) : TypeReader.Reading ClassEntry := do
  let found ← d.body.mapM (statementMembers p d)
  let members := found.flatten.foldl addMember []
  let parents ← d.bases.mapM p.reader.convert
  return { symbol := d.symbol, members := members.map d.symbol.inside, parents := parents.filterMap (·.type) }

end SharedState
