import SharedState.Program.Scope
import SharedState.Symbol
import SharedState.Settings

/-! The classes that a module declares. -/
namespace SharedState

open SharedState.Source SharedState.Text

structure Vocabulary where
  markers : List String
  singletons : List String
  deriving DecidableEq, Repr

namespace Settings

def vocabulary (s : Settings) : Vocabulary :=
  { markers := [s.sharableMarker, s.unsharedMarker], singletons := s.singletonDecorators.map leaf }

end Settings

namespace Vocabulary

def markersOf (v : Vocabulary) (names : List String) : List String := markerSet (names.filter v.markers.contains)

end Vocabulary

/-- A class of a program, before its members are known. `scope` is its path inside the module, itself included.
Assignment to instances of a frozen class is ruled out; the fields of some classes are parameters of their constructor. -/
structure ClassDecl where
  symbol : Symbol
  module : Nat
  scope : List String
  decorators : List String
  bases : List Expr
  body : List Stmt
  frozen : Bool
  paramFields : Bool
  deriving Repr

def enumBases : List String := ["Enum", "IntEnum", "StrEnum", "Flag", "IntFlag", "ReprEnum"]

def dataclassDecorators : List String := ["dataclass", "dataclasses.dataclass"]

def decoratorName (e : Expr) : String := e.callee.fullName

/-- Whether a decorator asks for frozen instances; of several requests the last counts. -/
def asksFrozen : Expr → Bool
  | .call _ args => args.foldl (fun frozen a =>
      if a.1 = some "frozen" then
        match a.2 with
        | .constant .true => true
        | _ => false
      else frozen) false
  | _ => false

def dataclassFrozen? (decorators : List Expr) : Option Bool :=
  (decorators.find? fun d => dataclassDecorators.contains (decoratorName d)).map asksFrozen

def locationOf (path : String) (p : Position) : Location := { path, line := p.line + 1, column := p.column + 1 }

def declareClass (v : Vocabulary) (m : Module) (index serial : Nat) (scope : List String) (outer : Option Symbol)
    (name : Identifier) (decorators bases : List Expr) (body : List Stmt) (start : Position) : ClassDecl :=
  let baseNames := bases.map (leaf ·.fullName)
  let names := decorators.map decoratorName
  let namedTuple := baseNames.contains "NamedTuple"
  let frozen? := dataclassFrozen? decorators
  let declaration (name : String) : Declaration :=
    { serial, name, kind := if baseNames.any enumBases.contains then .enumHolder else .plainClass,
      markers := v.markersOf (names.map leaf), location := some (locationOf m.path start) }
  { symbol := match outer with
      | none => { toDeclaration := declaration (m.name ++ "." ++ name.text) }
      | some o => o.inside (declaration name.text)
    module := index, scope := scope ++ [name.text], decorators := names, bases, body,
    frozen := frozen?.getD false || namedTuple, paramFields := frozen?.isSome || namedTuple }

mutual
/-- The classes of a statement, outer ones before those nested in them. Those inside functions do not count. -/
def classesOf (v : Vocabulary) (m : Module) (index serial : Nat) (scope : List String) (outer : Option Symbol) :
    Stmt → List ClassDecl
  | .classDef name decorators bases body start =>
    let decl := declareClass v m index serial scope outer name decorators bases body start
    decl :: classesIn v m index (serial + 1) (scope ++ [name.text]) (some decl.symbol) body
  | .compound body => classesIn v m index serial scope outer body
  | _ => []
def classesIn (v : Vocabulary) (m : Module) (index serial : Nat) (scope : List String) (outer : Option Symbol) :
    List Stmt → List ClassDecl
  | [] => []
  | s :: rest =>
    let found := classesOf v m index serial scope outer s
    found ++ classesIn v m index (serial + found.length) scope outer rest
end

namespace ClassDecl

def isSingleton (v : Vocabulary) (d : ClassDecl) : Bool := d.decorators.any fun n => v.singletons.contains (leaf n)

end ClassDecl
end SharedState
