import SharedState.Program.Members
import SharedState.Source.Syntax

/-! Programs: modules are added one by one, and then make up a graph. -/
namespace SharedState

open SharedState.Source SharedState.Text

variable [CharacterNames]

inductive ProgramError where
  | moduleTwice (name : String)
  | malformed (place : String)
  | literal (e : LiteralError)
  | graph (e : GraphError)
  deriving DecidableEq, Repr

namespace ProgramError

def message : ProgramError → String
  | moduleTwice name => "Module '" ++ name ++ "' added twice"
  | malformed place => "Failed to parse " ++ place
  | literal e => e.message
  | graph e => e.message

end ProgramError

structure Program where
  vocabulary : Vocabulary
  modules : List Module := []
  decls : List ClassDecl := []
  deriving Repr

namespace Program

def ofSettings (s : Settings) : Program := { vocabulary := s.vocabulary }

def add (p : Program) (code module : String) (path : Option String) (isPackage : Bool) : Except ProgramError Program :=
  if p.modules.any fun m => m.name == module then .error (.moduleTwice module)
  else
    let place := match path with
      | some s => if s.isEmpty then none else some s
      | none => none
    match parseModule code with
    | .error .malformed => .error (.malformed (place.getD module))
    | .error .mixedSorts => .error (.literal .mixedSorts)
    | .ok body =>
      let m : Module :=
        { name := module, path := place.getD ("<" ++ module ++ ">"), isPackage, body,
          imports := moduleImports module isPackage body }
      let found := classesIn p.vocabulary m p.modules.length p.decls.length [] none body
      let classes := found.foldl (fun t d => bindKey (dotted d.scope) d.symbol.qualifiedName t) []
      .ok { p with modules := p.modules ++ [{ m with classes }], decls := p.decls ++ found }

/-- The class with a qualified name; of several the last. -/
def classNamed? (p : Program) (name : String) : Option Symbol :=
  (p.decls.reverse.find? fun d => d.symbol.qualifiedName == name).map (·.symbol)

def viewpoint (p : Program) (m : Module) (scope : List String) : Viewpoint :=
  { vocabulary := p.vocabulary, module := m, scope }

def declaresAlias (m : Module) : Stmt → Bool
  | .annAssign _ type _ => typingForm (m.resolve [] type.fullName) == "TypeAlias"
  | _ => false

def isDotted : Expr → Bool
  | .name _ _ => true
  | .constant _ => true
  | .access _ _ _ => true
  | _ => false

def targetName? : Expr → Option String
  | .name id _ => some id.text
  | _ => none

def aliasNames (m : Module) (s : Stmt) : List String :=
  match s with
  | .annAssign target _ _ => if declaresAlias m s then (targetName? target).toList else []
  | .assign targets value => if isDotted value then targets.filterMap targetName? else []
  | _ => []

def addName (known : List String) (name : String) : List String :=
  if known.contains name then known else known ++ [name]

/-- Adds the names that a statement makes aliases, which may change what later names mean. -/
def registerAliases (m : Module) (s : Stmt) : Module :=
  { m with aliases := (aliasNames m s).foldl addName m.aliases }

structure TopLevel where
  aliases : List (String × TypeRef) := []
  owners : List Symbol := []
  deriving DecidableEq, Repr

namespace TopLevel

def addOwner (t : TopLevel) : Option Symbol → TopLevel
  | none => t
  | some s => if t.owners.contains s then t else { t with owners := t.owners ++ [s] }

def addAlias (t : TopLevel) (name : String) (type : TypeRef) : TopLevel :=
  { t with aliases := bindKey name type t.aliases }

end TopLevel

def bindValue (p : Program) (m : Module) (t : TopLevel) (targets : List Expr) (value : Expr) : TopLevel :=
  match value with
  | .call func _ => t.addOwner (p.classNamed? (m.resolve [] func.fullName))
  | _ =>
    if isDotted value then
      let target := m.resolve [] value.fullName
      (targets.filterMap targetName?).foldl (fun t id =>
        -- A name that is assigned to itself makes no alias.
        if target = m.name ++ "." ++ id then t else t.addAlias (m.name ++ "." ++ id) (.named target)) t
    else t

def bindStatement (p : Program) (m : Module) (t : TopLevel) (s : Stmt) : TypeReader.Reading TopLevel :=
  match s with
  | .annAssign target _ (some value) =>
    if declaresAlias m s then do
      let a ← (p.viewpoint m []).reader.convert value
      match a.type, targetName? target with
      | some type, some id => return t.addAlias (m.name ++ "." ++ id) type
      | _, _ => return t
    else .ok (p.bindValue m t [target] value)
  | .assign targets value => .ok (p.bindValue m t targets value)
  | _ => .ok t

def bindModule (p : Program) (m : Module) (t : TopLevel) : Module × TypeReader.Reading TopLevel :=
  let m := m.body.foldl registerAliases m
  (m, m.body.foldlM (p.bindStatement m) t)

/-- Goes through modules until one has a malformed annotation; aliases stay registered. -/
def bindModules (p : Program) : List Module → TopLevel → List Module × TypeReader.Reading TopLevel
  | [], t => ([], .ok t)
  | m :: rest, t =>
    match p.bindModule m t with
    | (m, .error e) => (m :: rest, .error e)
    | (m, .ok t) =>
      let (rest, result) := p.bindModules rest t
      (m :: rest, result)

def addDecorated (p : Program) (t : TopLevel) : TopLevel :=
  (p.decls.filter fun d => d.isSingleton p.vocabulary).foldl
    (fun t d => t.addOwner (p.classNamed? d.symbol.qualifiedName)) t

def elaborate (p : Program) (d : ClassDecl) : TypeReader.Reading ClassEntry :=
  match p.modules[d.module]? with
  | some m => elaborateClass (p.viewpoint m d.scope) d
  | none => .ok { symbol := d.symbol }

def graphOf (p : Program) (t : TopLevel) : Except ProgramError Graph :=
  match p.decls.mapM p.elaborate with
  | .error e => .error (.literal e)
  | .ok entries =>
    match Graph.build entries t.aliases (p.addDecorated t).owners with
    | .error e => .error (.graph e)
    | .ok g => .ok g

/-- Builds the graph of a program. Aliases registered on the way stay so in the program that is returned. -/
def build (p : Program) : Program × Except ProgramError Graph :=
  let (modules, result) := p.bindModules p.modules {}
  let p := { p with modules }
  match result with
  | .error e => (p, .error (.literal e))
  | .ok t => (p, p.graphOf t)

def graphOfSource (s : Settings) (code module : String) : Except ProgramError Graph := do
  let p ← (ofSettings s).add code module none false
  p.build.2

end Program
end SharedState
