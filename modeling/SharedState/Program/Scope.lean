import SharedState.Bindings
import SharedState.Text.Dotted
import SharedState.Source.Expr

/-! What names mean in a module: classes of the module, aliases, imports. -/
namespace SharedState

open SharedState.Source SharedState.Text

/-- A module of a program. `classes` maps the dotted path of a class inside the module to its qualified name; `aliases` are
the names that stand for types. -/
structure Module where
  name : String
  path : String
  isPackage : Bool
  body : List Stmt
  imports : List (String × String) := []
  classes : List (String × String) := []
  aliases : List String := []
  deriving Repr

/-- The first entries of a list, counted from its end if the count is negative. -/
def takeSigned {α : Type} (count : Int) (xs : List α) : List α :=
  if count ≥ 0 then xs.take count.toNat else xs.take (xs.length - (-count).toNat)

def importSource (module : String) (isPackage : Bool) (level : Nat) (source : String) : String :=
  if level = 0 then source
  else
    let parts := components module
    let package := if isPackage then parts else parts.dropLast
    let base := if level > 1 then takeSigned ((package.length : Int) - ((level : Int) - 1)) package else package
    dotted ((base.filter fun p => !p.isEmpty) ++ if source.isEmpty then [] else [source])

def addImports (module : String) (isPackage : Bool) (imports : List (String × String)) :
    Stmt → List (String × String)
  | .importNames names =>
    names.foldl (fun table n =>
      match n.asName with
      | some given => bindKey given n.name.text table
      | none => bindKey n.name.first.text n.name.first.text table) imports
  | .importFrom level source (some names) =>
    let source := importSource module isPackage level ((source.map (·.text)).getD "")
    names.foldl (fun table n =>
      bindKey (n.asName.getD n.name.text) (if source.isEmpty then n.name.text else source ++ "." ++ n.name.text)
        table) imports
  | _ => imports

def moduleImports (module : String) (isPackage : Bool) (body : List Stmt) : List (String × String) :=
  body.foldl (addImports module isPackage) []

namespace Module

def scopedClass? (m : Module) (name : String) : Nat → List String → Option String
  | depth, scope =>
    match valueOf? (dotted (scope.take depth ++ [name])) m.classes with
    | some found => some found
    | none =>
      match depth with
      | 0 => none
      | d + 1 => m.scopedClass? name d scope

/-- The qualified name that a dotted name denotes in a class scope: a class of the module, an alias, an import, else the
name itself. -/
def resolve (m : Module) (scope : List String) (name : String) : String :=
  match m.scopedClass? name scope.length scope with
  | some found => found
  | none =>
    if m.aliases.contains name then m.name ++ "." ++ name
    else match valueOf? (headPart name) m.imports with
      | some target => if (tailParts name).isEmpty then target else target ++ "." ++ tailParts name
      | none => name

end Module
end SharedState
