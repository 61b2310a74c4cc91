import SharedState.Symbol
import SharedState.Bindings

/-! The symbol graph: classes with members and parents, type aliases, and the classes that own a process-wide singleton.
`classSymbols` maps a declared type to the classes it denotes. -/
namespace SharedState

structure ClassEntry where
  symbol : Symbol
  members : List Symbol := []
  parents : List TypeRef := []
  deriving DecidableEq, Repr

structure Graph where
  entries : List ClassEntry := []
  aliases : List (String × TypeRef) := []
  staticOwners : List Symbol := []
  deriving DecidableEq, Repr

inductive GraphError where
  | notAClass (name : String)
  | duplicateClass (name : String)
  | unknownOwner (name : String)
  deriving DecidableEq, Repr

namespace GraphError

def message : GraphError → String
  | notAClass name => "ClassInfo attached to non-class symbol '" ++ name ++ "'"
  | duplicateClass name => "Duplicate class definition '" ++ name ++ "'"
  | unknownOwner name => "Static owner '" ++ name ++ "' is not a class of this graph"

end GraphError

namespace Graph

def empty : Graph := {}

def size (g : Graph) : Nat := g.entries.length

def lookup (g : Graph) (name : String) : Option Symbol :=
  (g.entries.find? fun e => e.symbol.qualifiedName == name).map (·.symbol)

def entry? (g : Graph) (cls : Symbol) : Option ClassEntry := g.entries.find? fun e => e.symbol == cls

def members (g : Graph) (cls : Symbol) : List Symbol :=
  match g.entry? cls with
  | none => []
  | some e => e.members

/-- The classes behind a name: the class so named, else those of the alias so named. An alias is not expanded again
below itself; `path` holds the aliases being expanded. -/
def expand (g : Graph) : Nat → List String → String → List Symbol
  | fuel, path, name =>
    match g.lookup name with
    | some s => [s]
    | none =>
      match fuel with
      | 0 => []
      | n + 1 =>
        if name ∈ path then []
        else match valueOf? name g.aliases with
          | none => []
          | some t => t.heads.flatMap (g.expand n (name :: path))

/-- The distinct classes that a type denotes, in the order in which they are met. A path expands each alias at most once,
so the number of aliases bounds its length. -/
def classSymbols (g : Graph) (t : TypeRef) : List Symbol :=
  (t.heads.flatMap (g.expand g.aliases.length [])).eraseDups

def typeClasses (g : Graph) (declared : Option TypeRef) : List Symbol :=
  match declared with
  | none => []
  | some t => g.classSymbols t

def parentClasses (g : Graph) (cls : Symbol) : List Symbol :=
  match g.entry? cls with
  | none => []
  | some e => (e.parents.flatMap g.classSymbols).eraseDups

def addClass (g : Graph) (e : ClassEntry) : Except GraphError Graph :=
  let name := e.symbol.qualifiedName
  if !e.symbol.isClass then .error (.notAClass name)
  else if (g.lookup name).isSome then .error (.duplicateClass name)
  else .ok { g with entries := g.entries ++ [e] }

def addOwner (g : Graph) (owner : Symbol) : Except GraphError Graph :=
  if (g.entry? owner).isNone then .error (.unknownOwner owner.qualifiedName)
  else if owner ∈ g.staticOwners then .ok g
  else .ok { g with staticOwners := g.staticOwners ++ [owner] }

def build (classes : List ClassEntry) (aliases : List (String × TypeRef)) (owners : List Symbol) :
    Except GraphError Graph := do
  let g ← classes.foldlM addClass empty
  -- An alias that is given again takes the later type.
  let table := aliases.foldl (fun table a => bindKey a.1 a.2 table) []
  owners.foldlM addOwner { g with aliases := table }

end Graph
end SharedState
