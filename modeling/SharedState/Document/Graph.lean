import SharedState.Document.Schema
import SharedState.Settings.Schema
import SharedState.Graph
import SharedState.TypeExpr
import SharedState.Diagnostic

/-! Graphs of documents, and documents of graphs. -/
namespace SharedState

open SharedState.Source

variable [CharacterNames]

inductive DocumentError where
  | unknownOwner (owner name : String)
  | invalidType (text place : String)
  | unknownStaticOwner (name : String)
  | literal (e : LiteralError)
  | graph (e : GraphError)
  deriving DecidableEq, Repr

namespace DocumentError

def message : DocumentError → String
  | unknownOwner owner name => "Unknown owner '" ++ owner ++ "' of class '" ++ name ++ "'"
  | invalidType text place => "Invalid type '" ++ text ++ "' in " ++ place
  | unknownStaticOwner name => "Unknown static owner '" ++ name ++ "'"
  | literal e => e.message
  | graph e => e.message

end DocumentError

inductive DumpError where
  | typeWithoutText
  | issues (list : List Issue)
  deriving DecidableEq, Repr

def documentMarkers (names : List String) : List String :=
  markerSet ((names.filter fun n => !(Text.strip n).isEmpty).map Settings.bareMarker)

namespace LocationSpec

def toLocation (s : LocationSpec) : Location := { path := s.path, line := s.line, column := s.column }

def ofLocation (l : Location) : LocationSpec := { path := l.path, line := l.line, column := l.column }

end LocationSpec

def documentType (text : Option String) (place : String) : Except DocumentError (Option TypeRef) :=
  match text with
  | none => .ok none
  | some text =>
    if (Text.strip text).isEmpty then .ok none
    else match parseType text with
      | .error e => .error (.literal e)
      | .ok none => .error (.invalidType text place)
      | .ok (some t) => .ok (some t)

namespace Document

def classNamed? (specs : List ClassSpec) (name : String) : Option (Nat × ClassSpec) :=
  (specs.zipIdx.find? fun s => s.1.name == name).map fun (s, i) => (i, s)

/-- The symbol of a class. Owners have shorter names, so the first argument is only a bound. -/
def classSymbol (specs : List ClassSpec) : Nat → Nat × ClassSpec → Except DocumentError Symbol
  | 0, (_, spec) => .error (.unknownOwner (spec.owner.getD "") spec.name)
  | n + 1, (serial, spec) =>
    let declaration (name : String) : Declaration :=
      { serial, name, kind := spec.kind, markers := documentMarkers spec.annotations,
        location := spec.location.map (·.toLocation) }
    match spec.owner with
    | none => .ok { toDeclaration := declaration spec.name }
    | some owner =>
      match classNamed? specs owner with
      | none => .error (.unknownOwner owner spec.name)
      | some found =>
        match classSymbol specs n found with
        | .error e => .error e
        | .ok outer =>
          .ok (outer.inside (declaration (String.ofList (spec.name.toList.drop (owner.length + 1)))))

def memberSymbol (spec : ClassSpec) (cls : Symbol) (serial : Nat) (m : MemberSpec) : Except DocumentError Symbol := do
  let declaredType ← documentType m.type (spec.name ++ "." ++ m.name)
  return cls.inside
    { serial, name := m.name, kind := m.kind, declaredType, mutable := m.mutable,
      markers := documentMarkers m.annotations, location := m.location.map (·.toLocation) }

def classEntry (specs : List ClassSpec) (spec : ClassSpec) : Except DocumentError ClassEntry := do
  let symbol ← classSymbol specs (specs.length + 1) ((classNamed? specs spec.name).getD (0, spec))
  let members ← (spec.members.zipIdx).mapM fun (m, i) => memberSymbol spec symbol i m
  let parents ← spec.parents.mapM fun t => documentType (some t) ("parents of " ++ spec.name)
  return { symbol, members, parents := parents.filterMap id }

def aliasEntry (a : String × String) : Except DocumentError (Option (String × TypeRef)) := do
  let t ← documentType (some a.2) ("alias " ++ a.1)
  return t.map fun t => (a.1, t)

def ownerNamed (entries : List ClassEntry) (name : String) : Except DocumentError Symbol :=
  match entries.find? fun e => e.symbol.qualifiedName == name with
  | some e => .ok e.symbol
  | none => .error (.unknownStaticOwner name)

def toGraph (doc : Document) : Except DocumentError Graph := do
  let entries ← doc.classes.mapM (classEntry doc.classes)
  let aliases ← doc.aliases.mapM aliasEntry
  let owners ← doc.staticOwners.mapM (ownerNamed entries)
  match Graph.build entries (aliases.filterMap id) owners with
  | .ok g => return g
  | .error e => .error (.graph e)

end Document

def checkedSpec {α : Type} : Checked α → Except DumpError α
  | .ok a => .ok a
  | .error issues => .error (.issues issues)

def dumpText (t : TypeRef) : Except DumpError String :=
  match t.text? with
  | some s => .ok s
  | none => .error .typeWithoutText

def dumpLocation (l : Option Location) : Except DumpError (Option LocationSpec) :=
  match l with
  | none => .ok none
  | some l => (checkedSpec (LocationSpec.ofLocation l).check).map some

namespace MemberSpec

def ofSymbol (m : Symbol) : Except DumpError MemberSpec := do
  let type ← m.declaredType.mapM dumpText
  let location ← dumpLocation m.location
  checkedSpec (check
    { name := m.name, kind := m.kind, type, mutable := m.mutable, annotations := m.markers, location })

end MemberSpec

namespace ClassSpec

/-- A class as an entry of a document; members that are classes have entries of their own. -/
def ofEntry (e : ClassEntry) : Except DumpError ClassSpec := do
  let parents ← e.parents.mapM dumpText
  let members ← (e.members.filter fun m => !m.isClass).mapM MemberSpec.ofSymbol
  let location ← dumpLocation e.symbol.location
  checkedSpec (check
    { name := e.symbol.qualifiedName, owner := e.symbol.owner?.map (·.qualifiedName), kind := e.symbol.kind,
      annotations := e.symbol.markers, parents, members, location })

end ClassSpec

namespace Graph

def toDocument (g : Graph) : Except DumpError Document := do
  let classes ← g.entries.mapM ClassSpec.ofEntry
  let aliases ← g.aliases.mapM fun (name, t) => do return (name, ← dumpText t)
  return { classes, aliases, staticOwners := g.staticOwners.map (·.qualifiedName) }

def dump (g : Graph) : Except DumpError String := g.toDocument.map (·.render)

end Graph
end SharedState
