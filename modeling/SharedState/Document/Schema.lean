import SharedState.Document
import SharedState.Schema
import SharedState.Json.Reader
import SharedState.Json.Writer

/-! Graph documents from values and texts, and back. -/
namespace SharedState

open Checked

namespace LocationSpec

def check (s : LocationSpec) : Checked LocationSpec :=
  let line : Checked Unit := if s.line ≥ 1 then .ok () else (fail .greaterThanEqual).under (.key "line")
  let column : Checked Unit := if s.column ≥ 1 then .ok () else (fail .greaterThanEqual).under (.key "column")
  (line.and column).map fun _ => s

def ofFields (fields : Schema.Fields) : Checked LocationSpec :=
  let parts :=
    (Schema.required "path" Schema.text fields).and <|
    (Schema.required "line" Schema.positive fields).and <|
    (Schema.field "column" 1 Schema.positive fields).and <|
    Schema.only ["path", "line", "column"] fields
  parts.map fun (path, line, column, _) => { path, line, column }

def toDatum (s : LocationSpec) : Datum :=
  .table [("path", .text s.path), ("line", .int s.line), ("column", .int s.column)]

end LocationSpec

def presentField (key : String) : Option Datum → Schema.Fields
  | none => []
  | some d => [(key, d)]

def textList (xs : List String) : Datum := .list (xs.map .text)

namespace MemberSpec

def memberKind (k : Kind) : Checked Kind :=
  if k.isClass then
    fail (.rejected ("Member kind '" ++ k.tag ++ "' is not allowed; declare classes as top-level entries"))
  else .ok k

def holdsState (s : MemberSpec) : Checked MemberSpec :=
  if s.kind = .other && s.mutable then
    fail (.rejected ("Member '" ++ s.name ++ "' of kind 'other' cannot be mutable; use 'field'"))
  else .ok s

/-- The checks of a member that was not read from a value. -/
def check (s : MemberSpec) : Checked MemberSpec :=
  let name : Checked Unit := if s.name.isEmpty then (fail .stringTooShort).under (.key "name") else .ok ()
  (name.and ((memberKind s.kind).under (.key "kind"))).andThen fun _ => s.holdsState

def ofFields (fields : Schema.Fields) : Checked MemberSpec :=
  let parts :=
    (Schema.required "name" Schema.nonemptyText fields).and <|
    (Schema.field "kind" .field (fun d => (Schema.oneOf Kind.ofTag? d).andThen memberKind) fields).and <|
    (Schema.field "type" none (Schema.optional Schema.text) fields).and <|
    (Schema.field "mutable" false Schema.bool fields).and <|
    (Schema.field "annotations" [] (Schema.listOf Schema.text) fields).and <|
    (Schema.field "location" none (Schema.optional (Schema.record LocationSpec.ofFields)) fields).and <|
    Schema.only ["name", "kind", "type", "mutable", "annotations", "location"] fields
  parts.andThen fun (name, kind, type, mutable, annotations, location, _) =>
    holdsState { name, kind, type, mutable, annotations, location }

def toDatum (s : MemberSpec) : Datum :=
  .table ([("name", .text s.name), ("kind", .text s.kind.tag)] ++ presentField "type" (s.type.map .text) ++
    [("mutable", .bool s.mutable), ("annotations", textList s.annotations)] ++
    presentField "location" (s.location.map (·.toDatum)))

end MemberSpec

namespace ClassSpec

def classKind (k : Kind) : Checked Kind :=
  if k.isClass then .ok k
  else fail (.rejected ("Class kind must be 'class' or 'enum_values_holder', got '" ++ k.tag ++ "'"))

def namedAfterOwner (s : ClassSpec) : Checked ClassSpec :=
  match s.owner with
  | none => .ok s
  | some owner =>
    if (owner.toList ++ ['.']).isPrefixOf s.name.toList then .ok s
    else fail (.rejected ("Nested class '" ++ s.name ++ "' must be named '" ++ owner ++ ".<name>'"))

def check (s : ClassSpec) : Checked ClassSpec :=
  let name : Checked Unit := if s.name.isEmpty then (fail .stringTooShort).under (.key "name") else .ok ()
  (name.and ((classKind s.kind).under (.key "kind"))).andThen fun _ => s.namedAfterOwner

def ofFields (fields : Schema.Fields) : Checked ClassSpec :=
  let parts :=
    (Schema.required "name" Schema.nonemptyText fields).and <|
    (Schema.field "owner" none (Schema.optional Schema.text) fields).and <|
    (Schema.field "kind" .plainClass (fun d => (Schema.oneOf Kind.ofTag? d).andThen classKind) fields).and <|
    (Schema.field "annotations" [] (Schema.listOf Schema.text) fields).and <|
    (Schema.field "parents" [] (Schema.listOf Schema.text) fields).and <|
    (Schema.field "members" [] (Schema.listOf (Schema.record MemberSpec.ofFields)) fields).and <|
    (Schema.field "location" none (Schema.optional (Schema.record LocationSpec.ofFields)) fields).and <|
    Schema.only ["name", "owner", "kind", "annotations", "parents", "members", "location"] fields
  parts.andThen fun (name, owner, kind, annotations, parents, members, location, _) =>
    namedAfterOwner { name, owner, kind, annotations, parents, members, location }

def toDatum (s : ClassSpec) : Datum :=
  .table ([("name", .text s.name)] ++ presentField "owner" (s.owner.map .text) ++
    [("kind", .text s.kind.tag), ("annotations", textList s.annotations), ("parents", textList s.parents),
     ("members", .list (s.members.map (·.toDatum)))] ++
    presentField "location" (s.location.map (·.toDatum)))

end ClassSpec

namespace Document

def ofFields (fields : Schema.Fields) : Checked Document :=
  let parts :=
    (Schema.field "classes" [] (Schema.listOf (Schema.record ClassSpec.ofFields)) fields).and <|
    (Schema.field "aliases" [] (Schema.tableOf Schema.text) fields).and <|
    (Schema.field "static_owners" [] (Schema.listOf Schema.text) fields).and <|
    Schema.only ["classes", "aliases", "static_owners"] fields
  parts.map fun (classes, aliases, staticOwners, _) => { classes, aliases, staticOwners }

def ofDatum (d : Datum) : Checked Document := Schema.record ofFields d

def toDatum (doc : Document) : Datum :=
  .table [("classes", .list (doc.classes.map (·.toDatum))),
    ("aliases", .table (doc.aliases.map fun a => (a.1, .text a.2))),
    ("static_owners", textList doc.staticOwners)]

def parse (text : String) : Checked Document :=
  match Json.read text with
  | none => fail .jsonInvalid
  | some d => ofDatum d

def render (doc : Document) : String := Json.indented doc.toDatum

end Document
end SharedState
