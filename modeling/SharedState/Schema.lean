import SharedState.Datum
import SharedState.Bindings
import SharedState.Text.Blank

/-! Checking values against a schema. All issues are collected, in the order of the schema; unknown keys come last. -/
namespace SharedState

inductive Step where
  | key (name : String)
  | index (n : Nat)
  deriving DecidableEq, Repr

inductive Cause where
  | missing
  | modelType
  | stringType
  | stringTooShort
  | boolType
  | boolParsing
  | intType
  | intParsing
  | intFromFloat
  | finiteNumber
  | greaterThanEqual
  | enumValue
  | listType
  | dictType
  | extraForbidden
  | jsonInvalid
  | rejected (reason : String)
  deriving DecidableEq, Repr

namespace Cause

def tag : Cause → String
  | missing => "missing"
  | modelType => "model_type"
  | stringType => "string_type"
  | stringTooShort => "string_too_short"
  | boolType => "bool_type"
  | boolParsing => "bool_parsing"
  | intType => "int_type"
  | intParsing => "int_parsing"
  | intFromFloat => "int_from_float"
  | finiteNumber => "finite_number"
  | greaterThanEqual => "greater_than_equal"
  | enumValue => "enum"
  | listType => "list_type"
  | dictType => "dict_type"
  | extraForbidden => "extra_forbidden"
  | jsonInvalid => "json_invalid"
  | rejected _ => "value_error"

end Cause

structure Issue where
  path : List Step
  cause : Cause
  deriving DecidableEq, Repr

abbrev Checked := Except (List Issue)

namespace Checked

def fail {α : Type} (cause : Cause) : Checked α := .error [⟨[], cause⟩]

def under {α : Type} (step : Step) : Checked α → Checked α
  | .ok a => .ok a
  | .error issues => .error (issues.map fun i => { i with path := step :: i.path })

def and {α β : Type} : Checked α → Checked β → Checked (α × β)
  | .ok a, .ok b => .ok (a, b)
  | .ok _, .error e => .error e
  | .error e, .ok _ => .error e
  | .error e, .error f => .error (e ++ f)

def andThen {α β : Type} (c : Checked α) (f : α → Checked β) : Checked β :=
  match c with
  | .ok a => f a
  | .error e => .error e

def all {α : Type} : List (Checked α) → Checked (List α)
  | [] => .ok []
  | c :: rest => (c.and (all rest)).map fun (a, as) => a :: as

end Checked

namespace Schema

open Checked

abbrev Fields := List (String × Datum)

def text : Datum → Checked String
  | .text s => .ok s
  | _ => fail .stringType

def nonemptyText (d : Datum) : Checked String :=
  (text d).andThen fun s => if s.isEmpty then fail .stringTooShort else .ok s

def optional {α : Type} (check : Datum → Checked α) : Datum → Checked (Option α)
  | .null => .ok none
  | d => (check d).map some

def trueWords : List String := ["1", "on", "t", "true", "y", "yes"]

def falseWords : List String := ["0", "off", "f", "false", "n", "no"]

def boolOfInt (n : Int) : Checked Bool :=
  if n = 0 then .ok false else if n = 1 then .ok true else fail .boolParsing

/-- A truth value, also as a number or as one of a few words in any case. -/
def bool : Datum → Checked Bool
  | .bool b => .ok b
  | .int n => boolOfInt n
  | .real d =>
    match d.shape with
    | .whole n => boolOfInt n
    | _ => fail .boolType
  | .text s =>
    let lower := s.map Char.toLower
    if trueWords.contains lower then .ok true
    else if falseWords.contains lower then .ok false
    else fail .boolParsing
  | _ => fail .boolType

def isDigit (c : Char) : Bool := '0' ≤ c && c ≤ '9'

/-- Digits with single underscores between them, from the second character on. -/
def groupedDigits : List Char → Bool
  | [] => true
  | '_' :: c :: rest => isDigit c && groupedDigits rest
  | c :: rest => isDigit c && groupedDigits rest

def zeroFraction : List Char → Bool
  | [] => true
  | '.' :: '0' :: rest => rest.all (· == '0')
  | _ => false

/-- White space around a numeral: as everywhere, but not the four separators. -/
def isNumeralBlank (c : Char) : Bool := Text.isBlank c && !(28 ≤ c.toNat && c.toNat ≤ 31)

def integerOfText? (s : String) : Option Int :=
  let cs := Text.trimWhile isNumeralBlank s.toList
  let (negative, cs) := match cs with
    | '-' :: rest => (true, rest)
    | '+' :: rest => (false, rest)
    | _ => (false, cs)
  let whole := cs.takeWhile (· != '.')
  let starts := match whole with
    | c :: _ => isDigit c
    | [] => false
  if starts && groupedDigits whole && zeroFraction (cs.dropWhile (· != '.')) then
    let n : Nat := (whole.filter isDigit).foldl (fun n c => 10 * n + (c.toNat - 48)) 0
    some (if negative then -(n : Int) else n)
  else none

/-- An integer, also as a truth value, a number without a fraction, or a text. -/
def int : Datum → Checked Int
  | .int n => .ok n
  | .bool b => .ok (if b then 1 else 0)
  | .real d =>
    match d.shape with
    | .whole n => .ok n
    | .fractional => fail .intFromFloat
    | .infinite => fail .finiteNumber
  | .unreal => fail .finiteNumber
  | .text s =>
    match integerOfText? s with
    | some n => .ok n
    | none => fail .intParsing
  | _ => fail .intType

def positive (d : Datum) : Checked Int :=
  (int d).andThen fun n => if n ≥ 1 then .ok n else fail .greaterThanEqual

def oneOf {α : Type} (ofTag? : String → Option α) : Datum → Checked α
  | .text s =>
    match ofTag? s with
    | some a => .ok a
    | none => fail .enumValue
  | _ => fail .enumValue

def listOf {α : Type} (check : Datum → Checked α) : Datum → Checked (List α)
  | .list items => all (items.mapIdx fun i d => (check d).under (.index i))
  | _ => fail .listType

def tableOf {α : Type} (check : Datum → Checked α) : Datum → Checked (List (String × α))
  | .table fields => all (fields.map fun f => ((check f.2).under (.key f.1)).map fun a => (f.1, a))
  | _ => fail .dictType

def required {α : Type} (key : String) (check : Datum → Checked α) (fields : Fields) : Checked α :=
  (match valueOf? key fields with
    | some d => check d
    | none => fail .missing).under (.key key)

def field {α : Type} (key : String) (absent : α) (check : Datum → Checked α) (fields : Fields) : Checked α :=
  match valueOf? key fields with
  | some d => (check d).under (.key key)
  | none => .ok absent

def only (known : List String) (fields : Fields) : Checked Unit :=
  (all ((fields.filter fun f => !known.contains f.1).map fun f =>
    (fail .extraForbidden : Checked Unit).under (.key f.1))).map fun _ => ()

def record {α : Type} (check : Fields → Checked α) : Datum → Checked α
  | .table fields => check fields
  | _ => fail .modelType

end Schema
end SharedState
