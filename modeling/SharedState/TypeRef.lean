/-! Declared types: structure, text, and the names at which widening looks. -/
namespace SharedState

inductive TypeForm where
  | named
  | union
  | intersection
  | applied
  | array
  deriving DecidableEq, Repr

namespace TypeForm

def all : List TypeForm := [named, union, intersection, applied, array]

def tag : TypeForm → String
  | named => "named"
  | union => "union"
  | intersection => "intersection"
  | applied => "applied"
  | array => "array"

def ofTag? (s : String) : Option TypeForm := all.find? (fun f => f.tag == s)

end TypeForm

/-- A reference to a declared type. `name` is the name of a named type or the base of an applied one; `args` are the
members of a union or intersection, the arguments of an application, or the element of an array. -/
inductive TypeRef where
  | mk (form : TypeForm) (name : String) (args : List TypeRef)
  deriving Repr

namespace TypeRef

def form : TypeRef → TypeForm
  | mk form _ _ => form

def name : TypeRef → String
  | mk _ name _ => name

def args : TypeRef → List TypeRef
  | mk _ _ args => args

def named (name : String) : TypeRef := mk .named name []

def union (members : List TypeRef) : TypeRef := mk .union "" members

def intersection (members : List TypeRef) : TypeRef := mk .intersection "" members

def applied (base : String) (args : List TypeRef) : TypeRef := mk .applied base args

def array (element : TypeRef) : TypeRef := mk .array "" [element]

mutual
def decEq : (a b : TypeRef) → Decidable (a = b)
  | mk f n xs, mk g m ys =>
    if hf : f = g then
      if hn : n = m then
        match decEqList xs ys with
        | isTrue hx => isTrue (by rw [hf, hn, hx])
        | isFalse hx => isFalse (by intro h; cases h; exact hx rfl)
      else isFalse (by intro h; cases h; exact hn rfl)
    else isFalse (by intro h; cases h; exact hf rfl)
def decEqList : (xs ys : List TypeRef) → Decidable (xs = ys)
  | [], [] => isTrue rfl
  | [], _ :: _ => isFalse (by simp)
  | _ :: _, [] => isFalse (by simp)
  | x :: xs, y :: ys =>
    match decEq x y with
    | isFalse h => isFalse (by intro same; cases same; exact h rfl)
    | isTrue h =>
      match decEqList xs ys with
      | isTrue hs => isTrue (by rw [h, hs])
      | isFalse hs => isFalse (by intro same; cases same; exact hs rfl)
end

instance : DecidableEq TypeRef := decEq

mutual
/-- The text of a type in annotation form. An array without an element has none. -/
def text? : TypeRef → Option String
  | mk .named n _ => some n
  | mk .union _ args => (texts? args).map " | ".intercalate
  | mk .intersection _ args => (texts? args).map " & ".intercalate
  | mk .applied n args =>
    (texts? args).map fun parts => if parts.isEmpty then n else n ++ "[" ++ ", ".intercalate parts ++ "]"
  | mk .array _ [] => none
  | mk .array _ (element :: _) => (text? element).map fun t => "Array[" ++ t ++ "]"
def texts? : List TypeRef → Option (List String)
  | [] => some []
  | t :: rest =>
    match text? t, texts? rest with
    | some s, some ss => some (s :: ss)
    | _, _ => none
end

mutual
/-- The names at which widening looks, in order: a name, the base of an application, those of each member of a union or
intersection. Arguments of applications and elements of arrays are not looked at. -/
def heads : TypeRef → List String
  | mk .named n _ => [n]
  | mk .applied n _ => [n]
  | mk .union _ args => headsAll args
  | mk .intersection _ args => headsAll args
  | mk .array _ _ => []
def headsAll : List TypeRef → List String
  | [] => []
  | t :: rest => heads t ++ headsAll rest
end

end TypeRef
end SharedState
