import SharedState.Source.Name

/-! Expressions and statements of Python, as far as declarations, annotations and singletons depend on them. Parentheses
around an expression leave no node. -/
namespace SharedState.Source

inductive BinaryOp where
  | bitOr
  | bitAnd
  | other
  deriving DecidableEq, Repr

inductive LiteralPiece where
  | plain (raw : String)
  | formatted
  deriving DecidableEq, Repr

inductive Container where
  | list
  | dict
  | set
  deriving DecidableEq, Repr

/-- An expression. `start` is the place of the first token, parentheses around the expression itself left out.
In a subscript, slices are left out and a star in front of an index is dropped. -/
inductive Expr where
  | name (id : Identifier) (start : Position)
  | constant (c : Constant)
  | access (value : Expr) (attr : Identifier) (start : Position)
  | call (func : Expr) (args : List (Option String × Expr))
  | subscript (value : Expr) (indices : List Expr)
  | binary (op : BinaryOp) (left right : Expr)
  | literal (pieces : List LiteralPiece)
  | tuple (elements : List Expr)
  | list (elements : List Expr)
  | container (kind : Container)
  | starred (value : Expr)
  | other
  deriving Repr

namespace Expr

def fullName : Expr → String
  | name id _ => id.text
  | constant c => c.text
  | access value attr _ =>
    let front := value.fullName
    if front.isEmpty then "" else front ++ "." ++ attr.text
  | _ => ""

def callee : Expr → Expr
  | call func _ => func
  | e => e

end Expr

structure Parameter where
  name : String
  type : Option Expr
  deriving Repr

structure Parameters where
  positionalOnly : List Parameter := []
  regular : List Parameter := []
  keywordOnly : List Parameter := []
  deriving Repr

structure ImportedName where
  name : DottedPath
  asName : Option String
  deriving DecidableEq, Repr

/-- A statement. The body of a compound statement holds the statements of all its blocks in source order. -/
inductive Stmt where
  | assign (targets : List Expr) (value : Expr)
  | annAssign (target type : Expr) (value : Option Expr)
  | importNames (names : List ImportedName)
  | importFrom (level : Nat) (module : Option DottedPath) (names : Option (List ImportedName))
  | classDef (name : Identifier) (decorators bases : List Expr) (body : List Stmt) (start : Position)
  | functionDef (name : Identifier) (decorators : List Expr) (params : Parameters) (returns : Option Expr)
      (body : List Stmt) (start : Position)
  | compound (body : List Stmt)
  | other
  deriving Repr

end SharedState.Source
