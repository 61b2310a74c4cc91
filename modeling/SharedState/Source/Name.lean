import SharedState.Source.Token
import SharedState.Text.Dotted
import SharedState.Text.Identifier

/-! Names that a program may write: identifiers, dotted sequences of them, and the keywords that stand for a value. -/
namespace SharedState.Source

open SharedState.Text

def PlainWord (w : String) : Prop := isIdentifier w.toList = true ∧ w ∉ keywords

instance (w : String) : Decidable (PlainWord w) := inferInstanceAs (Decidable (_ ∧ _))

structure Identifier where
  text : String
  plain : PlainWord text
  deriving DecidableEq, Repr

structure DottedPath where
  first : Identifier
  others : List Identifier := []
  deriving DecidableEq, Repr

namespace DottedPath

def text (p : DottedPath) : String := dotted ((p.first :: p.others).map (·.text))

def access (p : DottedPath) (attr : Identifier) : DottedPath := { p with others := p.others ++ [attr] }

end DottedPath

inductive Constant where
  | none
  | true
  | false
  deriving DecidableEq, Repr

namespace Constant

def all : List Constant := [none, true, false]

def text : Constant → String
  | none => "None"
  | true => "True"
  | false => "False"

def ofText? (s : String) : Option Constant := all.find? fun c => c.text == s

end Constant
end SharedState.Source
