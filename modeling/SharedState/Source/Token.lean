/-! Tokens of Python source text, each with its place. -/
namespace SharedState.Source

/-- A place in a source text: line and column, both counted from zero. -/
structure Position where
  line : Nat
  column : Nat
  deriving DecidableEq, Repr

inductive TokenKind where
  | name (id : String)
  | number (imaginary : Bool)
  | string (raw : String)
  | formattedStart
  | formattedText
  | formattedEnd
  | op (text : String)
  | newline
  | indent
  | dedent
  | finish
  deriving DecidableEq, Repr

structure Token where
  kind : TokenKind
  position : Position
  deriving DecidableEq, Repr

def keywords : List String :=
  ["False", "None", "True", "and", "as", "assert", "async", "await", "break", "class", "continue", "def", "del", "elif",
   "else", "except", "finally", "for", "from", "global", "if", "import", "in", "is", "lambda", "nonlocal", "not", "or",
   "pass", "raise", "return", "try", "while", "with", "yield"]

def operators : List String :=
  ["**=", "//=", ">>=", "<<=", "...", "==", "!=", "<=", ">=", "<<", ">>", "**", "//", "+=", "-=", "*=", "/=", "%=",
   "&=", "|=", "^=", "@=", "->", ":=", "(", ")", "[", "]", "\x7b", "\x7d", ":", ",", ";", "+", "-", "*", "/", "|", "&", "<",
   ">", "=", ".", "%", "~", "^", "@"]

end SharedState.Source
