import SharedState.Source.Lexer
import SharedState.Source.Statement

/-! Expressions and modules of Python from their text. -/
namespace SharedState.Source

inductive SyntaxFault where
  | malformed
  | mixedSorts
  deriving DecidableEq, Repr

def literalBegin? : TokenKind → Option Bool
  | .string raw => (literalStart? raw.toList).map fun (style, _) => style.isBytes
  | .formattedStart => some false
  | _ => none

def literalEnd? : TokenKind → Option Bool
  | .string raw => (literalStart? raw.toList).map fun (style, _) => style.isBytes
  | .formattedEnd => some false
  | _ => none

def mixesLiterals : List Token → Bool
  | a :: b :: rest =>
    (match literalEnd? a.kind, literalBegin? b.kind with
      | some x, some y => x != y
      | _, _ => false) || mixesLiterals (b :: rest)
  | _ => false

/-- Reads all tokens of a text. No level of nesting is without a token of its own. -/
def readAll {α : Type} (p : Grammar → Parse α) (text : String) : Except SyntaxFault α :=
  match tokens? text with
  | none => .error .malformed
  | some ts =>
    match p (grammar (ts.length + 1)) ts with
    | none => .error .malformed
    | some (a, _) => if mixesLiterals ts then .error .mixedSorts else .ok a

def parseExpression (text : String) : Except SyntaxFault Expr := readAll expressionLine text

def parseModule (text : String) : Except SyntaxFault (List Stmt) :=
  readAll statements (match text.toList with
    | '\ufeff' :: rest => String.ofList rest
    | _ => text)

end SharedState.Source
