import SharedState.Source.Token
import SharedState.Source.Quoted

/-! From source text to tokens. White space and comments are dropped; line ends and changes of indentation become tokens
where no bracket is open. Places count what remains: white space in front of the first token of a line is taken for the
indentation of its block, and line ends inside it do not count. -/
namespace SharedState.Source

open SharedState.Text

inductive Opener where
  | bracket (close : Char)
  | formatted (style : QuoteStyle)
  | field (style : QuoteStyle) (inFormat : Bool)
  deriving DecidableEq, Repr

/-- The indentation of a block: its column with tabs at every eighth column, the same with tabs of width one, the white
space itself, and the width of all indentations around it and its own. -/
structure Indentation where
  column : Nat
  narrow : Nat
  text : List Char
  width : Nat
  deriving DecidableEq, Repr

/-- Where the lexer stands. `lineOrigin`, `columnOrigin` and `width` say at which place the first token of the current line
stood and at which column it is counted; `dropped` counts the line ends that do not count. -/
structure Place where
  line : Nat := 0
  column : Nat := 0
  dropped : Nat := 0
  lineOrigin : Nat := 0
  columnOrigin : Nat := 0
  width : Nat := 0
  deriving DecidableEq, Repr

namespace Place

def position (p : Place) : Position :=
  { line := p.line - p.dropped
    column := if p.line = p.lineOrigin then p.column - p.columnOrigin + p.width else p.column }

def step (p : Place) (c : Char) : Place :=
  if c == '\n' then { p with line := p.line + 1, column := 0 } else { p with column := p.column + 1 }

def after (p : Place) (text : List Char) : Place := text.foldl step p

def atOrigin (p : Place) (width : Nat) : Place :=
  { p with lineOrigin := p.line, columnOrigin := p.column, width }

end Place

structure Lexing where
  place : Place := {}
  indentations : List Indentation := []
  openers : List Opener := []
  tokens : List Token := []
  deriving DecidableEq, Repr

namespace Lexing

def emit (s : Lexing) (kind : TokenKind) : Lexing :=
  { s with tokens := ⟨kind, s.place.position⟩ :: s.tokens }

def take (s : Lexing) (kind : TokenKind) (text : List Char) : Lexing :=
  { s.emit kind with place := s.place.after text }

def skip (s : Lexing) (text : List Char) : Lexing := { s with place := s.place.after text }

def push (s : Lexing) (o : Opener) : Lexing := { s with openers := o :: s.openers }

def pop (s : Lexing) : Lexing := { s with openers := s.openers.tail }

def width (s : Lexing) : Nat :=
  match s.indentations with
  | [] => 0
  | i :: _ => i.width

end Lexing

def isInlineBlank (c : Char) : Bool := c == ' ' || c == '\t' || c == '\x0c'

/-- The columns reached by white space at the start of a line: with tabs at every eighth column, and of width one. A form
feed starts over. -/
def blankColumns (blank : List Char) : Nat × Nat :=
  blank.foldl (fun (column, narrow) c =>
    if c == '\t' then ((column / 8 + 1) * 8, narrow + 1)
    else if c == '\x0c' then (0, 0)
    else (column + 1, narrow + 1)) (0, 0)

/-- The part of an indentation that goes beyond the one around it, all of it if that one is no part of it. -/
def ownIndentation (outer blank : List Char) : List Char :=
  if outer.isPrefixOf blank then blank.drop outer.length else blank

def closeBlocks (column : Nat) (s : Lexing) : List Indentation → Lexing
  | [] => { s with indentations := [] }
  | i :: rest =>
    if column < i.column then closeBlocks column (s.emit .dedent) rest else { s with indentations := i :: rest }

def maxBlocks : Nat := 99

def indentTo (blank : List Char) (s : Lexing) : Option Lexing :=
  let (column, narrow) := blankColumns blank
  let (current, currentNarrow, outer) := match s.indentations with
    | [] => (0, 0, [])
    | i :: _ => (i.column, i.narrow, i.text)
  if column = current then if narrow = currentNarrow then some s else none
  else if column > current then
    if narrow ≤ currentNarrow || s.indentations.length ≥ maxBlocks then none
    else
      let width := s.width + (ownIndentation outer blank).length
      some { s.emit .indent with indentations := ⟨column, narrow, blank, width⟩ :: s.indentations }
  else
    let s := closeBlocks column s s.indentations
    let (current, currentNarrow) := match s.indentations with
      | [] => (0, 0)
      | i :: _ => (i.column, i.narrow)
    if column = current && narrow = currentNarrow then some s else none

def leadingBlank : List Char → List Char × List Char
  | '\\' :: '\n' :: rest => let (t, r) := leadingBlank rest; ('\\' :: '\n' :: t, r)
  | c :: rest => if isInlineBlank c then let (t, r) := leadingBlank rest; (c :: t, r) else ([], c :: rest)
  | [] => ([], [])

def startStatement (blank : List Char) (s : Lexing) (cs : List Char) : Option (Lexing × List Char) := do
  let s ← indentTo blank (s.skip blank)
  let (continued, rest) := leadingBlank cs
  let place := s.place.after continued
  let ends := (continued.filter (· == '\n')).length
  let place := { place with dropped := place.dropped + ends }
  if !continued.isEmpty && rest.isEmpty then none
  else return ({ s with place := place.atOrigin s.width }, rest)

def isNameStart (c : Char) : Bool := isAsciiLetter c || c == '_' || c.toNat ≥ 128

def isNameFollow (c : Char) : Bool := isNameStart c || isAsciiDigit c

def operatorAt (cs : List Char) : List String → Option (String × List Char)
  | [] => none
  | o :: rest => if o.toList.isPrefixOf cs then some (o, cs.drop o.toList.length) else operatorAt cs rest

def close (s : Lexing) (c : Char) : Option Lexing :=
  match s.openers with
  | .bracket expected :: _ => if c == expected then some s.pop else none
  | .field _ _ :: _ => if c == '\x7d' then some s.pop else none
  | _ => none

def lexOperator (s : Lexing) (cs : List Char) : Option (Lexing × List Char) := do
  match s.openers, cs with
  -- Outside brackets in a field, a colon starts its format.
  | .field style false :: others, ':' :: rest =>
    let s := s.take (.op ":") [':']
    return ({ s with openers := .field style true :: others }, rest)
  | .field _ false :: _, '!' :: '=' :: rest => return (s.take (.op "!=") ['!', '='], rest)
  | .field _ false :: _, '!' :: rest => return (s.take (.op "!") ['!'], rest)
  | _, _ =>
    let (o, rest) ← operatorAt cs operators
    let taken := s.take (.op o) o.toList
    match o with
    | "(" => return (taken.push (.bracket ')'), rest)
    | "[" => return (taken.push (.bracket ']'), rest)
    | "\x7b" => return (taken.push (.bracket '\x7d'), rest)
    | ")" => return (← close taken ')', rest)
    | "]" => return (← close taken ']', rest)
    | "\x7d" => return (← close taken '\x7d', rest)
    | _ => return (taken, rest)

def lexString (s : Lexing) (style : QuoteStyle) (rest : List Char) : Option (Lexing × List Char) := do
  if style.isFormatted then
    return ((s.take .formattedStart style.opening).push (.formatted style), rest)
  else
    let (content, rest) ← body style rest
    let text := style.opening ++ content
    return (s.take (.string (String.ofList text)) text, rest)

def lexName (s : Lexing) (cs : List Char) : Option (Lexing × List Char) :=
  let word := cs.takeWhile isNameFollow
  if isIdentifier word then some (s.take (.name (String.ofList word)) word, cs.dropWhile isNameFollow) else none

def lexNumber (s : Lexing) (cs : List Char) : Option (Lexing × List Char) := do
  let (text, rest) ← numeral cs
  let imaginary := match text.getLast? with
    | some c => (c == 'j' || c == 'J')
    | none => false
  return (s.take (.number imaginary) text, rest)

def lexToken (s : Lexing) (cs : List Char) : Option (Lexing × List Char) :=
  match cs with
  | [] => none
  | c :: rest =>
    if isNameStart c || isQuote c then
      match literalStart? cs with
      | some (style, content) => lexString s style content
      | none => lexName s cs
    else if isAsciiDigit c || (c == '.' && (rest.head?.map isAsciiDigit).getD false) then lexNumber s cs
    else lexOperator s cs

def lexFormatted (s : Lexing) (style : QuoteStyle) (inFormat : Bool) (cs : List Char) :
    Option (Lexing × List Char) := do
  let (text, rest) ← formattedText style inFormat (cs.length + 1) cs
  let s := if text.isEmpty then s else s.take .formattedText text
  match rest with
  | '\x7b' :: more => return ((s.take (.op "\x7b") ['\x7b']).push (.field style false), more)
  | '\x7d' :: more => return ((s.take (.op "\x7d") ['\x7d']).pop, more)
  | _ =>
    let more ← closing? style rest
    if inFormat then none else return ((s.take .formattedEnd style.mark).pop, more)

/-- The tokens of a text. `fresh` says that a line starts here. Every two steps take a character, so the first argument is
only a bound. -/
def lex : Nat → Bool → Lexing → List Char → Option Lexing
  | 0, _, _, _ => none
  | n + 1, true, s, cs =>
    let blank := cs.takeWhile isInlineBlank
    -- The indentation of a line without a statement does not count.
    match cs.dropWhile isInlineBlank with
    | [] => some s
    | '\n' :: rest => lex n true (s.skip (blank ++ ['\n'])) rest
    | '#' :: rest =>
      let comment := rest.takeWhile (· != '\n')
      match rest.dropWhile (· != '\n') with
      | [] => some s
      | _ :: rest => lex n true (s.skip (blank ++ '#' :: comment ++ ['\n'])) rest
    | c :: rest =>
      match startStatement blank s (c :: rest) with
      | none => none
      | some (s, rest) => lex n false s rest
  | n + 1, false, s, cs =>
    match s.openers, cs with
    | .formatted style :: _, _ =>
      match lexFormatted s style false cs with
      | none => none
      | some (s, rest) => lex n false s rest
    | .field style true :: _, _ =>
      match lexFormatted s style true cs with
      | none => none
      | some (s, rest) => lex n false s rest
    | [], [] => some (s.emit .newline)
    | _, [] => none
    | [], '\n' :: rest => lex n true (s.take .newline ['\n']) rest
    | _, '\n' :: rest => lex n false (s.skip ['\n']) rest
    | _, '\\' :: '\n' :: rest => if rest.isEmpty then none else lex n false (s.skip ['\\', '\n']) rest
    | _, '#' :: rest =>
      lex n false (s.skip ('#' :: rest.takeWhile (· != '\n'))) (rest.dropWhile (· != '\n'))
    | _, c :: rest =>
      if isInlineBlank c then lex n false (s.skip [c]) rest
      else match lexToken s (c :: rest) with
        | none => none
        | some (s, rest) => lex n false s rest

def unixLines : List Char → List Char
  | '\r' :: '\n' :: rest => '\n' :: unixLines rest
  | '\r' :: rest => '\n' :: unixLines rest
  | c :: rest => c :: unixLines rest
  | [] => []

def tokens? (text : String) : Option (List Token) := do
  let cs := unixLines text.toList
  if cs.contains '\x00' then none
  else
    let s ← lex (2 * cs.length + 2) true {} cs
    let s := closeBlocks 0 s s.indentations
    return (s.emit .finish).tokens.reverse

end SharedState.Source
