import SharedState.Source.Numeral

/-! The extent of string literals at the head of a text. -/
namespace SharedState.Source

structure QuoteStyle where
  letters : List Char
  quote : Char
  triple : Bool
  deriving DecidableEq, Repr

namespace QuoteStyle

def has (s : QuoteStyle) (letter : Char) : Bool := s.letters.any fun c => c.toLower == letter

def isRaw (s : QuoteStyle) : Bool := s.has 'r'

def isBytes (s : QuoteStyle) : Bool := s.has 'b'

def isFormatted (s : QuoteStyle) : Bool := s.has 'f' || s.has 't'

def mark (s : QuoteStyle) : List Char := List.replicate (if s.triple then 3 else 1) s.quote

def opening (s : QuoteStyle) : List Char := s.letters ++ s.mark

end QuoteStyle

def isQuote (c : Char) : Bool := c == '"' || c == '\''

def literalLetters (letters : List Char) : Bool :=
  ["", "u", "b", "r", "f", "t", "br", "rb", "fr", "rf", "tr", "rt"].contains (String.ofList (letters.map Char.toLower))

def styleAfter? (letters : List Char) : List Char → Option (QuoteStyle × List Char)
  | q :: rest =>
    if isQuote q && literalLetters letters then
      match rest with
      | a :: b :: more =>
        if a == q && b == q then some (⟨letters, q, true⟩, more) else some (⟨letters, q, false⟩, rest)
      | _ => some (⟨letters, q, false⟩, rest)
    else none
  | [] => none

def literalStart? (cs : List Char) : Option (QuoteStyle × List Char) :=
  match styleAfter? [] cs with
  | some found => some found
  | none =>
    match cs with
    | a :: rest =>
      match styleAfter? [a] rest with
      | some found => some found
      | none =>
        match rest with
        | b :: more => styleAfter? [a, b] more
        | [] => none
    | [] => none

/-- A body between single quotes, closing quote included. It does not go over the end of a line, unless a backslash stands
there. -/
def singleBody (quote : Char) : Scan
  | [] => none
  | '\n' :: _ => none
  | '\\' :: c :: rest => (singleBody quote rest).map fun (t, r) => ('\\' :: c :: t, r)
  | c :: rest => if c == quote then some ([c], rest) else (singleBody quote rest).map fun (t, r) => (c :: t, r)

def tripleBody (quote : Char) : Scan
  | [] => none
  | '\\' :: c :: rest => (tripleBody quote rest).map fun (t, r) => ('\\' :: c :: t, r)
  | c :: rest =>
    if c == quote && rest.take 2 == [quote, quote] then some ([c, c, c], rest.drop 2)
    else (tripleBody quote rest).map fun (t, r) => (c :: t, r)

def body (s : QuoteStyle) : Scan := if s.triple then tripleBody s.quote else singleBody s.quote

def closing? (s : QuoteStyle) (cs : List Char) : Option (List Char) :=
  if s.mark.isPrefixOf cs then some (cs.drop s.mark.length) else none

def escapeName : Scan
  | [] => none
  | c :: rest =>
    if c == '\x7d' then some ([c], rest)
    else if c == '\n' || isQuote c then none
    else (escapeName rest).map fun (t, r) => (c :: t, r)

/-- Literal text of a formatted string, up to a field, the end of a format, or the closing quotes. Outside a format a brace
stands for itself when doubled. The first argument bounds the number of steps. -/
def formattedText (s : QuoteStyle) (inFormat : Bool) : Nat → Scan
  | 0, _ => none
  | _, [] => none
  | n + 1, c :: rest =>
    let keep (taken rest : List Char) := (formattedText s inFormat n rest).map fun (t, r) => (taken ++ t, r)
    if (closing? s (c :: rest)).isSome then some ([], c :: rest)
    else if c == '\n' && !s.triple then none
    else if c == '\x7b' then
      if !inFormat && rest.head? == some '\x7b' then keep [c, c] rest.tail else some ([], c :: rest)
    else if c == '\x7d' then
      if inFormat then some ([], c :: rest)
      else if rest.head? == some '\x7d' then keep [c, c] rest.tail else none
    else if c == '\\' then
      match rest with
      | [] => none
      | 'N' :: '\x7b' :: more =>
        if s.isRaw then keep ['\\', 'N'] ('\x7b' :: more)
        else match escapeName more with
          | none => none
          | some (name, more) => keep (['\\', 'N', '\x7b'] ++ name) more
      | d :: more => if d == '\x7b' || d == '\x7d' then keep [c] rest else keep [c, d] more
    else keep [c] rest

end SharedState.Source
