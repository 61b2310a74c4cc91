/-! File name patterns: stars, question marks and sets of characters. A pattern has to match a whole text, and a star also
goes over slashes. -/
namespace SharedState.Text

inductive GlobPart where
  | star
  | any
  | literal (c : Char)
  | set (negated : Bool) (ranges : List (Char × Char))
  deriving DecidableEq, Repr

/-- Cuts the content of a set at the hyphens that make ranges; one among the first `skip` characters does not. Behind a
cut, the end of the range and the character after it are no places to cut. The first argument bounds the number of
cuts. -/
def setChunks : Nat → Nat → List Char → List (List Char)
  | 0, _, cs => [cs]
  | n + 1, skip, cs =>
    let chunk := cs.take skip ++ (cs.drop skip).takeWhile (· != '-')
    match (cs.drop skip).dropWhile (· != '-') with
    | [] => [chunk]
    | _ :: after =>
      -- a hyphen at the very end stands for itself
      if after.isEmpty then [chunk ++ ['-']] else chunk :: setChunks n 2 after

/-- Removes ranges that run backwards, from the last to the first. -/
def dropEmptyRanges : List (List Char) → List (List Char)
  | [] => []
  | chunk :: rest =>
    match dropEmptyRanges rest with
    | [] => [chunk]
    | next :: others =>
      match chunk.getLast?, next with
      | some low, high :: more => if low > high then (chunk.dropLast ++ more) :: others else chunk :: next :: others
      | _, _ => chunk :: next :: others

/-- The ranges of the cut content of a set; `low` is the start of a range that is still open. -/
def chunkRanges (low : Option Char) : List (List Char) → List (Char × Char)
  | [] => []
  | chunk :: rest =>
    let (first, inner) := match low, chunk with
      | some l, h :: more => ([(l, h)], more)
      | _, _ => ([], chunk)
    if rest.isEmpty then first ++ inner.map (fun c => (c, c))
    else first ++ inner.dropLast.map (fun c => (c, c)) ++ chunkRanges inner.getLast? rest

def globSet (content : List Char) : GlobPart :=
  let chunks := setChunks content.length (if content.head? = some '!' then 2 else 1) content
  let chunks := dropEmptyRanges chunks
  match chunks with
  | ('!' :: first) :: others =>
    if first.isEmpty && others.isEmpty then .any else .set true (chunkRanges none (first :: others))
  | _ => .set false (chunkRanges none chunks)

/-- The content of a set at the head of a pattern, after its opening bracket, and the rest. A closing bracket in first
place is part of the content. -/
def setContent? (cs : List Char) : Option (List Char × List Char) :=
  let (mark, afterMark) := match cs with
    | '!' :: rest => (['!'], rest)
    | _ => ([], cs)
  let (first, inner) := match afterMark with
    | ']' :: rest => ([']'], rest)
    | _ => ([], afterMark)
  match inner.dropWhile (· != ']') with
  | [] => none
  | _ :: rest => some (mark ++ first ++ inner.takeWhile (· != ']'), rest)

/-- The parts of a pattern. Every step takes a character, so the first argument is only a bound. -/
def globParts : Nat → List Char → List GlobPart
  | 0, _ => []
  | _, [] => []
  | n + 1, c :: rest =>
    if c == '*' then .star :: globParts n rest
    else if c == '?' then .any :: globParts n rest
    else if c == '[' then
      match setContent? rest with
      | some (content, after) => globSet content :: globParts n after
      | none => .literal c :: globParts n rest
    else .literal c :: globParts n rest

namespace GlobPart

def admits : GlobPart → Char → Bool
  | star, _ => false
  | any, _ => true
  | literal d, c => c == d
  | set negated ranges, c => (ranges.any fun r => r.1 ≤ c && c ≤ r.2) != negated

def anyTail (p : List Char → Bool) : List Char → Bool
  | [] => p []
  | c :: rest => p (c :: rest) || anyTail p rest

def matchAll : List GlobPart → List Char → Bool
  | [], cs => cs.isEmpty
  | star :: rest, cs => anyTail (matchAll rest) cs
  | part :: rest, cs =>
    match cs with
    | [] => false
    | c :: more => part.admits c && matchAll rest more

end GlobPart

def globMatches (pattern text : String) : Bool :=
  GlobPart.matchAll (globParts pattern.length pattern.toList) text.toList

end SharedState.Text
