/-! Console markup: tags in square brackets, and texts in which nothing is taken for a tag. -/
namespace SharedState.Text

def startsTag (c : Char) : Bool := ('a' ≤ c && c ≤ 'z') || c == '#' || c == '/' || c == '@'

def tag? : List Char → Option (List Char × List Char)
  | '[' :: c :: rest =>
    if startsTag c then
      let inner := rest.takeWhile fun x => x != ']' && x != '['
      match rest.dropWhile (fun x => x != ']' && x != '[') with
      | ']' :: after => some ('[' :: c :: inner ++ [']'], after)
      | _ => none
    else none
  | _ => none

/-- Puts a backslash in front of every tag and doubles those in front of it. Every step takes a character, so the first
argument is only a bound. -/
def escapeTags : Nat → List Char → List Char
  | 0, cs => cs
  | n + 1, cs =>
    let slashes := cs.takeWhile (· == '\\')
    let rest := cs.dropWhile (· == '\\')
    match tag? rest with
    | some (tag, after) => slashes ++ slashes ++ '\\' :: tag ++ escapeTags n after
    | none =>
      match rest with
      | [] => slashes
      | c :: more => slashes ++ c :: escapeTags n more

/-- A single backslash at the end is doubled, so that it does not escape what follows. -/
def closeSlash (cs : List Char) : List Char :=
  match cs.reverse with
  | ['\\'] => cs ++ ['\\']
  | '\\' :: c :: _ => if c == '\\' then cs else cs ++ ['\\']
  | _ => cs

def escapeMarkup (s : String) : String :=
  let cs := s.toList
  String.ofList (closeSlash (escapeTags (cs.length + 1) cs))

end SharedState.Text
