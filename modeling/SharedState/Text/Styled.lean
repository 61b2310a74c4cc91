import SharedState.Text.Markup
import SharedState.Text.Dotted
import SharedState.Text.Blank

/-! The text that markup shows, without its styles. A closing tag needs an open one of the same style. Styles are told apart by
their words, which does for the tags that are written here; what other tags come to is for a screen to say. -/
namespace SharedState.Text

inductive MarkupPiece where
  | text (cs : List Char)
  | tag (name : List Char)
  deriving DecidableEq, Repr

def tagName (tag : List Char) : List Char := ((tag.drop 1).dropLast).takeWhile (· != '=')

def unescapeBrackets : List Char → List Char
  | '\\' :: '[' :: rest => '[' :: unescapeBrackets rest
  | c :: rest => c :: unescapeBrackets rest
  | [] => []

/-- Text and tags in order. Two backslashes in front of a tag show one, and one alone makes the tag text. The first
argument bounds the number of steps. -/
def markupPieces : Nat → List Char → List Char → List MarkupPiece
  | 0, pending, cs => [.text (unescapeBrackets (pending ++ cs))]
  | n + 1, pending, cs =>
    let slashes := cs.takeWhile (· == '\\')
    let rest := cs.dropWhile (· == '\\')
    match tag? rest with
    | some (tag, after) =>
      let kept := List.replicate (slashes.length / 2) '\\'
      let front := .text (unescapeBrackets pending ++ kept)
      let piece := if slashes.length % 2 = 1 then .text tag else .tag (tagName tag)
      front :: piece :: markupPieces n [] after
    | none =>
      match rest with
      | [] => [.text (unescapeBrackets (pending ++ slashes))]
      | c :: more => markupPieces n (pending ++ slashes ++ [c]) more

def styleAttributes : List (String × List String) :=
  [("bold", ["b"]), ("dim", ["d"]), ("italic", ["i"]), ("underline", ["u"]), ("blink", []), ("blink2", []),
   ("reverse", ["r"]), ("conceal", ["c"]), ("strike", ["s"]), ("underline2", ["uu"]), ("frame", []), ("encircle", []),
   ("overline", ["o"])]

def styleWords (cs : List Char) : List String :=
  let lower := (trimWhile isBlank cs).map Char.toLower
  ((pieces ' ' (lower.map fun c => if isBlank c then ' ' else c)).map String.ofList).filter (!·.isEmpty)

/-- Equal styles have equal keys: attributes by their long names and in order, then everything else. -/
def styleKey (cs : List Char) : List String :=
  let words := styleWords cs
  let attributes := styleAttributes.filter fun a => words.any fun w => w == a.1 || a.2.contains w
  let others := words.filter fun w => !styleAttributes.any fun a => w == a.1 || a.2.contains w
  attributes.map (·.1) ++ others

def closeStyle (key : List String) : List (List String) → Option (List (List String))
  | [] => none
  | k :: rest => if k == key then some rest else (closeStyle key rest).map (k :: ·)

def plainPieces : List (List String) → List MarkupPiece → Option (List Char)
  | _, [] => some []
  | opened, .text cs :: rest => (plainPieces opened rest).map (cs ++ ·)
  | opened, .tag ('/' :: name) :: rest =>
    match styleKey name, opened with
    -- A tag without a name closes the latest style.
    | [], [] => none
    | [], _ :: opened => plainPieces opened rest
    | key, _ =>
      match closeStyle key opened with
      | some opened => plainPieces opened rest
      | none => none
  | opened, .tag name :: rest => plainPieces (styleKey name :: opened) rest

def isCursorControl (c : Char) : Bool :=
  let n := c.toNat
  n == 7 || n == 8 || n == 11 || n == 12 || n == 13

/-- The text that markup shows; `none` if a tag closes no open one. -/
def plain? (markup : String) : Option (List Char) :=
  let cs := markup.toList
  (plainPieces [] (markupPieces (cs.length + 1) [] cs)).map fun text => text.filter fun c => !isCursorControl c

end SharedState.Text
