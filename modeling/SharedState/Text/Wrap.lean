import SharedState.Text.CellWidth
import SharedState.Text.Dotted
import SharedState.Text.Blank

/-! Lines of a limited width. A line ends after a word; a word that is longer than a line is cut. -/
namespace SharedState.Text

def spacedWords : Nat → List Char → List (List Char)
  | 0, _ => []
  | n + 1, cs =>
    let lead := cs.takeWhile isBlank
    let body := (cs.dropWhile isBlank).takeWhile fun c => !isBlank c
    let after := (cs.dropWhile isBlank).dropWhile fun c => !isBlank c
    if body.isEmpty then []
    else (lead ++ body ++ after.takeWhile isBlank) :: spacedWords n (after.dropWhile isBlank)

/-- Cuts a word into pieces that fit into a width, when `piece` is taken already. -/
def chopped (width : Nat) (piece : List Char) : List Char → List (List Char)
  | [] => [piece]
  | c :: rest =>
    if cells piece + charCells c > width then piece :: chopped width [c] rest
    else chopped width (piece ++ [c]) rest

structure Filling where
  full : List (List Char) := []
  line : List Char := []
  columns : Nat := 0
  deriving DecidableEq, Repr

namespace Filling

def isStart (f : Filling) : Bool := f.full.isEmpty && f.line.isEmpty

def newLine (f : Filling) (line : List Char) : Filling :=
  { full := if f.isStart then f.full else f.full ++ [f.line], line, columns := cells line }

def addWord (width : Nat) (f : Filling) (word : List Char) : Filling :=
  let length := cells (word.reverse.dropWhile isBlank).reverse
  if f.columns + length ≤ width then { f with line := f.line ++ word, columns := f.columns + cells word }
  else if length > width then (chopped width [] word).foldl newLine f
  else f.newLine word

end Filling

def cropBlank (width : Nat) (line : List Char) : List Char :=
  let blanks := (line.reverse.takeWhile isBlank).length
  line.take (line.length - min blanks (line.length - width))

def cropCells (width : Nat) : List Char → List Char
  | [] => []
  | c :: rest => if charCells c ≤ width then c :: cropCells (width - charCells c) rest else []

/-- Blanks in place of tabulators, up to the next multiple of eight columns. -/
def expandTabs (done : List Char) : List Char → List Char
  | [] => done
  | '\t' :: rest => expandTabs (done ++ List.replicate (8 - cells done % 8) ' ') rest
  | c :: rest => expandTabs (done ++ [c]) rest

def wrapLine (width : Nat) (line : List Char) : List (List Char) :=
  let line := expandTabs [] line
  let words := spacedWords line.length line
  let filled := words.foldl (Filling.addWord width) {}
  let lines := if words.isEmpty then [line] else filled.full ++ [filled.line]
  lines.map fun l =>
    let l := cropBlank width l
    if cells l > width then cropCells width l else l

def wrap (width : Nat) (text : List Char) : List (List Char) := (pieces '\n' text).flatMap (wrapLine width)

def padded (width : Nat) (line : List Char) : List Char := line ++ List.replicate (width - cells line) ' '

end SharedState.Text
