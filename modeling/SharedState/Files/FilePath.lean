import SharedState.Text.Dotted

/-! Paths of files. -/
namespace SharedState

open SharedState.Text

/-- Where a path starts: in the working directory, or at the root, which is written with one slash or with two. -/
inductive PathStart where
  | working
  | root
  | doubleRoot
  deriving DecidableEq, Repr

namespace PathStart

def text : PathStart → String
  | working => ""
  | root => "/"
  | doubleRoot => "//"

/-- Three slashes or more count as one. -/
def ofSlashes : Nat → PathStart
  | 0 => working
  | 2 => doubleRoot
  | _ => root

end PathStart

/-- A path as its components; none is empty or a single dot. -/
structure FilePath where
  start : PathStart := .working
  parts : List String
  deriving DecidableEq, Repr

namespace FilePath

def ofText (s : String) : FilePath :=
  { start := .ofSlashes (s.toList.takeWhile (· == '/')).length
    parts := ((pieces '/' s.toList).map String.ofList).filter fun p => !p.isEmpty && p != "." }

def text (p : FilePath) : String :=
  if p.start = .working ∧ p.parts = [] then "." else p.start.text ++ "/".intercalate p.parts

def name (p : FilePath) : String := p.parts.getLast?.getD ""

def parent (p : FilePath) : FilePath := { p with parts := p.parts.dropLast }

def append (p : FilePath) (parts : List String) : FilePath := { p with parts := p.parts ++ parts }

def cutName (name : String) : String × String :=
  let cs := name.toList
  let tail := (cs.reverse.takeWhile (· != '.')).reverse
  let front := cs.take (cs.length - tail.length - 1)
  if tail.length < cs.length && !tail.isEmpty && !front.isEmpty then
    (String.ofList front, String.ofList ('.' :: tail))
  else (name, "")

def stem (p : FilePath) : String := (cutName p.name).1

def extension (p : FilePath) : String := (cutName p.name).2

end FilePath
end SharedState
