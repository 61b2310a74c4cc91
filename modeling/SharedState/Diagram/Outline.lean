import SharedState.Graph
import SharedState.Text.Markup

/-! A graph as an outline: a line for each class, and under it its parents and members. -/
namespace SharedState

inductive Outline where
  | node (label : String) (children : List Outline)
  deriving Repr

namespace Outline

open SharedState.Text

def markerTail (s : Symbol) : String :=
  if s.markers.isEmpty then ""
  else " [dim]" ++ escapeMarkup (" ".intercalate (s.markers.map ("@" ++ ·))) ++ "[/dim]"

def memberLine? (m : Symbol) : Option String := do
  let typeText ← match m.declaredType with
    | none => some ""
    | some t => t.text?.map (": " ++ ·)
  let text := (if m.mutable then "var " else "") ++ m.name ++ typeText
  let line := if m.mutable then "[yellow]" ++ escapeMarkup text ++ "[/yellow]" else escapeMarkup text
  return line ++ " [dim]" ++ m.kind.label ++ "[/dim]" ++ markerTail m

def classLines? (e : ClassEntry) : Option (List String) := do
  let parents ← TypeRef.texts? e.parents
  let members ← e.members.mapM memberLine?
  let extension := if parents.isEmpty then []
    else ["[italic]extends[/italic] " ++ escapeMarkup (", ".intercalate parents)]
  return extension ++ members

def classLine (g : Graph) (cls : Symbol) : String :=
  let style := if g.staticOwners.contains cls then "bold red" else "bold blue"
  "[" ++ style ++ "]" ++ escapeMarkup cls.qualifiedName ++ "[/" ++ style ++ "] [dim]" ++ cls.kind.label ++ "[/dim]" ++
    markerTail cls

def ofGraph? (g : Graph) : Option Outline := do
  let branches ← g.entries.mapM fun e => do
    let lines ← classLines? e
    return node (classLine g e.symbol) (lines.map fun l => node l [])
  return node ("[bold]Symbol graph[/bold] (" ++ toString g.size ++ " classes, " ++ toString g.staticOwners.length ++
    " singletons)") branches

end Outline
end SharedState
