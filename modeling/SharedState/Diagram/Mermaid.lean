import SharedState.Graph

/-! A graph as a Mermaid diagram: nodes for classes and mutable members, edges for the ways between them. -/
namespace SharedState

/-- A diagram while it is drawn. A symbol gets its number when it is first mentioned. -/
structure Mermaid where
  numbered : List Symbol := []
  nodes : List String := []
  edges : List String := []
  deriving DecidableEq, Repr

namespace Mermaid

def mention (d : Mermaid) (s : Symbol) : Mermaid × String :=
  match d.numbered.findIdx? (· == s) with
  | some i => (d, "n" ++ toString i)
  | none => ({ d with numbered := d.numbered ++ [s] }, "n" ++ toString d.numbered.length)

def addNode (d : Mermaid) (line : String) : Mermaid := { d with nodes := d.nodes ++ [line] }

def addEdge (d : Mermaid) (line : String) : Mermaid := { d with edges := d.edges ++ [line] }

def connect (d : Mermaid) (source : Symbol) (arrow : String) (target : Symbol) : Mermaid :=
  let (d, a) := d.mention source
  let (d, b) := d.mention target
  d.addEdge ("  " ++ a ++ " " ++ arrow ++ " " ++ b)

def drawMember (g : Graph) (cls : Symbol) (d : Mermaid) (m : Symbol) : Mermaid :=
  if m.mutable then
    let (d, state) := d.mention m
    let d := d.addNode ("  " ++ state ++ "([\"var " ++ m.name ++ "\"]):::state")
    let (d, owner) := d.mention cls
    d.addEdge ("  " ++ owner ++ " --> " ++ state)
  else (g.typeClasses m.declaredType).foldl (fun d target => d.connect cls ("-->|" ++ m.name ++ "|") target) d

def drawClass (g : Graph) (d : Mermaid) (e : ClassEntry) : Mermaid :=
  let (d, id) := d.mention e.symbol
  let style := if g.staticOwners.contains e.symbol then "singleton" else "cls"
  let d := d.addNode ("  " ++ id ++ "[\"" ++ e.symbol.qualifiedName ++ "\"]:::" ++ style)
  let d := e.members.foldl (drawMember g e.symbol) d
  (g.parentClasses e.symbol).foldl (fun d parent => d.connect e.symbol "-.->|extends|" parent) d

def header : List String :=
  ["graph TD", "", "    %% Styles",
   "    classDef singleton fill:#ea4335,stroke:#20344b,color:#ffffff,rx:5px;",
   "    classDef cls fill:#4285f4,stroke:#20344b,color:#ffffff,rx:5px;",
   "    classDef state fill:#f9ab00,stroke:#20344b,color:#20344b,rx:2px;"]

/-- Draws a graph. Symbols that have a number from an earlier drawing keep it. -/
def draw (g : Graph) (numbered : List Symbol) : Mermaid := g.entries.foldl (drawClass g) { numbered }

def ofGraph (g : Graph) : Mermaid := draw g []

def text (d : Mermaid) : String := "\n".intercalate (header ++ d.nodes ++ d.edges) ++ "\n"

end Mermaid
end SharedState
