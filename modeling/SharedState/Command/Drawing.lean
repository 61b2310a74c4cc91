import SharedState.Command.Run
import SharedState.Console

/-! What commands show, as lines of text. -/
namespace SharedState.Command

def plainLine (markup : String) : List Char := (Text.plain? markup).getD markup.toList

mutual
def outlineLines : Outline → List (List Char)
  | .node label children => plainLine label :: branchLines children
def branchLines : List Outline → List (List Char)
  | [] => []
  | [o] =>
    match outlineLines o with
    | [] => []
    | first :: rest => ("└── ".toList ++ first) :: rest.map ("    ".toList ++ ·)
  | o :: more =>
    match outlineLines o with
    | [] => branchLines more
    | first :: rest => ("├── ".toList ++ first) :: rest.map ("│   ".toList ++ ·) ++ branchLines more
end

def columnWidths (rows : List (List (List Char))) : List Nat :=
  rows.foldl (fun widths row => (List.range (max widths.length row.length)).map fun i =>
    max (widths[i]?.getD 0) ((row[i]?.map Text.cells).getD 0)) []

def tableLines (title : String) (columns : List String) (rows : List (List String)) : List (List Char) :=
  let header := columns.map plainLine
  let body := rows.map fun row => row.map plainLine
  let widths := columnWidths (header :: body)
  let line (row : List (List Char)) : List Char :=
    [' ', ' '].intercalate ((widths.zip row).map fun (w, cell) => Text.padded w cell)
  plainLine title :: line header :: line (widths.map fun w => List.replicate w '-') :: body.map line

namespace Shown

def lines (width : Nat) : Shown → List (List Char)
  | line text => Text.wrap width (plainLine text)
  | outline o => outlineLines o
  | table title columns rows => tableLines title columns rows

end Shown
end SharedState.Command
