import CatalogGraph.Text.Width

/-!
Tables drawn with characters: cells of one or more lines between borders, every column as wide as
its widest line.
-/
namespace CatalogGraph.Text

/-- The lines of a cell. -/
def cellLines (s : String) : List String := s.splitOn "\n"

/-- The columns of the widest line of a cell. -/
def cellWidth (s : String) : Nat := ((cellLines s).map width).foldl max 0

/-- A header and rows of as many cells. -/
structure Grid where
  header : List String
  rows : List (List String)
deriving DecidableEq, Repr

namespace Grid

/-- The width of each column. -/
def widths (grid : Grid) : List Nat :=
  grid.rows.foldl (fun widths row => List.zipWith max widths (row.map cellWidth))
    (grid.header.map cellWidth)

/-- A line of a cell between blanks, in a column of `size` for the text. -/
def padded (size : Nat) (s : String) : String :=
  " " ++ s ++ String.ofList (List.replicate (size - width s) ' ') ++ " "

/-- The lines of a row, as many as its tallest cell has. -/
def rowLines (widths : List Nat) (row : List String) : List String :=
  let cells := row.map cellLines
  (List.range ((cells.map List.length).foldl max 0)).map fun i =>
    let line := List.zipWith (fun size cell => padded size (cell[i]?.getD "")) widths cells
    "|" ++ "|".intercalate line ++ "|"

/-- A line of one character through all columns. -/
def rule (fill : Char) (start between stop : String) (widths : List Nat) : String :=
  start ++ between.intercalate (widths.map fun size =>
    String.ofList (List.replicate (size + 2) fill)) ++ stop

/-- The lines of a grid. -/
def lines (grid : Grid) : List String :=
  let widths := grid.widths
  let border := rule '-' "+" "+" "+" widths
  let rows := (grid.rows.map (rowLines widths)).intersperse [rule '-' "|" "+" "|" widths]
  [border] ++ rowLines widths grid.header ++ [rule '=' "+" "=" "+" widths] ++ rows.flatten ++
    [border]

end Grid
end CatalogGraph.Text
