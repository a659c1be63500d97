import RoleAudit.Text.Width

/-!
# Tables

A table has a header and rows and is drawn with the characters `+`, `-`, `=` and `|`. A column is as
wide as its widest line, with a blank on each side. A cell of several lines makes its row as high.
-/

namespace RoleAudit

namespace Text

/-- The lines of a text, at least one. -/
def linesOf (text : String) : List String := text.splitOn "\n"

/-- The text with blanks after it up to a number of columns. -/
def padTo (columns : Nat) (text : String) : String :=
  text ++ "".pushn ' ' (columns - width text)

end Text

/-- A table of texts. -/
structure Table where
  /-- The names of the columns. -/
  header : List String
  /-- The rows; each has a cell for every column. -/
  rows : List (List String) := []
  deriving DecidableEq, Repr

namespace Table

open Text (linesOf padTo)

/-- The columns that a cell takes, at least one. -/
def cellWidth (cell : String) : Nat :=
  (linesOf cell).foldl (fun n line => max n (Text.width line)) 1

/-- The width of every column of cells. -/
def columnWidths (t : Table) : List Nat :=
  t.rows.foldl (fun widths row => List.zipWith (fun n cell => max n (cellWidth cell)) widths row)
    (t.header.map cellWidth)

/-- A line across all columns. -/
def rule (left : String) (fill : Char) (joint right : String) (widths : List Nat) : String :=
  left ++ joint.intercalate (widths.map fun n => "".pushn fill (n + 2)) ++ right

/-- The lines of a row of cells. -/
def rowLines (widths : List Nat) (row : List String) : List String :=
  let cells := row.map linesOf
  let height := cells.foldl (fun n lines => max n lines.length) 0
  (List.range height).map fun i =>
    let parts := List.zipWith (fun n lines => padTo n (lines[i]?.getD "")) widths cells
    "| " ++ " | ".intercalate parts ++ " |"

/-- The lines of a drawn table. -/
def lines (t : Table) : List String :=
  let widths := t.columnWidths
  let edge := rule "+" '-' "+" "+" widths
  let rows := t.rows.map (rowLines widths)
  [edge] ++ rowLines widths t.header ++ [rule "+" '=' "=" "+" widths]
    ++ List.flatten (rows.intersperse [rule "|" '-' "+" "|" widths]) ++ [edge]

/-- A drawn table, without a line break at its end. -/
def render (t : Table) : String := "\n".intercalate t.lines

end Table

end RoleAudit
