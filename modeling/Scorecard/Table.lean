import Scorecard.Text.Split
import Scorecard.Text.Width

/-!
# Tables

A table drawn with characters.  Each column is as wide as its widest line, and at least one place;
cells are aligned to the left with a blank on either side.  A cell that holds line feeds takes as
many lines.  Rules separate the rows, and a double rule separates the head from them.
-/

namespace Scorecard

/-- A head and rows of as many cells. -/
structure Table where
  head : List String
  rows : List (List String)
  deriving DecidableEq, Repr

/-- How a rule between rows is drawn. -/
structure Rule where
  left : Char
  fill : Char
  crossing : Char
  right : Char

namespace Rule

/-- The rule above and below a table. -/
def border : Rule := ⟨'+', '-', '+', '+'⟩

/-- The rule below the head. -/
def head : Rule := ⟨'+', '=', '=', '+'⟩

/-- The rule between two rows. -/
def inner : Rule := ⟨'|', '-', '+', '|'⟩

/-- The rule over columns of these widths. -/
def draw (r : Rule) (widths : List Nat) : List Char :=
  r.left :: [r.crossing].intercalate (widths.map fun w => List.replicate (w + 2) r.fill) ++
    [r.right]

end Rule

namespace Table

/-- The lines of a cell. -/
def cellLines (cell : String) : List (List Char) := Text.splitAt '\n' cell.toList

/-- The places that the widest line of a cell takes. -/
def cellWidth (cell : String) : Nat := ((cellLines cell).map Text.width).foldl max 0

/-- The widths of the columns. -/
def widths (t : Table) : List Nat :=
  (List.range t.head.length).map fun i =>
    ((t.head :: t.rows).map fun row => cellWidth (row.getD i "")).foldl max 1

/-- A line filled with blanks up to a width. -/
def fill (width : Nat) (line : List Char) : List Char :=
  line ++ List.replicate (width - Text.width line) ' '

/-- One line through the cells of a row. -/
def lineThrough (widths : List Nat) (lines : List (List Char)) : List Char :=
  '|' :: ' ' :: [' ', '|', ' '].intercalate (List.zipWith fill widths lines) ++ [' ', '|']

/-- The lines of a row: as many as its highest cell has. -/
def rowLines (widths : List Nat) (row : List String) : List (List Char) :=
  let cells := row.map cellLines
  (List.range ((cells.map List.length).foldl max 0)).map fun k =>
    lineThrough widths (cells.map fun lines => lines.getD k [])

/-- The lines of a table. -/
def lines (t : Table) : List (List Char) :=
  let ws := t.widths
  let rows := [Rule.inner.draw ws].intercalate (t.rows.map (rowLines ws))
  Rule.border.draw ws :: rowLines ws t.head ++ Rule.head.draw ws :: rows ++ [Rule.border.draw ws]

/-- The table as a text, without a line feed at its end. -/
def text (t : Table) : String := Text.join "\n" (t.lines.map String.ofList)

theorem width_fill (width : Nat) (line : List Char) :
    Text.width (fill width line) = max width (Text.width line) := by
  rw [fill, Text.width_append_spaces]
  omega

end Table

end Scorecard
