import LoopLift.Text.Width

/-!
# Tables

Text tables with a header. A column is as wide as its widest line, and a cell
may hold several lines.
-/

namespace LoopLift

/-- The characters of a horizontal line. -/
structure Border where
  left : Char
  fill : Char
  crossing : Char
  right : Char

/-- The characters around the cells of a table. -/
structure Frame where
  top : Border
  /-- The line below the header. -/
  below : Border
  /-- The line between two rows. -/
  between : Border
  bottom : Border
  left : Char
  divider : Char
  right : Char

namespace Frame

/-- A frame of box characters. -/
def box : Frame where
  top := ⟨'┌', '─', '┬', '┐'⟩
  below := ⟨'╞', '═', '╪', '╡'⟩
  between := ⟨'├', '╌', '┼', '┤'⟩
  bottom := ⟨'└', '─', '┴', '┘'⟩
  left := '│'
  divider := '┆'
  right := '│'

/-- A frame of plain characters. -/
def plain : Frame where
  top := ⟨'+', '-', '+', '+'⟩
  below := ⟨'+', '=', '=', '+'⟩
  between := ⟨'|', '-', '+', '|'⟩
  bottom := ⟨'+', '-', '+', '+'⟩
  left := '|'
  divider := '|'
  right := '|'

end Frame

/-- A table of texts. -/
structure Table where
  header : List String
  rows : List (List String)

namespace Table

/-- Cut a text at its newlines, when `held`, given backwards, has been read of
the first line. -/
def cellLines (held : List Char) : List Char → List (List Char)
  | [] => [held.reverse]
  | '\n' :: rest => held.reverse :: cellLines [] rest
  | char :: rest => cellLines (char :: held) rest

/-- A row as the lines of its cells. -/
abbrev Row := List (List (List Char))

/-- The lines of the cells of a row. -/
def row (cells : List String) : Row :=
  cells.map fun cell => cellLines [] cell.toList

/-- Columns that a row needs. -/
def widths (row : Row) : List Nat :=
  row.map fun cell => (cell.map Text.width).foldl max 0

/-- Columns that two rows need together. -/
def wider : List Nat → List Nat → List Nat
  | left :: lefts, right :: rights => max left right :: wider lefts rights
  | [], rights => rights
  | lefts, [] => lefts

/-- Texts with a character between each two. -/
def joined (divider : Char) : List (List Char) → List Char
  | [] => []
  | [last] => last
  | text :: rest => text ++ divider :: joined divider rest

/-- A horizontal line over columns of the given widths. -/
def borderLine (border : Border) (columns : List Nat) : List Char :=
  border.left ::
    joined border.crossing (columns.map fun width => List.replicate (width + 2) border.fill) ++
    [border.right]

/-- A line of a cell, one blank before it and blanks up to its column behind. -/
def padded (width : Nat) (line : List Char) : List Char :=
  ' ' :: line ++ List.replicate (width + 1 - Text.width line) ' '

/-- The lines of a row. Cells with fewer lines than others end in blank ones. -/
def rowLines (frame : Frame) (columns : List Nat) (row : Row) : List (List Char) :=
  let height := (row.map List.length).foldl max 0
  (List.range height).map fun index =>
    let cells := (columns.zip row).map fun (width, cell) => padded width (cell.getD index [])
    frame.left :: joined frame.divider cells ++ [frame.right]

/-- The lines of rows with a line between each two. -/
def bodyLines (frame : Frame) (columns : List Nat) : List Row → List (List Char)
  | [] => []
  | [last] => rowLines frame columns last
  | row :: rest =>
      rowLines frame columns row ++ borderLine frame.between columns :: bodyLines frame columns rest

/-- A table as text, without a newline at its end. -/
def render (table : Table) (frame : Frame) : String :=
  let header := row table.header
  let rows := table.rows.map row
  let columns := (rows.map widths).foldl wider (widths header)
  let lines := [borderLine frame.top columns] ++ rowLines frame columns header ++
    [borderLine frame.below columns] ++ bodyLines frame columns rows ++
    [borderLine frame.bottom columns]
  String.intercalate "\n" (lines.map String.ofList)

end Table

end LoopLift
