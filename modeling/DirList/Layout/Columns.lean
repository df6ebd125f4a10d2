import DirList.Layout.Cell

/-!
# Columns

Cells in columns of one width, which is a multiple of the distance of tab stops, so that tabs lead
from the end of a cell to the start of the next column. The cells follow one another down the
columns or across the rows. Where two columns do not fit, every cell has a line of its own.
-/

namespace DirList.Layout

/-- The first tab stop after a position. -/
def nextTabStop (position : Nat) : Nat :=
  (position + tabWidth) / tabWidth * tabWidth

/-- The width of a column: room for the longest cell and a blank, up to a tab stop. -/
def columnWidth (config : Config) (descriptor : Descriptor) : Nat :=
  nextTabStop (descriptor.nameWidth
    + (if config.showInode then descriptor.inodeWidth + 1 else 0)
    + (if config.showBlocks then descriptor.blockWidth + 1 else 0)
    + (if config.marksTypes then 1 else 0))

/-- The rows that hold so many cells, at most `columns` in each. -/
def rowCount (count columns : Nat) : Nat :=
  (count + columns - 1) / columns

/-- The cells in rows, following one another down the columns. Of the columns there is room for, no
more are filled than there are cells. -/
def arrangeDown (cells : List String) (columns : Nat) : List (List String) :=
  let rows := rowCount cells.length columns
  (List.range rows).map fun row =>
    (List.range (min columns cells.length)).filterMap fun column => cells[column * rows + row]?

/-- The cells in rows, following one another across the rows. -/
def arrangeAcross (cells : List String) (columns : Nat) : List (List String) :=
  (List.range (rowCount cells.length columns)).map fun row =>
    (cells.drop (row * columns)).take columns

/-- A row from a position on, the present column ending before `stop`: each cell but the last is
followed by tabs up to the end of its column. -/
def joinFrom (width : Nat) : Nat → Nat → List String → String
  | _, _, [] => ""
  | _, _, [cell] => cell
  | stop, position, cell :: rest =>
    let reached := position + cell.length
    let tabs := stop / tabWidth - reached / tabWidth
    let next := if tabs = 0 then reached else stop / tabWidth * tabWidth
    cell ++ repeated tabs '\t' ++ joinFrom width (stop + width) next rest

/-- A row of cells in columns of a given width. -/
def joinRow (width : Nat) (row : List String) : String :=
  joinFrom width width 0 row

/-- The cells in columns, as `arrange` brings them into rows. -/
def columns (arrange : List String → Nat → List (List String)) (config : Config)
    (descriptor : Descriptor) : String :=
  let width := columnWidth config descriptor
  if config.width < 2 * width then singleColumn config descriptor
  else
    let rows := arrange (cells config descriptor) (config.width.toNat / width)
    totalLine config descriptor ++ lines (rows.map (joinRow width))

end DirList.Layout
