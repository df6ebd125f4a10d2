import DirList.Layout.Cell

/-!
# Streams

Cells one after another with commas between them. A line is broken before a cell that would bring it
to the width, the comma and the blank behind the cell included.
-/

namespace DirList.Layout

/-- What stands between two cells. -/
def separator : String := ", "

/-- Whether a line is broken before a cell, so many characters being on the line already. -/
def breaksBefore (width : Int) (onLine : Nat) (cell : String) (isLast : Bool) : Bool :=
  0 < onLine && width ≤ onLine + cell.length + (if isLast then 0 else separator.length)

/-- Cells from a place in a line on. -/
def streamFrom (width : Int) : Nat → List String → String
  | onLine, [] => if 0 < onLine then "\n" else ""
  | onLine, cell :: rest =>
    let breaks := breaksBefore width onLine cell rest.isEmpty
    let text := (if breaks then "\n" else "") ++ cell ++ (if rest.isEmpty then "" else separator)
    let start := if breaks then 0 else onLine
    text ++ streamFrom width
      (start + cell.length + (if rest.isEmpty then 0 else separator.length)) rest

/-- The cells of a directory as a stream. -/
def stream (config : Config) (descriptor : Descriptor) : String :=
  streamFrom config.width 0 (cells config descriptor)

end DirList.Layout
