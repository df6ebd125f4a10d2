import DirList.Layout.Columns
import DirList.Layout.Long
import DirList.Layout.Stream

/-!
# Renderers

A renderer writes a measured directory. Which renderer serves a display mode is looked up in a
table, so that a caller can put another one in its place.
-/

namespace DirList

structure Renderer where
  label : String
  render : Config → Descriptor → Job Unit
deriving Inhabited

namespace Renderer

/-- A renderer that writes one text. -/
def ofText (label : String) (text : Config → Descriptor → String) : Renderer :=
  ⟨label, fun config descriptor => Job.write (text config descriptor)⟩

def singleColumn : Renderer := ofText "SingleColumnRenderer" Layout.singleColumn
def columns : Renderer := ofText "ColumnsRenderer" (Layout.columns Layout.arrangeDown)
def across : Renderer := ofText "AcrossRenderer" (Layout.columns Layout.arrangeAcross)
def stream : Renderer := ofText "StreamRenderer" Layout.stream
def long : Renderer := ⟨"LongRenderer", Layout.long⟩

/-- The renderers of this library. -/
def all : List Renderer := [singleColumn, columns, across, stream, long]

end Renderer

/-- Display modes with their renderers. -/
abbrev RendererTable := List (DisplayMode × Renderer)

namespace RendererTable

/-- The renderers that the display modes have at first. -/
def standard : RendererTable :=
  [(.singleColumn, .singleColumn), (.columns, .columns), (.across, .across), (.stream, .stream),
    (.long, .long)]

/-- The table with another renderer for a display mode. -/
def register (mode : DisplayMode) (renderer : Renderer) : RendererTable → RendererTable
  | [] => [(mode, renderer)]
  | (other, old) :: rest =>
    if other = mode then (mode, renderer) :: rest else (other, old) :: register mode renderer rest

/-- The complaint about a display mode without a renderer. -/
def complaint (table : RendererTable) (mode : String) : String :=
  "Unknown display mode: " ++ mode ++ ". Choose from: "
    ++ ", ".intercalate (table.map fun row => row.1.word)

/-- The renderer of a configuration, or the complaint about its display mode. -/
def select (table : RendererTable) (config : Config) : Except String Renderer :=
  match config.displayMode with
  | .unknown text => .error (complaint table text)
  | .known mode =>
    match table.lookup mode with
    | some renderer => .ok renderer
    | none => .error (complaint table mode.word)

end RendererTable
end DirList
