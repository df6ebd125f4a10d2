import DirList.File.Status
import DirList.Text.Quoted

/-!
# Configurations

What a caller can ask of a listing. A configuration is a plain value; `Config.problems` names what
is inconsistent in it, and a listing starts only if there is nothing to name.
-/

namespace DirList

/-- The layouts of a listing. -/
inductive DisplayMode where
  | singleColumn
  | columns
  | across
  | stream
  | long
deriving DecidableEq, Repr, Inhabited

/-- What entries are ordered by. -/
inductive SortKey where
  | name
  | size
  | time (field : TimeField)
deriving DecidableEq, Repr, Inhabited

inductive SymlinkMode where
  /-- Links are listed themselves. -/
  | physical
  /-- Links are followed. -/
  | logical
deriving DecidableEq, Repr, Inhabited

namespace TimeField

def word : TimeField → String
  | modification => "mtime"
  | access => "atime"
  | change => "ctime"

def all : List TimeField := [modification, access, change]

/-- The key that orders entries by this time. -/
def sortKey (field : TimeField) : SortKey :=
  .time field

end TimeField

namespace DisplayMode

def word : DisplayMode → String
  | singleColumn => "single"
  | columns => "columns"
  | across => "across"
  | stream => "stream"
  | long => "long"

def all : List DisplayMode := [singleColumn, columns, across, stream, long]

end DisplayMode

namespace SortKey

def word : SortKey → String
  | name => "name"
  | size => "size"
  | time field => field.word

def all : List SortKey := [name, size, time .modification, time .access, time .change]

end SortKey

namespace SymlinkMode

def word : SymlinkMode → String
  | physical => "physical"
  | logical => "logical"

def all : List SymlinkMode := [physical, logical]

end SymlinkMode

/-- A choice among known values, as a caller made it: one of them, or a text that is none. -/
inductive Choice (α : Type) where
  | known (value : α)
  | unknown (text : String)
deriving DecidableEq, Repr

instance {α : Type} [Inhabited α] : Inhabited (Choice α) := ⟨.known default⟩

instance {α : Type} : Coe α (Choice α) := ⟨.known⟩

/-- The word of a choice, where `word` gives the words of the known values. -/
def Choice.text {α : Type} (word : α → String) : Choice α → String
  | known value => word value
  | unknown text => text

/-- What a walk over a file system is asked to do. -/
structure WalkOptions where
  /-- Take the status of links themselves. -/
  physical : Bool := true
  /-- Stay in the working directory. -/
  keepDirectory : Bool := true
  /-- Add entries for `.` and `..`. -/
  withDots : Bool := false
  /-- Take no status of entries that are not directories. -/
  skipStatus : Bool := false
  /-- Follow links that are roots. -/
  followRoots : Bool := false
deriving DecidableEq, Repr, Inhabited

namespace WalkOptions

/-- Follow every link. -/
def logical (options : WalkOptions) : Bool :=
  !options.physical

def description (options : WalkOptions) : String :=
  "WalkOptions(physical=" ++ truthWord options.physical ++ ", nochdir="
    ++ truthWord options.keepDirectory ++ ", seedot=" ++ truthWord options.withDots ++ ", nostat="
    ++ truthWord options.skipStatus ++ ", comfollow=" ++ truthWord options.followRoots ++ ")"

end WalkOptions

/-- The width of an output that is no terminal. -/
def defaultWidth : Int := 80

/-- The bytes of a block in listings. -/
def defaultBlockSize : Int := 1024

structure Config where
  displayMode : Choice DisplayMode := DisplayMode.singleColumn
  width : Int := defaultWidth
  sortKey : Choice SortKey := SortKey.name
  reverse : Bool := false
  /-- Keep the order of the directory. -/
  unsorted : Bool := false
  showHidden : Bool := false
  /-- List `.` and `..`. -/
  showDots : Bool := false
  recursive : Bool := false
  /-- List directories like other entries and not by their contents. -/
  listDirectory : Bool := false
  /-- Show owners and groups as numbers. -/
  numericOnly : Bool := false
  showInode : Bool := false
  showBlocks : Bool := false
  showFlags : Bool := false
  /-- Mark entries by their type. -/
  classify : Bool := false
  /-- Mark directories. -/
  classifyDirectories : Bool := false
  /-- Show a question mark for characters that are not printable. -/
  maskNames : Bool := false
  fullTime : Bool := false
  timeField : Choice TimeField := TimeField.modification
  blockSize : Int := defaultBlockSize
  symlinkMode : Choice SymlinkMode := SymlinkMode.physical
  /-- Accepted and without effect. -/
  whiteout : Bool := false
  /-- Accepted and without effect. -/
  compatGroup : Bool := false
deriving DecidableEq, Repr, Inhabited

namespace Config

def isLong (config : Config) : Bool :=
  config.displayMode = .known .long

/-- Whether the entries have to be measured by their status. -/
def needsStatus (config : Config) : Bool :=
  config.showInode || config.isLong || config.showBlocks

/-- Whether names are followed by a mark. -/
def marksTypes (config : Config) : Bool :=
  config.classify || config.classifyDirectories

/-- The walk that a configuration asks for. The status is skipped where nothing shown and no order
depends on it; links that are roots are followed unless they are to be seen themselves. -/
def walkOptions (config : Config) : WalkOptions where
  physical := config.symlinkMode = .known .physical
  keepDirectory := true
  withDots := config.showDots
  skipStatus := !config.isLong && !config.showInode && !config.showBlocks && !config.classify
    && !config.classifyDirectories && config.sortKey = .known .name
  followRoots := !config.isLong && !config.listDirectory && !config.classify

/-- The defaults on a terminal. -/
def forTerminal (width : Int) : Config where
  width := width
  displayMode := DisplayMode.columns
  maskNames := true

/-- What is inconsistent in a configuration. -/
inductive Problem where
  | width
  | blockSize
  | dotsWithoutHidden
  | displayMode (text : String)
  | sortKey (text : String)
deriving DecidableEq, Repr

def Problem.message : Problem → String
  | width => "term_width must be positive"
  | blockSize => "block_size must be positive"
  | dotsWithoutHidden => "see_dot requires show_hidden"
  | displayMode text => "unknown display mode: " ++ quoted text
  | sortKey text => "unknown sort key: " ++ quoted text

/-- Everything that is inconsistent, in a fixed order. -/
def problems (config : Config) : List Problem :=
  (if config.width ≤ 0 then [.width] else [])
    ++ (if config.blockSize ≤ 0 then [.blockSize] else [])
    ++ (if config.showDots && !config.showHidden then [.dotsWithoutHidden] else [])
    ++ (match config.displayMode with
        | .known _ => []
        | .unknown text => [.displayMode text])
    ++ (match config.sortKey with
        | .known _ => []
        | .unknown text => [.sortKey text])

end Config
end DirList
