import DirList.CommandLine.Terminal

/-!
# Flags

A flag is a letter that changes the settings. Flags work in the order in which they are given. What
is sorted by is settled when all of them are known, because the timestamp may be chosen after the
order.
-/

namespace DirList

/-- What the entries are to be sorted by, if not by name. -/
inductive SortChoice where
  | size
  | time
deriving DecidableEq, Repr, Inhabited

structure Settings where
  config : Config
  sortBy : Option SortChoice := none
deriving DecidableEq, Repr, Inhabited

namespace Settings

/-- The settings before the first flag: columns and masked names on a terminal, one name per line
elsewhere, and all entries for the superuser. -/
def initial (device : OutputDevice) (columns : Option String) (user : Int) : Settings :=
  let config :=
    if device.isTerminal then Config.forTerminal (device.layoutWidth columns defaultWidth) else {}
  { config := if user = 0 then { config with showHidden := true } else config }

/-- The sort key by the chosen timestamp. -/
def timeKey : Choice TimeField → Choice SortKey
  | .known field => .known field.sortKey
  | .unknown text => .unknown text

/-- The configuration that the settings come to. -/
def toConfig (settings : Settings) : Config :=
  match settings.sortBy with
  | none => settings.config
  | some .size => { settings.config with sortKey := SortKey.size }
  | some .time => { settings.config with sortKey := timeKey settings.config.timeField }

/-- The settings with a change of the configuration. -/
def change (update : Config → Config) (settings : Settings) : Settings :=
  { settings with config := update settings.config }

end Settings

structure Flag where
  letter : Char
  help : String
  apply : Settings → Settings

namespace Flag

/-- A flag that changes the configuration. -/
def config (letter : Char) (help : String) (update : Config → Config) : Flag :=
  ⟨letter, help, Settings.change update⟩

/-- A flag that chooses what is sorted by. -/
def sort (letter : Char) (help : String) (choice : SortChoice) : Flag :=
  ⟨letter, help, fun settings => { settings with sortBy := some choice }⟩

/-- All flags, in the order of the help text. -/
def all : List Flag := [
  config '1' "one entry per line" fun c => { c with displayMode := DisplayMode.singleColumn },
  config 'C' "multi-column output, sorted down" fun c =>
    { c with displayMode := DisplayMode.columns },
  config 'l' "long format" fun c =>
    { c with displayMode := DisplayMode.long, numericOnly := false },
  config 'm' "comma separated stream" fun c => { c with displayMode := DisplayMode.stream },
  config 'x' "multi-column output, sorted across" fun c =>
    { c with displayMode := DisplayMode.across },
  config 'n' "long format, numeric ids" fun c =>
    { c with displayMode := DisplayMode.long, numericOnly := true },
  config 'c' "use status change time" fun c => { c with timeField := TimeField.change },
  config 'u' "use access time" fun c => { c with timeField := TimeField.access },
  config 'F' "append a type indicator" fun c => { c with classify := true },
  config 'L' "follow symbolic links" fun c => { c with symlinkMode := SymlinkMode.logical },
  config 'R' "list subdirectories recursively" fun c => { c with recursive := true },
  config 'a' "include entries starting with ." fun c =>
    { c with showDots := true, showHidden := true },
  config 'A' "like -a, without . and .." fun c => { c with showHidden := true },
  config 'd' "list directories themselves" fun c =>
    { c with listDirectory := true, recursive := false },
  config 'f' "do not sort" fun c => { c with unsorted := true },
  config 'g' "ignored, for compatibility" fun c => { c with compatGroup := true },
  config 'i' "print inode numbers" fun c => { c with showInode := true },
  config 'k' "block sizes in kilobytes" fun c => { c with blockSize := 1024 },
  config 'o' "print file flags" fun c => { c with showFlags := true },
  config 'p' "append / to directories" fun c => { c with classifyDirectories := true },
  config 'q' "print non-printable characters as ?" fun c => { c with maskNames := true },
  config 'r' "reverse the sort order" fun c => { c with reverse := true },
  sort 'S' "sort by size" .size,
  config 's' "print block counts" fun c => { c with showBlocks := true },
  config 'T' "print complete time information" fun c => { c with fullTime := true },
  sort 't' "sort by time" .time,
  config 'W' "ignored, no whiteouts on this platform" fun c => { c with whiteout := true }]

/-- The flag of a letter. -/
def ofLetter? (letter : Char) : Option Flag :=
  all.find? fun flag => flag.letter = letter

end Flag
end DirList
