import DirList.FileSystem.Edit

/-!
# File systems from inventories

An inventory is a list of paths, each directory before what is in it. The path of a directory ends
in a slash, any other path is that of a regular file. Nothing else is known of the nodes, so that
all of them are empty, belong to the superuser and date from 1970.
-/

namespace DirList

/-- The status of a node of which only the mode is known. -/
def Status.ofMode (mode : Mode) : Status where
  mode := mode
  size := 0
  inode := 1
  device := 1
  links := 1
  owner := 0
  group := 0
  blocks := some 0
  deviceNumber := 0
  modified := ⟨0, 0⟩
  accessed := ⟨0, 0⟩
  changed := ⟨0, 0⟩
  hasNanos := true

namespace Sketch

/-- A directory that everybody can list. -/
def directory : Sketch := ⟨.directory, .ofMode 0o40755, none, {}⟩

/-- A regular file that everybody can read. -/
def file : Sketch := ⟨.leaf, .ofMode 0o100644, none, {}⟩

end Sketch

namespace FileSystem

/-- The file system with the node of a path of an inventory. -/
def enroll (files : FileSystem) (path : String) : FileSystem :=
  let sketch := if Path.endsWithSlash path then Sketch.directory else Sketch.file
  ((Call.edit path (some (.node "" sketch []))).run.run files).2

/-- The file system of an inventory. -/
def ofInventory (paths : List String) : FileSystem :=
  paths.foldl enroll (.ofTree (.node "" .directory []))

end FileSystem
end DirList
