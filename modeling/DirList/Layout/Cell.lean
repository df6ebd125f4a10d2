import DirList.Listing.Descriptor

/-!
# Cells

An entry in one of the short layouts: its name, after its inode and its blocks where they are
wanted, and before a mark for its type.
-/

namespace DirList.Layout

/-- The distance of tab stops. -/
def tabWidth : Nat := 8

/-- The mark behind the name of a node of a given mode. -/
def modeMark (config : Config) (mode : Mode) : String :=
  match mode.fileType with
  | .directory => "/"
  | type =>
    if !config.classify then ""
    else
      match type with
      | .symlink => "@"
      | .fifo => "|"
      | .socket => "="
      | .regular => if mode.isExecutable then "*" else ""
      | _ => ""

/-- The mark behind the name of an entry. -/
def typeMark (config : Config) (entry : Entry) : String :=
  match entry.status with
  | some status => if config.marksTypes then modeMark config status.mode else ""
  | none => ""

/-- The inode in its column, where it is wanted. -/
def inodeField (config : Config) (descriptor : Descriptor) (entry : Entry) : String :=
  if config.showInode then padLeft descriptor.inodeWidth (decimal entry.inode) ++ " " else ""

/-- The blocks in their column, where they are wanted. -/
def blocksField (config : Config) (descriptor : Descriptor) (entry : Entry) : String :=
  if config.showBlocks then
    padLeft descriptor.blockWidth (decimal (unitsOf config.blockSize entry.allocatedBytes)) ++ " "
  else ""

def cell (config : Config) (descriptor : Descriptor) (entry : Entry) : String :=
  inodeField config descriptor entry ++ blocksField config descriptor entry
    ++ shownName config.maskNames entry.name ++ typeMark config entry

/-- The cells of the visible entries. -/
def cells (config : Config) (descriptor : Descriptor) : List String :=
  descriptor.visibleEntries.map (cell config descriptor)

/-- The line with the blocks of a directory. -/
def totalLine (config : Config) (descriptor : Descriptor) : String :=
  if !descriptor.isRootList && (config.isLong || config.showBlocks) then
    "total " ++ decimal descriptor.total ++ "\n"
  else ""

/-- Lines, each ended by a newline. -/
def lines (rows : List String) : String :=
  String.join (rows.map (· ++ "\n"))

/-- One cell in each line. -/
def singleColumn (config : Config) (descriptor : Descriptor) : String :=
  lines (cells config descriptor)

end DirList.Layout
