import DirList.Layout.Cell
import DirList.Time.Label

/-!
# Long lines

A line for each entry with its mode, links, owner, group, flags, size or device, time and name, in
columns as wide as the directory needs. The name of a link is followed by its target.
-/

namespace DirList.Layout

/-- The least width of the size column beside device numbers. -/
def deviceWidth : Nat := 8

/-- The size of a node, or the number of the device it stands for. -/
def sizeField (descriptor : Descriptor) (status : Status) : String :=
  if status.fileType.isDevice then status.deviceLabel ++ " "
  else if descriptor.hasDevice then
    padLeft (max deviceWidth descriptor.sizeWidth) (decimal status.size) ++ " "
  else padLeft descriptor.sizeWidth (decimal status.size) ++ " "

/-- The names to show for an entry that has no annotation. -/
def numericNames (status : Status) : Annotation :=
  ⟨decimal status.owner, decimal status.group, none⟩

/-- The fields of a line before the name. -/
def longFields (config : Config) (descriptor : Descriptor) (now : Moment) (entry : Entry)
    (status : Status) (names : Annotation) (field : TimeField) : List String :=
  [inodeField config descriptor entry,
   blocksField config descriptor entry,
   status.mode.letters ++ "  ",
   padLeft descriptor.linkWidth (decimal status.links) ++ " ",
   padRight descriptor.ownerWidth names.owner ++ "  ",
   padRight descriptor.groupWidth names.group ++ "  ",
   if config.showFlags then padRight descriptor.flagsWidth (names.flags.getD "") ++ " " else "",
   sizeField descriptor status,
   (status.time field).measured.label config.fullTime now ++ " "]

/-- The line of an entry, without its end. -/
def longLine (config : Config) (descriptor : Descriptor) (now : Moment) (entry : Entry)
    (status : Status) (names : Annotation) (field : TimeField) (target : Option String) : String :=
  String.join (longFields config descriptor now entry status names field)
    ++ shownName config.maskNames entry.name ++ typeMark config entry
    ++ match target with
      | some target => " -> " ++ shownName config.maskNames target
      | none => ""

/-- The target of an entry that is a link, if it can be read. -/
def linkTarget (entry : Entry) : Job (Option String) := do
  match ← Job.access (attempt (Call.readLink entry.accessPath)) with
  | .ok target => pure (some target)
  | .error _ => pure none

/-- Write the line of an entry. -/
def writeLong (config : Config) (descriptor : Descriptor) (item : Item) : Job Unit := do
  match item.entry.status, config.timeField with
  | none, _ => throw .missingStatus
  | some _, .unknown name => throw (.unknownTimeField name)
  | some status, .known field =>
    match (status.time field).measured.fault? with
    | some fault => throw (.undatable fault)
    | none =>
      let target ← if status.fileType = .symlink then linkTarget item.entry else pure none
      let names := item.annotation.getD (numericNames status)
      let now ← Job.now
      Job.write (longLine config descriptor now item.entry status names field target ++ "\n")

/-- Write the long lines of a directory. -/
def long (config : Config) (descriptor : Descriptor) : Job Unit := do
  Job.write (totalLine config descriptor)
  (Descriptor.visibleItems descriptor.items).forM (writeLong config descriptor)

end DirList.Layout
