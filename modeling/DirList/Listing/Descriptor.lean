import DirList.Config
import DirList.Entry
import DirList.Listing.Session

/-!
# Measured directories

Before the first line of a directory is written, its entries are selected and measured: which of
them are shown, how wide each column gets, what the total is, and what owners and groups are called.
Entries that stand for errors are reported and not shown.
-/

namespace DirList

/-- An entry with what was decided on it. -/
structure Item where
  entry : Entry
  visible : Bool
  annotation : Option Annotation
deriving DecidableEq, Repr, Inhabited

/-- A directory ready to be laid out. Widths are zero where they are not needed. -/
structure Descriptor where
  /-- The directory, or nothing for the roots. -/
  parent : Option Entry
  items : List Item
  /-- The number of visible entries. -/
  count : Nat
  /-- The length of the longest visible name. -/
  nameWidth : Nat
  measured : Bool
  /-- The blocks of all visible entries. -/
  total : Int
  /-- Whether a device is shown. -/
  hasDevice : Bool
  blockWidth : Nat
  inodeWidth : Nat
  linkWidth : Nat
  sizeWidth : Nat
  ownerWidth : Nat
  groupWidth : Nat
  flagsWidth : Nat
deriving DecidableEq, Repr, Inhabited

namespace Descriptor

/-- What stands in the flags column. -/
def noFlags : String := "-"

/-- Whether an entry that stands for no error is shown: not if it is a directory among the roots
that will be listed by its contents, and not if it is hidden. -/
def isSelected (config : Config) (parent : Option Entry) (entry : Entry) : Bool :=
  match parent with
  | none => entry.kind ≠ .directory || config.listDirectory
  | some _ => !entry.isHidden || config.showHidden

/-- The names in the long line of an entry, or the error about an entry for which there is no memory
to find them out. -/
def annotate (config : Config) (entry : Entry) (status : Status) :
    Job (Except ListingError Annotation) := do
  match ← Job.ownerName config.numericOnly status.owner with
  | none => pure (.error (.allocation entry.name))
  | some owner =>
    match ← Job.groupName config.numericOnly status.group with
    | none => pure (.error (.allocation entry.name))
    | some group => pure (.ok ⟨owner, group, if config.showFlags then some noFlags else none⟩)

/-- What is decided on one entry. -/
def judge (config : Config) (parent : Option Entry) (entry : Entry) :
    Job (Except ListingError Item) := do
  if entry.kind = .error ∨ entry.kind = .noStatus then
    Job.report (.ofCode .node entry.name entry.errorCode)
    pure (.ok ⟨entry, false, none⟩)
  else if !isSelected config parent entry then pure (.ok ⟨entry, false, none⟩)
  else
    match entry.status with
    | none => pure (.ok ⟨entry, true, none⟩)
    | some status =>
      if config.needsStatus && config.blockSize = 0 then throw .emptyBlocks
      if config.isLong then
        match ← annotate config entry status with
        | .error error => pure (.error error)
        | .ok annotation =>
          Job.hold annotation
          pure (.ok ⟨entry, true, some annotation⟩)
      else pure (.ok ⟨entry, true, none⟩)

/-- What is decided on all entries, up to the first for which there is no memory. -/
def judgeAll (config : Config) (parent : Option Entry) :
    List Entry → Job (Except ListingError (List Item))
  | [] => pure (.ok [])
  | entry :: rest => do
    match ← judge config parent entry with
    | .error error => pure (.error error)
    | .ok item =>
      match ← judgeAll config parent rest with
      | .error error => pure (.error error)
      | .ok items => pure (.ok (item :: items))

/-- The length of the longest text, at least 0. -/
def longest (texts : List String) : Nat :=
  (texts.map String.length).foldl max 0

/-- The length of the decimal text of the largest number, at least of 0. -/
def widest (numbers : List Int) : Nat :=
  (decimal (numbers.foldl max 0)).length

/-- The entries that are shown. -/
def visibleItems (items : List Item) : List Item :=
  items.filter Item.visible

/-- The status of the entries that are shown, where they have one. -/
def visibleStatuses (items : List Item) : List Status :=
  (visibleItems items).filterMap fun item => item.entry.status

/-- The bytes that all nodes take on their devices. -/
def totalBytes (statuses : List Status) : Int :=
  statuses.foldr (fun status bytes => status.allocatedBytes + bytes) 0

/-- The measures of decided entries. -/
def measure (config : Config) (parent : Option Entry) (items : List Item) : Descriptor :=
  let shown := visibleItems items
  let statuses := visibleStatuses items
  let names := shown.filterMap Item.annotation
  let ifMeasured := fun (width : Nat) => if config.needsStatus then width else 0
  { parent
    items
    count := shown.length
    nameWidth := longest (shown.map fun item => item.entry.name)
    measured := config.needsStatus
    total :=
      if config.needsStatus then unitsOf config.blockSize (totalBytes statuses)
      else 0
    hasDevice := config.isLong && statuses.any fun status => status.fileType.isDevice
    blockWidth := ifMeasured (widest (statuses.map fun status =>
      unitsOf config.blockSize status.allocatedBytes))
    inodeWidth := ifMeasured (widest (statuses.map Status.inode))
    linkWidth := ifMeasured (widest (statuses.map Status.links))
    sizeWidth := ifMeasured (widest (statuses.map Status.size))
    ownerWidth := longest (names.map Annotation.owner)
    groupWidth := longest (names.map Annotation.group)
    flagsWidth := longest (names.filterMap Annotation.flags) }

/-- The descriptor of the entries of one directory, or nothing if none of them is shown; or the
error about an entry for which there is no memory. -/
def collect (config : Config) (parent : Option Entry) (entries : Option (List Entry)) :
    Job (Except ListingError (Option Descriptor)) := do
  match ← judgeAll config parent (entries.getD []) with
  | .error error =>
    Job.release
    pure (.error error)
  | .ok items =>
    if (visibleItems items).isEmpty then pure (.ok none)
    else if config.needsStatus && config.blockSize = 0 then throw .emptyBlocks
    else pure (.ok (some (measure config parent items)))

/-- Whether the entries are roots and not the contents of a directory. -/
def isRootList (descriptor : Descriptor) : Bool :=
  descriptor.parent.isNone

def visibleEntries (descriptor : Descriptor) : List Entry :=
  (visibleItems descriptor.items).map Item.entry

/-- The descriptor without the names in its long lines. -/
def release (descriptor : Descriptor) : Descriptor :=
  { descriptor with items := descriptor.items.map fun item => { item with annotation := none } }

end Descriptor
end DirList
