import DirList.File.Mode
import DirList.Text.Decimal
import DirList.Time.Stamp

/-!
# The status of a node

What the system reports of a node, and the numbers that a listing derives from it.
-/

namespace DirList

/-- The timestamps that a status holds. -/
inductive TimeField where
  | modification
  | access
  | change
deriving DecidableEq, Repr, Inhabited

/-- What tells two nodes apart: the device and the number on it. -/
structure FileId where
  device : Int
  inode : Int
deriving DecidableEq, Repr, Inhabited

structure Status where
  mode : Mode
  size : Int
  inode : Int
  device : Int
  links : Int
  owner : Int
  group : Int
  /-- The allocated blocks of 512 bytes, where the system reports them. -/
  blocks : Option Int
  /-- The number of the device that a device node stands for. -/
  deviceNumber : Int
  modified : Timestamp
  accessed : Timestamp
  changed : Timestamp
  /-- Whether the system reports whole nanoseconds. -/
  hasNanos : Bool
deriving DecidableEq, Repr, Inhabited

namespace Status

def fileType (status : Status) : FileType :=
  status.mode.fileType

def fileId (status : Status) : FileId :=
  ⟨status.device, status.inode⟩

/-- One of the three timestamps. -/
def time (status : Status) : TimeField → Timestamp
  | .modification => status.modified
  | .access => status.accessed
  | .change => status.changed

/-- The number that a timestamp is ordered by, scaled by `Timestamp.ticksPerSecond`: its
nanoseconds, or its displayed seconds where the system does not report nanoseconds. -/
def timeKey (status : Status) (field : TimeField) : Int :=
  if status.hasNanos then (status.time field).nanoseconds * Timestamp.ticksPerSecond
  else (status.time field).ticks

/-- The bytes of one block in a status. -/
def blockBytes : Int := 512

/-- The bytes that a node takes on its device: its blocks, or its size where they are not reported.
-/
def allocatedBytes (status : Status) : Int :=
  match status.blocks with
  | some blocks => blocks * blockBytes
  | none => status.size

/-- The major part of the number of a device: bits 8 to 19 and, above them, bits 44 to 63. -/
def majorNumber (status : Status) : Int :=
  status.deviceNumber / 0x100 % 0x1000
    + 0x1000 * (status.deviceNumber / 0x100000000000 % 0x100000)

/-- The minor part of the number of a device: bits 0 to 7 and, above them, bits 20 to 43. -/
def minorNumber (status : Status) : Int :=
  status.deviceNumber % 0x100 + 0x100 * (status.deviceNumber / 0x100000 % 0x1000000)

/-- Both parts of the number of a device, each in a field of three. -/
def deviceLabel (status : Status) : String :=
  padLeft 3 (decimal status.majorNumber) ++ ", " ++ padLeft 3 (decimal status.minorNumber)

end Status

/-- An amount of bytes in units of `size` bytes, a started unit counted as a whole one. -/
def unitsOf (size bytes : Int) : Int :=
  -(Int.fdiv (-bytes) size)

end DirList
