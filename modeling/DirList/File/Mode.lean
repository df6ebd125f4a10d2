/-!
# File modes

A mode holds the type of a node in its bits 12 to 15 and twelve permission bits below them. Bits
above these are ignored.
-/

namespace DirList

/-- The types of nodes that a mode can name. -/
inductive FileType where
  | fifo
  | charDevice
  | directory
  | blockDevice
  | regular
  | symlink
  | socket
  | unknown
deriving DecidableEq, Repr, Inhabited

namespace FileType

/-- The type with a given code in a mode. -/
def ofCode : Nat → FileType
  | 1 => fifo
  | 2 => charDevice
  | 4 => directory
  | 6 => blockDevice
  | 8 => regular
  | 10 => symlink
  | 12 => socket
  | _ => unknown

/-- The letter that a long line starts with. -/
def letter : FileType → Char
  | fifo => 'p'
  | charDevice => 'c'
  | directory => 'd'
  | blockDevice => 'b'
  | regular => '-'
  | symlink => 'l'
  | socket => 's'
  | unknown => '?'

/-- Whether a node is a character or a block device. -/
def isDevice (type : FileType) : Bool :=
  type = charDevice || type = blockDevice

end FileType

/-- A mode as a number. -/
abbrev Mode := Nat

namespace Mode

/-- The mode in a number: its lowest sixteen bits. -/
def ofInt (n : Int) : Mode :=
  (n % 0x10000).toNat

def fileType (mode : Mode) : FileType :=
  FileType.ofCode (mode / 0x1000 % 0x10)

/-- The three letters of one class of users: reading, writing, and executing joined with the special
bit of the class. -/
def triple (mode : Mode) (read write execute special : Nat) (on off : Char) : List Char :=
  [if mode.testBit read then 'r' else '-',
   if mode.testBit write then 'w' else '-',
   if mode.testBit special then if mode.testBit execute then on else off
   else if mode.testBit execute then 'x' else '-']

/-- The ten letters of a mode. -/
def letters (mode : Mode) : String :=
  String.ofList (mode.fileType.letter ::
    (triple mode 8 7 6 11 's' 'S' ++ triple mode 5 4 3 10 's' 'S' ++ triple mode 2 1 0 9 't' 'T'))

/-- Whether anyone may execute the node. -/
def isExecutable (mode : Mode) : Bool :=
  mode.testBit 6 || mode.testBit 3 || mode.testBit 0

@[simp] theorem length_letters (mode : Mode) : mode.letters.length = 10 := by
  simp [letters, triple]

end Mode
end DirList
