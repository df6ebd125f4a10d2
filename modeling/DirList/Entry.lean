import DirList.File.Status
import DirList.Text.Quoted

/-!
# Entries

An entry is a node as a walk found it: the name it is listed under, the path it was reached by, and
what the walk says of it. The walk reports a directory several times, each time as an entry of the
same identity and another kind.
-/

namespace DirList

/-- What a walk says of an entry. -/
inductive Kind where
  /-- A directory, before its contents. -/
  | directory
  /-- A directory, after its contents. -/
  | finished
  | file
  | symlink
  /-- A symbolic link that was to be followed and leads nowhere. -/
  | dangling
  | other
  /-- One of the entries `.` and `..`. -/
  | dot
  /-- A directory that is one of its own ancestors. -/
  | cycle
  | unreadable
  | error
  /-- The status could not be had. -/
  | noStatus
  /-- The status was not asked for. -/
  | unasked
deriving DecidableEq, Repr, Inhabited

namespace Kind

/-- The short name of a kind. -/
def code : Kind → String
  | directory => "D"
  | finished => "DP"
  | file => "F"
  | symlink => "SL"
  | dangling => "SLNONE"
  | other => "DEFAULT"
  | dot => "DOT"
  | cycle => "DC"
  | unreadable => "DNR"
  | error => "ERR"
  | noStatus => "NS"
  | unasked => "NSOK"

/-- The name of a kind in words. -/
def word : Kind → String
  | directory => "directory"
  | finished => "directory_post"
  | file => "file"
  | symlink => "symlink"
  | dangling => "symlink_none"
  | other => "default"
  | dot => "dot"
  | cycle => "cycle"
  | unreadable => "unreadable"
  | error => "error"
  | noStatus => "no_stat"
  | unasked => "no_stat_ok"

def all : List Kind :=
  [directory, finished, file, symlink, dangling, other, dot, cycle, unreadable, error, noStatus,
    unasked]

/-- The kind with a given short name. -/
def ofCode? (code : String) : Option Kind :=
  all.find? fun kind => kind.code == code

/-- Whether an entry of this kind stands for an error. -/
def isError (kind : Kind) : Bool :=
  kind = error || kind = noStatus || kind = unreadable

end Kind

/-- A directory above an entry. -/
structure Ancestor where
  serial : Nat
  path : String
  fileId : Option FileId
deriving DecidableEq, Repr, Inhabited

structure Entry where
  /-- The last component for the entries of a directory, the whole argument for a root. -/
  name : String
  path : String
  /-- The path by which the node is accessed. -/
  accessPath : String
  /-- The depth below the roots. -/
  level : Int
  kind : Kind
  status : Option Status
  /-- The number of the error behind an error kind. -/
  errorCode : Int
  /-- The directories above, the nearest first. -/
  ancestors : List Ancestor
  /-- Whether the listing of its directory calls it a directory. -/
  listedAsDirectory : Bool
  /-- The identity of the entry within its walk. -/
  serial : Nat
deriving DecidableEq, Repr, Inhabited

namespace Entry

def isRoot (entry : Entry) : Bool :=
  entry.level = 0

/-- Whether the name starts with a dot. -/
def isHidden (entry : Entry) : Bool :=
  entry.name.toList.head? = some '.'

/-- The path of the directory that the entry was found in. -/
def parentPath? (entry : Entry) : Option String :=
  entry.ancestors.head?.map Ancestor.path

/-- The entry as one of the directories above its children. -/
def asAncestor (entry : Entry) : Ancestor :=
  ⟨entry.serial, entry.path, entry.status.map Status.fileId⟩

/-- The directories above the children of the entry. -/
def lineage (entry : Entry) : List Ancestor :=
  entry.asAncestor :: entry.ancestors

/-- The entry without its identity and those of the directories above. -/
def unnumbered (entry : Entry) : Entry :=
  { entry with
    serial := 0
    ancestors := entry.ancestors.map fun above => { above with serial := 0 } }

/-- The size an entry is ordered by. -/
def size (entry : Entry) : Int :=
  (entry.status.map Status.size).getD 0

/-- The number an entry is ordered by in an order by time. -/
def timeKey (field : TimeField) (entry : Entry) : Int :=
  (entry.status.map (Status.timeKey · field)).getD 0

/-- The bytes that the node takes on its device. -/
def allocatedBytes (entry : Entry) : Int :=
  (entry.status.map Status.allocatedBytes).getD 0

/-- The number of the node on its device, 0 where it is not known. -/
def inode (entry : Entry) : Int :=
  (entry.status.map Status.inode).getD 0

def description (entry : Entry) : String :=
  "Entry(path=" ++ quoted entry.path ++ ", level=" ++ decimal entry.level ++ ", info="
    ++ entry.kind.code ++ ")"

end Entry
end DirList
