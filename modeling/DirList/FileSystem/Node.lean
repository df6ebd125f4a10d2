import DirList.Error.System
import DirList.File.Status
import DirList.Schedule

/-!
# Nodes

A file system is a table of nodes. A node has a content, a status, and for each operation on it a
schedule of failures: calls on the same node may fail now and succeed later.
-/

namespace DirList

/-- Why a call does not answer. -/
inductive Fault where
  | system (error : SystemError)
  /-- The user interrupted the program. -/
  | interrupt
deriving DecidableEq, Repr, Inhabited

/-- The operations that can fail. -/
inductive Operation where
  | status
  | scan
  /-- Looking up a name in a directory. -/
  | lookup
  | readLink
deriving DecidableEq, Repr, Inhabited

/-- The failures of a node. -/
structure Faults where
  status : Schedule Fault := .never
  scan : Schedule Fault := .never
  lookup : Schedule Fault := .never
  readLink : Schedule Fault := .never
deriving DecidableEq, Repr, Inhabited

namespace Faults

def schedule (faults : Faults) : Operation → Schedule Fault
  | .status => faults.status
  | .scan => faults.scan
  | .lookup => faults.lookup
  | .readLink => faults.readLink

def setSchedule (faults : Faults) (operation : Operation) (schedule : Schedule Fault) :
    Faults :=
  match operation with
  | .status => { faults with status := schedule }
  | .scan => { faults with scan := schedule }
  | .lookup => { faults with lookup := schedule }
  | .readLink => { faults with readLink := schedule }

end Faults

/-- The place of a node in the table. -/
abbrev NodeId := Nat

/-- The contents of a directory, in its order. -/
abbrev Directory := List (String × NodeId)

inductive Content where
  | directory (entries : Directory)
  | symlink (target : String)
  | leaf
deriving DecidableEq, Repr, Inhabited

structure Node where
  content : Content
  status : Status
  faults : Faults
deriving DecidableEq, Repr, Inhabited

namespace Node

def entries? (node : Node) : Option Directory :=
  match node.content with
  | .directory entries => some entries
  | _ => none

def target? (node : Node) : Option String :=
  match node.content with
  | .symlink target => some target
  | _ => none

def isDirectory (node : Node) : Bool :=
  node.entries?.isSome

def isSymlink (node : Node) : Bool :=
  node.target?.isSome

end Node

structure FileSystem where
  /-- The nodes; the first one is the directory `/`. -/
  nodes : Array Node
  /-- The directory that relative paths start from and the ones above it, the nearest first. -/
  home : List NodeId
deriving Repr, Inhabited

namespace FileSystem

/-- The place of the directory `/`. -/
def root : NodeId := 0

def node (files : FileSystem) (id : NodeId) : Node :=
  files.nodes.getD id default

/-- The file system with another node in a place. -/
def setNode (files : FileSystem) (id : NodeId) (node : Node) : FileSystem :=
  { files with nodes := files.nodes.setIfInBounds id node }

/-- Whether no call changes what the next calls answer. -/
def IsStatic (files : FileSystem) : Prop :=
  ∀ node ∈ files.nodes, ∀ operation, (node.faults.schedule operation).isConstant = true

/-- The entries of all directories. -/
def entryCount (files : FileSystem) : Nat :=
  files.nodes.toList.foldr (fun node count => (node.entries?.getD []).length + count) 0

end FileSystem
end DirList
