import DirList.FileSystem.Node

/-!
# File systems from trees

A file system is written down as a tree of named nodes. Nodes are numbered as they are added, a
directory before its contents; the number is the inode of a node that has none of its own.
-/

namespace DirList

/-- What a node of a tree is, apart from its contents. -/
inductive Form where
  | directory
  | symlink (target : String)
  | leaf
deriving DecidableEq, Repr, Inhabited

/-- What a tree says of a node. -/
structure Sketch where
  form : Form
  /-- The status, but for the inode. -/
  status : Status
  inode : Option Int
  faults : Faults
deriving DecidableEq, Repr, Inhabited

inductive Tree where
  | node (name : String) (sketch : Sketch) (entries : List Tree)
deriving Inhabited

namespace Tree

def name : Tree → String
  | node name _ _ => name

end Tree

namespace Sketch

/-- The node that a sketch describes, in a given place and with given contents. -/
def toNode (sketch : Sketch) (id : NodeId) (entries : Directory) : Node where
  content :=
    match sketch.form with
    | .directory => .directory entries
    | .symlink target => .symlink target
    | .leaf => .leaf
  status := { sketch.status with inode := sketch.inode.getD (id + 1) }
  faults := sketch.faults

end Sketch

namespace FileSystem

mutual

/-- A file system with the nodes of a tree added, and the place of the tree's root. -/
def addTree (files : FileSystem) : Tree → NodeId × FileSystem
  | .node _ sketch entries =>
    let id := files.nodes.size
    let reserved := { files with nodes := files.nodes.push (sketch.toNode id []) }
    let (directory, files) := addForest reserved entries
    (id, files.setNode id (sketch.toNode id directory))

/-- A file system with the nodes of several trees added, and the directory of the trees. -/
def addForest (files : FileSystem) : List Tree → Directory × FileSystem
  | [] => ([], files)
  | tree :: rest =>
    let (id, files) := addTree files tree
    let (directory, files) := addForest files rest
    ((tree.name, id) :: directory, files)

end

/-- The file system of a tree; relative paths start from `/`. -/
def ofTree (tree : Tree) : FileSystem :=
  (addTree ⟨#[], [root]⟩ tree).2

end FileSystem
end DirList
