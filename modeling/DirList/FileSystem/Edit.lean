import DirList.FileSystem.Call
import DirList.FileSystem.Tree

/-!
# Changes of a file system

Entering a directory, and putting, replacing and removing entries at a path. Paths lead through
links as they do for every other call.
-/

namespace DirList

/-- A directory with its first entry of a name replaced, or with a new one at the end. -/
def Directory.put (name : String) (id : NodeId) : Directory → Directory
  | [] => [(name, id)]
  | (other, old) :: rest =>
    if other = name then (name, id) :: rest else (other, old) :: Directory.put name id rest

/-- A directory without its first entry of a name. -/
def Directory.remove (name : String) : Directory → Directory :=
  List.eraseP fun entry => entry.1 = name

namespace Call

/-- Let relative paths start from a directory. -/
def enter (path : String) : Call Unit := do
  if path.isEmpty then fail .notFound
  let home ← locate true path (Path.components path)
  modify fun files => { files with home }

/-- Put a tree at a path, or remove the entry that is there. The path has to lead to a directory up
to its last name. -/
def edit (path : String) (tree : Option Tree) : Call Unit := do
  match (Path.names path).getLast? with
  | none => pure ()
  | some name =>
    let stack ← locate true path (Path.names path).dropLast
    let directory := stack.headD FileSystem.root
    let before ← entries directory
    let after ← match tree with
      | none => pure (before.remove name)
      | some tree =>
        let (id, files) := (← get).addTree tree
        set files
        pure (before.put name id)
    modify fun files =>
      files.setNode directory { files.node directory with content := .directory after }

end Call
end DirList
