import DirList.FileSystem.Node
import DirList.FileSystem.Path

/-!
# Calls on a file system

Resolving paths, taking the status of a node, scanning a directory, and reading a link. A call
answers or fails, and it advances the schedules of the nodes that it passes.
-/

namespace DirList

/-- A call: it may fail, and it advances schedules. -/
abbrev Call := ExceptT Fault (StateM FileSystem)

namespace Call

/-- A call that fails with an error of the system. -/
def fail {α : Type} (error : SystemError) : Call α :=
  throw (.system error)

/-- Let an operation on a node fail if its schedule says so. -/
def consult (id : NodeId) (operation : Operation) : Call Unit := do
  let files ← get
  let node := files.node id
  let schedule := node.faults.schedule operation
  match schedule.later with
  | [] => pure ()
  | now :: later =>
    set (files.setNode id { node with faults := node.faults.setSchedule operation ⟨now, later⟩ })
  match schedule.now with
  | none => pure ()
  | some fault => throw fault

/-- The entries of a node, which has to be a directory. -/
def entries (id : NodeId) : Call Directory := do
  match ((← get).node id).entries? with
  | some entries => pure entries
  | none => fail .notDirectory

/-- The most links that one path may lead through. -/
def maxLinks : Nat := 40

/-- The stack without its top, unless that is all there is. -/
def parents : List NodeId → List NodeId
  | _ :: parent :: above => parent :: above
  | stack => stack

/-- How far a path leads without going through a link. -/
inductive Progress where
  /-- To its end: the nodes from the last one up. -/
  | arrived (stack : List NodeId)
  /-- To a link: the nodes above it, its target, and what is left of the path. -/
  | diverted (stack : List NodeId) (target : String) (rest : List String)
deriving DecidableEq, Repr, Inhabited

/-- How far a path leads from a stack of nodes, the nearest one on top. A link at the end of the
path is gone through only on request. -/
def proceed (followLast : Bool) : List NodeId → List String → Call Progress
  | stack, [] => pure (.arrived stack)
  | stack, name :: rest => do
    let here := stack.headD FileSystem.root
    let entries ← entries here
    consult here .lookup
    if name = "." then proceed followLast stack rest
    else if name = ".." then proceed followLast (parents stack) rest
    else
      match entries.lookup name with
      | none => fail .notFound
      | some id =>
        match ((← get).node id).target? with
        | none => proceed followLast (id :: stack) rest
        | some target =>
          if followLast || !rest.isEmpty then pure (.diverted stack target rest)
          else proceed followLast (id :: stack) rest

/-- The nodes that a path leads to from a stack of nodes, through at most `links` links. -/
def follow (followLast : Bool) (links : Nat) (stack : List NodeId) (path : List String) :
    Call (List NodeId) := do
  match ← proceed followLast stack path with
  | .arrived stack => pure stack
  | .diverted stack target rest =>
    match links with
    | 0 => fail .tooManyLinks
    | links + 1 =>
      if target.isEmpty then fail .notFound
      else
        let start := if Path.isAbsolute target then [FileSystem.root] else stack
        follow followLast links start (Path.components target ++ rest)

/-- The nodes that names lead to from where a path starts. -/
def locate (followLast : Bool) (path : String) (names : List String) : Call (List NodeId) := do
  let home := (← get).home
  follow followLast maxLinks (if Path.isAbsolute path then [FileSystem.root] else home) names

/-- The node that a path leads to. -/
def resolve (followLast : Bool) (path : String) : Call NodeId := do
  if path.isEmpty then fail .notFound
  let stack ← locate followLast path (Path.components path)
  pure (stack.headD FileSystem.root)

/-- The status of the node that a path leads to. -/
def status (followLast : Bool) (path : String) : Call Status := do
  let id ← resolve followLast path
  consult id .status
  pure ((← get).node id).status

/-- The entries of the directory that a path leads to. -/
def scan (path : String) : Call Directory := do
  let id ← resolve true path
  let entries ← entries id
  consult id .scan
  pure entries

/-- The target of the link that a path leads to. -/
def readLink (path : String) : Call String := do
  let id ← resolve false path
  match ((← get).node id).target? with
  | none => fail .invalid
  | some target =>
    consult id .readLink
    pure target

/-- Whether a scanned entry is a directory; a link is looked through on request. -/
def isDirectory (followLinks : Bool) (scanned name : String) (id : NodeId) : Call Bool := do
  let node := (← get).node id
  if followLinks && node.isSymlink then
    let id ← resolve true (Path.join scanned name)
    pure ((← get).node id).isDirectory
  else pure node.isDirectory

end Call

/-- The user interrupted the program. -/
inductive Interrupted where
  | interrupted
deriving DecidableEq, Repr, Inhabited

/-- An action on a file system that only the user can stop. -/
abbrev Access := ExceptT Interrupted (StateM FileSystem)

/-- A call whose failure is an answer like any other. -/
def attempt {α : Type} (call : Call α) : Access (Except SystemError α) := do
  match ← (call.run : StateM FileSystem (Except Fault α)) with
  | .ok answer => pure (.ok answer)
  | .error (.system error) => pure (.error error)
  | .error .interrupt => throw .interrupted

end DirList
