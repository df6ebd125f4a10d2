import DirList.FileSystem.Call
import DirList.Order

/-!
# Reading entries

How a walk turns names into entries: the roots from their paths, and the entries of a directory from
a scan of it, with the status of each unless it is not wanted.
-/

namespace DirList.Walk

/-- What an entry is by its status: a directory among its own ancestors is a cycle. -/
def kindOf (ancestors : List Ancestor) (status : Status) : Kind :=
  match status.fileType with
  | .directory =>
    if ancestors.any fun above => above.fileId = some status.fileId then .cycle else .directory
  | .symlink => .symlink
  | .regular => .file
  | _ => .other

/-- An entry with the status of its node. A link that is to be followed and leads nowhere keeps its
own status; without any status the entry keeps the number of the error. -/
def withStatus (followLinks : Bool) (entry : Entry) : Access Entry := do
  match ← attempt (Call.status followLinks entry.accessPath) with
  | .ok status => pure { entry with status := some status, kind := kindOf entry.ancestors status }
  | .error error =>
    let lost := { entry with status := none, kind := .noStatus, errorCode := error.codeOrZero }
    if followLinks then
      match ← attempt (Call.status false entry.accessPath) with
      | .ok status =>
        if status.fileType = .symlink then
          pure { entry with status := some status, kind := .dangling }
        else pure lost
      | .error _ => pure lost
    else pure lost

/-- An entry of which nothing is known but its path. -/
def rootEntry (serial : Nat) (path : String) : Entry where
  name := path
  path := path
  accessPath := path
  level := 0
  kind := .unasked
  status := none
  errorCode := 0
  ancestors := []
  listedAsDirectory := false
  serial := serial

/-- An entry of a directory of which nothing is known but its name. -/
def childEntry (parent : Entry) (serial : Nat) (name : String) : Entry where
  name := name
  path := Path.join parent.path name
  accessPath := Path.join parent.accessPath name
  level := parent.level + 1
  kind := .unasked
  status := none
  errorCode := 0
  ancestors := parent.lineage
  listedAsDirectory := false
  serial := serial

/-- The roots with their status, counted from `serial`. -/
def readRoots (followLinks : Bool) : Nat → List String → Access (List Entry)
  | _, [] => pure []
  | serial, path :: rest => do
    let entry ← withStatus followLinks (rootEntry serial path)
    return entry :: (← readRoots followLinks (serial + 1) rest)

/-- One entry of a scanned directory. -/
def readChild (options : WalkOptions) (namesOnly : Bool) (parent : Entry) (serial : Nat)
    (found : String × NodeId) : Access Entry := do
  let answer ← attempt (Call.isDirectory options.logical parent.accessPath found.1 found.2)
  let isDirectory := match answer with
    | .ok isDirectory => isDirectory
    | .error _ => false
  let entry := { childEntry parent serial found.1 with listedAsDirectory := isDirectory }
  if namesOnly || (options.skipStatus && !isDirectory) then pure entry
  else withStatus options.logical entry

/-- The entries of a scanned directory, counted from `serial`. -/
def readChildren (options : WalkOptions) (namesOnly : Bool) (parent : Entry) :
    Nat → Directory → Access (List Entry)
  | _, [] => pure []
  | serial, found :: rest => do
    let entry ← readChild options namesOnly parent serial found
    return entry :: (← readChildren options namesOnly parent (serial + 1) rest)

/-- One of the entries `.` and `..` of a directory. -/
def readDot (namesOnly : Bool) (parent : Entry) (serial : Nat) (name : String) : Access Entry := do
  let entry := { childEntry parent serial name with listedAsDirectory := true }
  if namesOnly then pure entry
  else
    let entry ← withStatus true entry
    pure (if entry.kind = .noStatus then entry else { entry with kind := .dot })

/-- The entries `.` and `..` of a directory, where they are wanted. -/
def readDots (options : WalkOptions) (namesOnly : Bool) (parent : Entry) (serial : Nat) :
    Access (List Entry) :=
  if options.withDots then do
    let self ← readDot namesOnly parent serial "."
    let above ← readDot namesOnly parent (serial + 1) ".."
    pure [self, above]
  else pure []

/-- The sorted entries of a directory, counted from `serial`. -/
def readDirectory (options : WalkOptions) (comparator : Option Comparator) (namesOnly : Bool)
    (parent : Entry) (serial : Nat) : Access (Except SystemError (List Entry)) := do
  match ← attempt (Call.scan parent.accessPath) with
  | .error error => pure (.error error)
  | .ok found =>
    let children ← readChildren options namesOnly parent serial found
    let dots ← readDots options namesOnly parent (serial + found.length)
    pure (sortEntries comparator (dots ++ children))

end DirList.Walk
