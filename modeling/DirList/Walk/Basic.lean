import DirList.Error.Listing
import DirList.Walk.Reading

/-!
# Walks

A walk goes through its roots depth first, one event at a time. A directory is reported before its
contents and again after them; one that cannot be listed is reported again as unreadable. At a
directory just reported, its contents can be listed and the walk can be told to skip them.
-/

namespace DirList

/-- A directory whose contents are being walked. -/
structure Frame where
  directory : Entry
  /-- The entries not reached yet. -/
  pending : List Entry
deriving DecidableEq, Repr, Inhabited

structure Walk where
  options : WalkOptions
  comparator : Option Comparator
  roots : List Entry
  /-- The roots not reached yet. -/
  pending : List Entry
  /-- The directories being walked, the innermost first. -/
  frames : List Frame
  /-- The last event. -/
  current : Option Entry
  started : Bool
  closed : Bool
  /-- The contents of the current directory, if they were listed with their status. -/
  listed : Option (List Entry)
  /-- The entries that are not to be descended into. -/
  skipped : List Nat
  /-- The identity of the next entry. -/
  nextSerial : Nat
deriving Inhabited

/-- Why a walk cannot be opened. -/
inductive OpenFailure where
  | listing (error : ListingError)
  | system (error : SystemError)
  /-- A root has a null character in its path. -/
  | nullPath
deriving DecidableEq, Repr

namespace Walk

/-- Why no walk over paths can be opened, whatever the files are: there has to be a path, and none
may be empty or have a null character. -/
def unfit (paths : List String) : Option OpenFailure :=
  if paths.isEmpty then some (.listing (.ofCode .walkOpen "walk" 22))
  else if paths.any String.isEmpty then some (.listing (.ofCode .walkOpen "''" 2))
  else if paths.any Path.hasNull then some .nullPath
  else none

/-- A walk over roots. -/
def start (serial : Nat) (paths : List String) (options : WalkOptions)
    (comparator : Option Comparator) : Access (Except OpenFailure Walk) := do
  match unfit paths with
  | some .nullPath =>
    -- The roots before the path in question are read all the same.
    let _ ← readRoots (options.followRoots || options.logical) serial
      (paths.takeWhile fun path => !Path.hasNull path)
    pure (.error .nullPath)
  | some failure => pure (.error failure)
  | none =>
    let found ← readRoots (options.followRoots || options.logical) serial paths
    match sortEntries comparator found with
    | .error error => pure (.error (.system error))
    | .ok roots =>
      pure (.ok {
        options, comparator, roots
        pending := roots
        frames := []
        current := none
        started := false
        closed := false
        listed := none
        skipped := []
        nextSerial := serial + paths.length })

/-- The walk after an event. -/
def report (walk : Walk) (event : Entry) : Option Entry × Walk :=
  (some event, { walk with current := some event })

/-- The next event that does not lead into a directory: the next entry of the innermost directory,
or that directory when there is none, or the next root. -/
def advance (walk : Walk) : Option Entry × Walk :=
  match walk.frames with
  | [] =>
    match walk.pending with
    | [] => (none, { walk with current := none })
    | root :: pending => { walk with pending }.report root
  | frame :: frames =>
    match frame.pending with
    | [] => { walk with frames }.report { frame.directory with kind := .finished }
    | entry :: pending =>
      { walk with frames := { frame with pending } :: frames }.report entry

/-- The next event at a directory just reported. -/
def descend (walk : Walk) (directory : Entry) : Access (Option Entry × Walk) :=
  let forgotten := { walk with listed := none }
  if walk.skipped.contains directory.serial then
    pure (forgotten.report { directory with kind := .finished })
  else
    match walk.listed with
    | some entries => pure { forgotten with frames := ⟨directory, entries⟩ :: walk.frames }.advance
    | none => do
      match ← readDirectory walk.options walk.comparator false directory walk.nextSerial with
      | .error error =>
        pure (forgotten.report
          { directory with kind := .unreadable, errorCode := error.codeOrZero })
      | .ok entries =>
        pure { forgotten with
          frames := ⟨directory, entries⟩ :: walk.frames
          nextSerial := walk.nextSerial + entries.length }.advance

/-- The directory just reported, if the last event is one. -/
def here? (walk : Walk) : Option Entry :=
  walk.current.filter fun entry => entry.kind = .directory

/-- The next event, or nothing when the walk is over. -/
def read (walk : Walk) : Access (Except ListingError (Option Entry) × Walk) := do
  if walk.closed then pure (.error (.walkRead "read from a closed walk"), walk)
  else
    let begun := { walk with started := true }
    let (event, walk) ← match walk.here? with
      | some directory => begun.descend directory
      | none => pure begun.advance
    pure (.ok event, walk)

/-- The entries of the directory just reported, or the roots before the first event. Nothing is
given at any other event, nor for a directory that cannot be listed. -/
def children (namesOnly : Bool) (walk : Walk) : Access (Option (List Entry) × Walk) := do
  if !walk.started then pure (some walk.roots, walk)
  else
    match walk.here? with
    | none => pure (none, walk)
    | some directory =>
      match ← readDirectory walk.options walk.comparator namesOnly directory walk.nextSerial with
      | .error _ => pure (none, { walk with listed := none })
      | .ok entries =>
        pure (some entries, { walk with
          listed := if namesOnly then none else some entries
          nextSerial := walk.nextSerial + entries.length })

/-- The walk with an entry not to be descended into. -/
def skip (entry : Entry) (walk : Walk) : Walk :=
  { walk with skipped := entry.serial :: walk.skipped }

/-- The word for skipping. -/
def skipWord : String := "skip"

/-- The walk told what to do with an entry, or the complaint about a word that says nothing. -/
def instruct (entry : Entry) (word : String) (walk : Walk) : Except String Walk :=
  if word = skipWord then .ok (walk.skip entry)
  else .error ("Unknown walk instruction: " ++ quoted word)

/-- The walk given up. -/
def close (walk : Walk) : Walk :=
  if walk.closed then walk else { walk with closed := true, listed := none }

/-- No subtree of a given depth has more events, if no directory has more entries than `breadth`. -/
def subtreeEvents (breadth : Nat) : Nat → Nat
  | 0 => 2
  | depth + 1 => 2 + breadth * subtreeEvents breadth depth

/-- The entries that are not reached yet, and the directories that are not finished. -/
def waiting (walk : Walk) : Nat :=
  walk.frames.foldr (fun frame count => frame.pending.length + 1 + count) walk.pending.length

/-- A bound for the events that are left: every directory entered differs from the ones above it, so
that the depth is bounded by the nodes there are. -/
def budget (files : FileSystem) (walk : Walk) : Nat :=
  let listed := (walk.listed.map List.length).getD 0
  (walk.waiting + 2) * subtreeEvents (files.entryCount + 2 + listed) (files.nodes.size + 2)

/-- The events up to the end of the walk, or up to an error, at most so many. -/
def readAll : Nat → Walk → Access (Except ListingError (List Entry) × Walk)
  | 0, walk => pure (.ok [], walk)
  | fuel + 1, walk => do
    match ← walk.read with
    | (.error error, walk) => pure (.error error, walk)
    | (.ok none, walk) => pure (.ok [], walk)
    | (.ok (some event), walk) =>
      match ← readAll fuel walk with
      | (.error error, walk) => pure (.error error, walk)
      | (.ok events, walk) => pure (.ok (event :: events), walk)

/-- All further events of a walk. -/
def drain (walk : Walk) : Access (Except ListingError (List Entry) × Walk) := do
  readAll (walk.budget (← get)) walk

def description (walk : Walk) : String :=
  "FileTreeWalk(roots=[" ++ ", ".intercalate (walk.roots.map fun root => quoted root.path)
    ++ "], options=" ++ walk.options.description ++ ")"

end Walk
end DirList
