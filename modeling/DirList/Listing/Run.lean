import DirList.Listing.Plan

/-!
# Runs

A run lists its roots in one block, and then follows the events of a walk: each directory entered
gets a section of its own, under its path, and the events that stand for errors are reported.
-/

namespace DirList

/-- The state of a run. -/
structure RunState where
  rootCount : Nat := 0
  /-- Whether anything was written. -/
  hasOutput : Bool := false
  /-- Whether any error was reported. -/
  hasFailed : Bool := false
  /-- How many directories got a section. -/
  sections : Nat := 0
deriving DecidableEq, Repr, Inhabited

/-- The exit status of a finished run. -/
def RunState.exitStatus (state : RunState) : Nat :=
  if state.hasFailed then 1 else 0

/-- A run at work. -/
structure Run (ω : Type) where
  session : Session
  source : Source ω
  state : RunState := {}

/-- What gives a run up. -/
class GivesUp (ε : Type) where
  abort : ε → Abort

instance : GivesUp ListingError where
  abort := .listing

instance : GivesUp Refusal where
  abort
    | .listing error => .listing error
    | .nullPath => .nullPath

/-- A step of a run. What it did stays when the run is given up. -/
abbrev Stride (ω : Type) := ExceptT Abort (StateM (Run ω))

namespace Run

variable {ω : Type}

/-- A job as a step of a run. -/
def job {α : Type} (work : Job α) : Stride ω α := do
  let run ← get
  let (answer, session) := work.run.run run.session
  set { run with session }
  match answer with
  | .ok answer => pure answer
  | .error abort => throw abort

def changeState (change : RunState → RunState) : Stride ω Unit :=
  modify fun run => { run with state := change run.state }

/-- An action on the source as a step of a run. -/
def onSource {ε α : Type} [GivesUp ε] (action : Source ω → Access (Except ε α × Source ω)) :
    Stride ω α := do
  let (answer, source) ← job (Job.access (action (← get).source))
  modify fun run => { run with source }
  match answer with
  | .ok answer => pure answer
  | .error error => throw (GivesUp.abort error)

/-- Tell the source not to descend into a directory. -/
def skip (entry : Entry) : Stride ω Unit :=
  onSource fun source => pure
    (match source.skip entry with
     | .ok source => (.ok (), source)
     | .error error => (.error error, source))

/-- Report an error, which makes the run a failed one. -/
def report (error : ListingError) : Stride ω Unit := do
  changeState fun state => { state with hasFailed := true }
  job (Job.report error)

/-- What stands above the section of a directory: its path, after a blank line unless nothing was
written before. The section of a sole root that comes first needs nothing. -/
def header (state : RunState) (directory : Entry) : String :=
  if state.hasOutput then "\n" ++ directory.path ++ ":\n"
  else if 1 < state.rootCount then directory.path ++ ":\n"
  else ""

/-- Write the entries of a directory, or of the roots, if any of them is shown. What is held for
their lines is released however that ends. -/
def display (plan : Plan) (parent : Option Entry) (entries : Option (List Entry)) :
    Stride ω Unit := do
  match ← job (Descriptor.collect plan.config parent entries) with
  | .error error => report error
  | .ok none => pure ()
  | .ok (some descriptor) =>
    if let some directory := parent then job (Job.write (header (← get).state directory))
    try job (plan.renderer.render plan.config descriptor)
    finally modify fun run => { run with session := run.session.release }
    changeState fun state => { state with
      hasOutput := true
      sections := if parent.isSome then state.sections + 1 else state.sections }

/-- List a directory that the walk has reached, and keep the walk out of it unless the listing is
recursive. A hidden directory is passed over unless hidden entries are shown. -/
def enter (plan : Plan) (namesOnly : Bool) (directory : Entry) : Stride ω Unit := do
  if directory.isHidden && !directory.isRoot && !plan.config.showHidden then skip directory
  else
    let entries ← onSource (Source.children (some directory) namesOnly)
    display plan (some directory) entries
    if !plan.config.recursive && !(entries.getD []).isEmpty then skip directory

/-- React to an event of the walk. -/
def react (plan : Plan) (namesOnly : Bool) (event : Entry) : Stride ω Unit :=
  match event.kind with
  | .directory => enter plan namesOnly event
  | .cycle => report (.cycle event.name)
  | .unreadable => report (.ofCode .node event.name event.errorCode)
  | .error => report (.ofCode .node event.name event.errorCode)
  | _ => pure ()

/-- React to the events of the walk until there are no more, or at most so often. -/
def follow (plan : Plan) (namesOnly : Bool) : Nat → Stride ω Unit
  | 0 => pure ()
  | fuel + 1 => do
    match ← onSource Source.read with
    | none => pure ()
    | some event =>
      react plan namesOnly event
      follow plan namesOnly fuel

/-- A run counts as failed if any error was handed to its policy. -/
def finish : Stride ω RunState := do
  let run ← get
  if run.session.policy.hasFailed then
    changeState fun state => { state with hasFailed := true }
  return (← get).state

/-- List the roots, and what the walk over them reports. -/
def walkRoots (plan : Plan) : Stride ω Unit := do
  display plan none (← onSource (Source.children none false))
  if !plan.config.listDirectory then
    let run ← get
    let namesOnly := !plan.config.recursive && run.source.options.skipStatus
    follow plan namesOnly (run.source.budget run.session.world.files + 1)

/-- List paths. The walk is closed however the run ends. -/
def list (plan : Plan) (paths : List String) : Stride ω RunState := do
  changeState fun _ => { rootCount := paths.length }
  onSource (Source.start paths)
  try walkRoots plan
  finally modify fun run => { run with source := run.source.close }
  finish

end Run
end DirList
