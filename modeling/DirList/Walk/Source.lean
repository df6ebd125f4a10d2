import DirList.Walk.Basic

/-!
# Sources of events

A listing takes its events from a source, which has at most one walk open at a time. What a walk is
is left to a walker, so that a listing can be driven by walks over a file system and by others.
-/

namespace DirList

/-- What a source needs to know of walks of type `ω`. -/
structure Walker (ω : Type) where
  /-- A walk over roots, its entries counted from a serial number. -/
  start : Nat → List String → WalkOptions → Option Comparator → Access (Except OpenFailure ω)
  /-- The entries of the directory just reported, by name only on request. -/
  children : Bool → ω → Access (Option (List Entry) × ω)
  read : ω → Access (Except ListingError (Option Entry) × ω)
  skip : Entry → ω → ω
  close : ω → ω
  /-- A bound for the events that are left. -/
  budget : FileSystem → ω → Nat
  nextSerial : ω → Nat

/-- Walks over a file system. -/
def Walk.walker : Walker Walk where
  start := Walk.start
  children := Walk.children
  read := Walk.read
  skip := Walk.skip
  close := Walk.close
  budget := Walk.budget
  nextSerial := Walk.nextSerial

/-- Why a source does not start a walk. -/
inductive Refusal where
  | listing (error : ListingError)
  /-- A root has a null character in its path. -/
  | nullPath
deriving DecidableEq, Repr

structure Source (ω : Type) where
  walker : Walker ω
  options : WalkOptions
  comparator : Option Comparator
  /-- Whether entries can be listed by name only. -/
  listsNames : Bool := true
  /-- The last walk that was started. -/
  last : Option ω := none
  isOpen : Bool := false
  /-- How many walks were started so far. -/
  started : Nat := 0

namespace Source

variable {ω : Type}

/-- The walk that is open. -/
def walk? (source : Source ω) : Option ω :=
  if source.isOpen then source.last else none

/-- The source after its walk has changed. -/
def setWalk (source : Source ω) (walk : ω) : Source ω :=
  { source with last := some walk }

/-- The error of a source that is asked for events while no walk is open. -/
def notOpen : ListingError :=
  .walkRead "walk is not open"

/-- The source with its walk closed. -/
def close (source : Source ω) : Source ω :=
  match source.walk? with
  | none => source
  | some walk => { source with last := some (source.walker.close walk), isOpen := false }

/-- What becomes of a walk that cannot be opened. -/
def refusal (paths : List String) : OpenFailure → Refusal
  | .listing error => .listing error
  | .system error => .listing (.ofSystem .walkOpen (paths.headD "walk") error)
  | .nullPath => .nullPath

/-- The identity of the first entry of the next walk. -/
def nextSerial (source : Source ω) : Nat :=
  (source.last.map source.walker.nextSerial).getD 0

/-- The source with a walk over roots; a walk that was open is closed first. -/
def start (paths : List String) (source : Source ω) :
    Access (Except Refusal Unit × Source ω) := do
  let source := source.close
  match ← source.walker.start source.nextSerial paths source.options source.comparator with
  | .error failure => pure (.error (refusal paths failure), source)
  | .ok walk =>
    pure (.ok (), { source with last := some walk, isOpen := true, started := source.started + 1 })

/-- The entries of the directory just reported, or the roots where no directory is meant. -/
def children (directory : Option Entry) (namesOnly : Bool) (source : Source ω) :
    Access (Except ListingError (Option (List Entry)) × Source ω) := do
  match source.walk? with
  | none => pure (.error notOpen, source)
  | some walk =>
    let namesOnly := namesOnly && (directory.isNone || source.listsNames)
    let (entries, walk) ← source.walker.children namesOnly walk
    pure (.ok entries, source.setWalk walk)

/-- The next event of the walk that is open. -/
def read (source : Source ω) : Access (Except ListingError (Option Entry) × Source ω) := do
  match source.walk? with
  | none => pure (.error notOpen, source)
  | some walk =>
    let (event, walk) ← source.walker.read walk
    pure (event, source.setWalk walk)

/-- The source told not to descend into a directory. -/
def skip (entry : Entry) (source : Source ω) : Except ListingError (Source ω) :=
  match source.walk? with
  | none => .error notOpen
  | some walk => .ok (source.setWalk (source.walker.skip entry walk))

/-- A bound for the events that are left. -/
def budget (files : FileSystem) (source : Source ω) : Nat :=
  (source.walk?.map (source.walker.budget files)).getD 0

/-- The events up to the end of the walk, or up to an error, at most so many. -/
def readAll : Nat → Source ω → Access (Except ListingError (List Entry) × Source ω)
  | 0, source => pure (.ok [], source)
  | fuel + 1, source => do
    match ← source.read with
    | (.error error, source) => pure (.error error, source)
    | (.ok none, source) => pure (.ok [], source)
    | (.ok (some event), source) =>
      match ← readAll fuel source with
      | (.error error, source) => pure (.error error, source)
      | (.ok events, source) => pure (.ok (event :: events), source)

/-- All further events of the walk that is open. -/
def drain (source : Source ω) : Access (Except ListingError (List Entry) × Source ω) := do
  readAll (source.budget (← get) + 1) source

/-- The events of a walk over roots from its start to its end; the walk is closed in any case. -/
def listAll (paths : List String) (source : Source ω) :
    Access (Except Refusal (List Entry) × Source ω) := do
  match ← source.start paths with
  | (.error refusal, source) => pure (.error refusal, source.close)
  | (.ok (), source) =>
    let (events, source) ← source.drain
    pure (events.mapError .listing, source.close)

def description (source : Source ω) : String :=
  "TreeWalkerAdapter(options=" ++ source.options.description ++ ", comparator="
    ++ (source.comparator.bind Comparator.description?).getD "None" ++ ")"

end Source

/-- A reader of the events of a source. It chooses its walk when it is first asked, and stays with
it also when the source goes on to another walk. -/
inductive EventReader where
  | fresh
  /-- Reading the walk that was the `number`-th to be started. -/
  | reading (number : Nat)
  | ended
deriving DecidableEq, Repr, Inhabited

namespace EventReader

/-- The next event, or nothing at the end; after an error or the end there is no other event. -/
def next {ω : Type} (reader : EventReader) (source : Source ω) :
    Access (Except ListingError (Option Entry) × EventReader × Source ω) := do
  match reader with
  | .ended => pure (.ok none, .ended, source)
  | .reading number =>
    if source.isOpen && number = source.started then step source
    else pure (.error (.walkRead "read from a closed walk"), .ended, source)
  | .fresh => step source
where
  step (source : Source ω) := do
    match ← source.read with
    | (.error error, source) => pure (.error error, .ended, source)
    | (.ok none, source) => pure (.ok none, .ended, source)
    | (.ok (some event), source) => pure (.ok (some event), .reading source.started, source)

end EventReader
end DirList
