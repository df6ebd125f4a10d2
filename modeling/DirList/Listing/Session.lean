import DirList.Accounts
import DirList.Error.Policy
import DirList.FileSystem.Call
import DirList.Time.Label

/-!
# Sessions

A listing looks at a world, writes text, and hands errors to a policy. A job is a step of a listing;
what it wrote and recorded stays when the job is given up.
-/

namespace DirList

/-- What a listing looks at. -/
structure World where
  files : FileSystem
  now : Timestamp
  owners : NameTable
  groups : NameTable
deriving Repr, Inhabited

/-- The names in a long line. -/
structure Annotation where
  owner : String
  group : String
  flags : Option String
deriving DecidableEq, Repr, Inhabited

structure Session where
  world : World
  policy : Policy
  /-- The text written so far. -/
  output : String := ""
  /-- The names that were found out for long lines and are not released yet. -/
  held : List Annotation := []
deriving Repr, Inhabited

/-- The session with nothing held. -/
def Session.release (session : Session) : Session :=
  { session with held := [] }

/-- Why a job is given up. -/
inductive Abort where
  /-- A policy stopped the listing, or a walk cannot go on. -/
  | listing (error : ListingError)
  /-- A long line was to be written for an entry without a status. -/
  | missingStatus
  /-- A long line was to show a timestamp of an unknown name. -/
  | unknownTimeField (name : String)
  /-- Blocks of no bytes were to be counted. -/
  | emptyBlocks
  /-- A long line was to show a time whose date cannot be told. -/
  | undatable (fault : DateFault)
  /-- A path with a null character was to be listed. -/
  | nullPath
  | interrupted
deriving DecidableEq, Repr, Inhabited

abbrev Job := ExceptT Abort (StateM Session)

namespace Job

/-- Write a text. -/
def write (text : String) : Job Unit :=
  modify fun session => { session with output := session.output ++ text }

/-- Hand an error to the policy. -/
def report (error : ListingError) : Job Unit := do
  let session ← get
  let (stops, policy) := session.policy.handle error
  set { session with policy }
  if stops then throw (.listing error)

/-- Act on the file system. -/
def access {α : Type} (action : Access α) : Job α := do
  let session ← get
  let (answer, files) := action.run.run session.world.files
  set { session with world := { session.world with files } }
  match answer with
  | .ok answer => pure answer
  | .error .interrupted => throw .interrupted

/-- What an owner is called, if there is memory to find out. -/
def ownerName (numericOnly : Bool) (id : Int) : Job (Option String) := do
  let session ← get
  let (name, owners) := session.world.owners.resolve numericOnly id
  set { session with world := { session.world with owners } }
  pure name

/-- What a group is called, if there is memory to find out. -/
def groupName (numericOnly : Bool) (id : Int) : Job (Option String) := do
  let session ← get
  let (name, groups) := session.world.groups.resolve numericOnly id
  set { session with world := { session.world with groups } }
  pure name

/-- Change what is held. -/
def changeHeld (change : List Annotation → List Annotation) : Job Unit :=
  modify fun session => { session with held := change session.held }

/-- Hold the names in a long line. -/
def hold (names : Annotation) : Job Unit :=
  changeHeld (· ++ [names])

/-- Release all names that are held. -/
def release : Job Unit :=
  changeHeld fun _ => []

/-- The moment that the clock shows. -/
def now : Job Moment := do
  return (← get).world.now.measured

end Job
end DirList
