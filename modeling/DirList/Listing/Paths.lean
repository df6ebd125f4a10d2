import DirList.Listing.Run

/-!
# Listing paths

The whole of a listing: paths and a configuration in, text, errors and an exit status out.
-/

namespace DirList

/-- What is listed where no path is given. -/
def defaultPaths : List String := ["."]

/-- The paths to list. -/
def pathsOrDefault (paths : List String) : List String :=
  if paths.isEmpty then defaultPaths else paths

/-- The world with no names kept. -/
def World.forget (world : World) : World :=
  { world with owners := world.owners.forget, groups := world.groups.forget }

/-- A session with nothing written, nothing recorded and no names asked for. -/
def Session.fresh (world : World) (policy : PolicyKind) : Session where
  world := world.forget
  policy := { kind := policy }

/-- A fatal error is handed to the policy and makes the listing fail. -/
def settleFatal (error : ListingError) : Job Nat := do
  Job.report error
  pure 1

/-- List paths by a plan, and give the exit status. Errors of the walk itself are settled here. -/
def listPlanned (plan : Plan) (paths : List String) : Job Nat := do
  let session ← get
  let run : Run Walk := { session, source := plan.source Walk.walker }
  let (answer, run) := (Run.list plan (pathsOrDefault paths)).run.run run
  set run.session
  match answer with
  | .ok state => pure state.exitStatus
  | .error (.listing error) => if error.isFatal then settleFatal error else throw (.listing error)
  | .error abort => throw abort

/-- The outcome of a listing: its exit status unless it was given up, and the session afterwards. -/
structure Outcome where
  status : Except Abort Nat
  session : Session

/-- List paths in a world. -/
def listPaths (table : RendererTable) (world : World) (policy : PolicyKind) (paths : List String)
    (config : Config) : Except PlanError Outcome := do
  let plan ← Plan.ofConfig table config
  let (status, session) := (listPlanned plan paths).run.run (Session.fresh world policy)
  pure { status, session }

end DirList
