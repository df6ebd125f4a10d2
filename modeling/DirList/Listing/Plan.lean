import DirList.Layout.Renderer
import DirList.Walk.Source

/-!
# Plans

A plan is a configuration that was found consistent, with what follows from it: the walk, the order
and the renderer.
-/

namespace DirList

structure Plan where
  config : Config
  options : WalkOptions
  /-- The order of the entries, or nothing to keep the order of directories. -/
  order : Option ListingOrder
  renderer : Renderer

/-- Why there is no plan for a configuration. -/
inductive PlanError where
  | inconsistent (problems : List Config.Problem)
  | unknownSortKey (text : String)
  | unknownDisplayMode (complaint : String)
deriving DecidableEq, Repr

namespace PlanError

/-- The complaint about a text that is no sort key. -/
def sortKeyComplaint (text : String) : String :=
  "Unknown sort key: " ++ quoted text

def message : PlanError → String
  | inconsistent problems =>
    "Invalid configuration: " ++ "; ".intercalate (problems.map Config.Problem.message)
  | unknownSortKey text => sortKeyComplaint text
  | unknownDisplayMode complaint => complaint

end PlanError

namespace Plan

/-- The plan of a configuration. -/
def ofConfig (table : RendererTable) (config : Config) : Except PlanError Plan :=
  if !config.problems.isEmpty then .error (.inconsistent config.problems)
  else do
    let order ←
      if config.unsorted then pure none
      else
        match config.listingOrder with
        | .ok order => pure (some order)
        | .error text => throw (.unknownSortKey text)
    let renderer ←
      match table.select config with
      | .ok renderer => pure renderer
      | .error complaint => throw (.unknownDisplayMode complaint)
    pure { config, options := config.walkOptions, order, renderer }

/-- The comparator of a plan. -/
def comparator (plan : Plan) : Option Comparator :=
  plan.order.map .listing

/-- A source of events for one run. -/
def source {ω : Type} (plan : Plan) (walker : Walker ω) : Source ω where
  walker := walker
  options := plan.options
  comparator := plan.comparator

/-- What a plan says of itself. -/
structure Summary where
  displayMode : String
  sortKey : Option String
  reverse : Bool
  recursive : Bool
  listDirectory : Bool
  needsStatus : Bool
  skipStatus : Bool
  followRoots : Bool
  physical : Bool
  renderer : String
  comparator : String
  policy : String
deriving DecidableEq, Repr

def summary (plan : Plan) (policy : PolicyKind) : Summary where
  displayMode := plan.config.displayMode.text DisplayMode.word
  sortKey := if plan.config.unsorted then none else some (plan.config.sortKey.text SortKey.word)
  reverse := plan.config.reverse
  recursive := plan.config.recursive
  listDirectory := plan.config.listDirectory
  needsStatus := plan.config.needsStatus
  skipStatus := plan.options.skipStatus
  followRoots := plan.options.followRoots
  physical := plan.options.physical
  renderer := plan.renderer.label
  comparator := (plan.order.map ListingOrder.description).getD "None"
  policy := policy.label

end Plan
end DirList
