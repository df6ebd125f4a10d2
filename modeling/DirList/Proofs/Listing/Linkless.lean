import DirList.Proofs.Listing.Comparison
import DirList.Proofs.Walk.Linkless

/-!
# Listings where there are no links

What a listing does with links is chosen in its configuration: it lists them, or it follows them.
Where there are no links the choice is not to be seen, whatever calls fail, and although the walk of
the one listing makes other calls than the walk of the other.

Results:
1. `display_treating`: displaying entries does not depend on the choice.
2. `contents_treating`, `roots_treating`: and without links neither does what is read.
3. `stages_treating`: so the stages of the listing are the same.
4. `listPaths_linkless`: and the whole listing.
-/

namespace DirList

open FileSystem Walk

/-- The configuration with another choice of what is done with links. -/
def Config.treating (mode : Choice SymlinkMode) (config : Config) : Config :=
  { config with symlinkMode := mode }

/-- The plan with another choice of what is done with links. -/
def Plan.treating (mode : Choice SymlinkMode) (plan : Plan) : Plan :=
  { plan with
    config := plan.config.treating mode
    options := { plan.options with physical := mode = .known .physical } }

/-- The choice shows in the configuration of a plan and in its walk, and nowhere else. -/
theorem Plan.ofConfig_treating (table : RendererTable) (mode : Choice SymlinkMode)
    (config : Config) :
    ofConfig table (config.treating mode) = (ofConfig table config).map (treating mode) := by
  have problems : (config.treating mode).problems = config.problems := rfl
  have unsorted : (config.treating mode).unsorted = config.unsorted := rfl
  have order : (config.treating mode).listingOrder = config.listingOrder := rfl
  have select : table.select (config.treating mode) = table.select config := rfl
  unfold ofConfig
  rw [problems, unsorted, order, select]
  cases config.problems.isEmpty <;> cases config.unsorted <;> cases config.listingOrder <;>
    cases table.select config <;> rfl

/-! ## Displaying -/

section Displaying

variable (mode : Choice SymlinkMode)

theorem judgeAll_treating (config : Config) (parent : Option Entry) (entries : List Entry) :
    Descriptor.judgeAll (config.treating mode) parent entries =
      Descriptor.judgeAll config parent entries := by
  induction entries with
  | nil => rfl
  | cons entry rest ih =>
    rw [Descriptor.judgeAll, Descriptor.judgeAll, ih]
    rfl

theorem render_treating {config : Config} {renderer : Renderer}
    (standard : RendererTable.standard.select config = .ok renderer) (descriptor : Descriptor) :
    renderer.render (config.treating mode) descriptor = renderer.render config descriptor := by
  rcases select_cases standard with rfl | rfl | rfl | rfl | ⟨rfl, -⟩ <;> rfl

/-- What is displayed does not depend on what is done with links. -/
theorem display_treating {ω : Type} {plan : Plan}
    (standard : RendererTable.standard.select plan.config = .ok plan.renderer)
    (parent : Option Entry) (entries : Option (List Entry)) :
    Run.display (plan.treating mode) parent entries =
      (Run.display plan parent entries : Stride ω Unit) := by
  have renders : ∀ descriptor, (plan.treating mode).renderer.render (plan.treating mode).config
      descriptor = plan.renderer.render plan.config descriptor :=
    render_treating mode standard
  rw [Run.display_eq, Run.display_eq]
  change Run.job (Descriptor.judgeAll (plan.config.treating mode) parent _) >>= _ = _
  rw [judgeAll_treating]
  refine bind_congr fun judged => ?_
  cases judged with
  | error error => rfl
  | ok items =>
    simp only [Run.displayJudged, Run.writeBlock, Run.writeEntries, renders]
    rfl

end Displaying

/-! ## Reading and visiting -/

section Reading

variable {files : FileSystem} (static : files.IsStatic) (linkless : files.IsLinkless)
variable (mode : Choice SymlinkMode) (plan : Plan)
include static linkless

theorem contents_treating (namesOnly : Bool) (directory : Entry) :
    Recursion.contents files (plan.treating mode) namesOnly directory =
      Recursion.contents files plan namesOnly directory := by
  have same := (agrees_readDirectory_linkless static linkless plan.options
    (mode = .known .physical) namesOnly directory plan.comparator 0).answers.eq
  unfold Recursion.contents
  rw [← same]
  rfl

theorem roots_treating (paths : List String) :
    Recursion.roots files (plan.treating mode) paths = Recursion.roots files plan paths := by
  have same := (agrees_readRoots_linkless static linkless
    (plan.options.followRoots || plan.options.logical)
    (plan.options.followRoots || !(decide (mode = .known .physical))) 0 paths).answers.eq
  unfold Recursion.roots
  dsimp only
  rw [← same]
  rfl

/-- The stages of an entry do not depend on what is done with links. -/
theorem stagesOf_treating {entry : Entry} (grounded : entry.Grounded files) :
    Recursion.stagesOf files (plan.treating mode) entry = Recursion.stagesOf files plan entry := by
  induction rank : Walk.rank files entry using Nat.strong_induction_on generalizing entry with
  | _ level ih =>
    subst rank
    rw [Recursion.stagesOf_eq _ grounded, Recursion.stagesOf_eq _ grounded]
    cases kind : entry.kind with
    | directory =>
      dsimp only
      have passes : Recursion.isPassedOver (plan.treating mode).config entry =
        Recursion.isPassedOver plan.config entry := rfl
      have names : Recursion.namesOnly (plan.treating mode) = Recursion.namesOnly plan := rfl
      have recursive : (plan.treating mode).config.recursive = plan.config.recursive := rfl
      rw [passes, names, recursive, contents_treating static linkless]
      split
      · rfl
      cases given : Recursion.contents files plan (Recursion.namesOnly plan) entry with
      | error error => rfl
      | ok entries =>
        dsimp only
        split
        · refine congrArg _ (List.flatMap_congr fun child inside => ?_)
          obtain ⟨grounded', less⟩ := Recursion.contents_child grounded kind given child inside
          exact ih _ less grounded' rfl
        · rfl
    | _ => rfl

/-- Nor do the stages of a listing. -/
theorem stages_treating (paths : List String) :
    Recursion.stages files (plan.treating mode) paths = Recursion.stages files plan paths := by
  have flat : (plan.treating mode).config.listDirectory = plan.config.listDirectory := rfl
  unfold Recursion.stages
  rw [roots_treating static linkless, flat]
  split
  · rfl
  · exact congrArg _ (List.flatMap_congr fun root inside =>
      stagesOf_treating static linkless mode plan (Recursion.roots_grounded root inside))

end Reading

theorem performAll_treating {ω : Type} {plan : Plan} (mode : Choice SymlinkMode)
    (standard : RendererTable.standard.select plan.config = .ok plan.renderer)
    (stages : List Stage) :
    Stage.performAll (plan.treating mode) stages =
      (Stage.performAll plan stages : Stride ω Unit) := by
  induction stages with
  | nil => rfl
  | cons stage stages ih =>
    rw [Stage.performAll_cons, Stage.performAll_cons, ih]
    cases stage with
    | report error => rfl
    | display parent entries => rw [Stage.perform, Stage.perform, display_treating mode standard]

/-! ## Listings -/

/-- Where there are no links it makes no difference whether they are listed or followed: the text,
the errors, the names that were asked for and the exit status are the same, under every policy and
whatever calls fail, as long as nobody interrupts the listing. -/
theorem listPaths_linkless {config : Config} {world : World} (kind : PolicyKind)
    (paths : List String) (static : world.files.IsStatic) (calm : world.files.IsCalm)
    (linkless : world.files.IsLinkless) (accepted : config.problems = []) :
    ∃ outcome,
      listPaths .standard world kind paths (config.treating (.known .physical)) = .ok outcome ∧
      listPaths .standard world kind paths (config.treating (.known .logical)) = .ok outcome := by
  obtain ⟨plan, planned⟩ := Plan.exists_of_accepted accepted
  have standard := Plan.select_of_planned planned
  have treats : ∀ mode, listPaths .standard world kind paths (config.treating mode) =
      .ok ⟨((listPlanned plan paths).run.run (Session.fresh world kind)).1,
        ((listPlanned plan paths).run.run (Session.fresh world kind)).2⟩ := by
    intro mode
    have planned' : Plan.ofConfig .standard (config.treating mode) = .ok (plan.treating mode) := by
      rw [Plan.ofConfig_treating, planned]
      rfl
    have stages : Stage.performAll (plan.treating mode)
        (Recursion.stages world.files (plan.treating mode) (pathsOrDefault paths)) =
          (Stage.performAll plan (Recursion.stages world.files plan (pathsOrDefault paths)) :
            Stride Walk Unit) := by
      rw [stages_treating static linkless]
      exact performAll_treating mode standard _
    obtain ⟨kept, same⟩ := run_listPlanned_among plan (plan.treating mode) static calm static calm
      (linksAlike_refl static calm) standard (Plan.select_of_planned planned') rfl rfl
      (fun _ => stages) (rfl : (Session.fresh world kind).world.files = world.files)
    have still : ((listPlanned plan paths).run.run (Session.fresh world kind)).2.among world.files =
        ((listPlanned plan paths).run.run (Session.fresh world kind)).2 := by
      rw [← kept, Session.among_self]
    rw [still] at same
    have ran : (listPlanned (plan.treating mode) paths).run.run (Session.fresh world kind) = _ :=
      same
    rw [listPaths_of_planned world kind paths planned', ran]
  exact ⟨_, treats _, treats _⟩

/-! ## A sample -/

/-- A directory `d` with a file that shows no status, and a directory in which nothing is found. -/
def refusingWorld : World :=
  let refused : Schedule Fault := .always (.system (.coded 13))
  let directory := Client.sampleSketch .directory 0o040755
  let leaf := Client.sampleSketch .leaf 0o100644
  { (default : World) with
    files := .ofTree (.node "" directory [
      .node "d" directory [
        .node "a" { leaf with faults := { status := refused } } [],
        .node "e" { directory with faults := { lookup := refused } } [.node "x" leaf []],
        .node "f" leaf []]]) }

theorem isStatic_refusingWorld : refusingWorld.files.IsStatic := by
  intro node member operation
  revert node
  cases operation <;> decide +kernel

theorem isCalm_refusingWorld : refusingWorld.files.IsCalm := by
  intro node member operation
  revert node
  cases operation <;> decide +kernel

theorem isLinkless_refusingWorld : refusingWorld.files.IsLinkless :=
  isLinkless_of_nodes (by decide +kernel)

theorem run_refusingWorld :
    let config : Config := { recursive := true, classify := true }
    ∃ plan outcome, Plan.ofConfig .standard config = .ok plan ∧
      listPaths .standard refusingWorld .collect ["d"] config = .ok outcome ∧
      (outcome.status.toOption, outcome.session.output, outcome.session.policy.errors) =
        (some 1, "e/\nf\n", [.ofCode .node "a" 13, .ofCode .node "x" 13]) :=
  exists_of_observed (by decide +kernel)

/-- A listing that follows links comes to the same. -/
theorem listPaths_linkless_sample :
    ∃ outcome, listPaths .standard refusingWorld .collect ["d"]
        { recursive := true, classify := true, symlinkMode := .known .logical } = .ok outcome ∧
      outcome.session.output = "e/\nf\n" ∧
      outcome.session.policy.errors = [.ofCode .node "a" 13, .ofCode .node "x" 13] := by
  obtain ⟨plan, outcome, -, given, ran⟩ := run_refusingWorld
  obtain ⟨outcome', physical, logical⟩ := listPaths_linkless .collect ["d"] isStatic_refusingWorld
    isCalm_refusingWorld isLinkless_refusingWorld
    (by decide : ({ recursive := true, classify := true } : Config).problems = [])
  cases given.symm.trans physical
  exact ⟨_, logical, (Prod.mk.inj (Prod.mk.inj ran).2)⟩

end DirList
