import DirList.Proofs.Listing.Reaching

/-!
# Listings that are not recursive

A listing that is not recursive keeps its walk out of each directory that it has shown. It does so
only if there was something to show: where a directory could not be listed, the walk tries again,
and in a file system that changes in between it gets in.

Results:
1. `flat_displays`: below the roots, only directories are displayed that are below directories which
   recover.
2. `level_of_flat_static`: so in a file system that does not change, only roots are displayed.
3. `flat_listing`: a listing writes what it displays, and nothing else.
-/

namespace DirList.Run

open FileSystem

variable {config : Config} {plan : Plan} {world : World} {kind : PolicyKind} {paths : List String}
  {outcome : Outcome} {before after : List (Display Walk)} {call : Display Walk}
  {directory : Entry}

/-- Each directory above one that is displayed could not be listed when it was displayed itself, and
recovers. -/
theorem flat_displays (planned : Plan.ofConfig .standard config = .ok plan)
    (flat : config.recursive = false)
    (split : displays plan world kind paths = before ++ call :: after)
    (parent : call.parent = some directory) :
    ∀ above ∈ directory.ancestors, ∃ earlier ∈ before, ∃ up, earlier.parent = some up ∧
      up.asAncestor = above ∧ earlier.entries = none ∧ world.files.Recovers up.accessPath := by
  obtain ⟨same, -⟩ := Plan.ofConfig_eq_ok planned
  refine (entered_of_planned planned split directory parent).reached.above ?_
  rw [same]
  exact flat

/-- In a file system that does not change, only roots are displayed. -/
theorem level_of_flat_static (static : world.files.IsStatic)
    (planned : Plan.ofConfig .standard config = .ok plan) (flat : config.recursive = false)
    (member : call ∈ displays plan world kind paths) (parent : call.parent = some directory) :
    directory.level = 0 := by
  obtain ⟨before, after, split⟩ := List.append_of_mem member
  rw [(entered_of_planned planned split directory parent).grounded.level]
  have above := flat_displays planned flat split parent
  cases ancestors : directory.ancestors with
  | nil => rfl
  | cons nearest _ =>
    rw [ancestors] at above
    obtain ⟨_, -, up, -, -, -, recovers⟩ := above nearest List.mem_cons_self
    exact absurd recovers (static.not_recovers up.accessPath)

/-! ## A directory that recovers -/

/-- A world with a directory `d` whose first scan is refused. -/
def refusedOnce (entries : List Tree) : World :=
  let refused : Schedule Fault := ⟨some (.system (.coded 13)), [none]⟩
  { (default : World) with
    files := .ofTree (.node "" (Walk.Client.sampleSketch .directory 0o040755) [
      .node "d" { Walk.Client.sampleSketch .directory 0o040755 with faults := { scan := refused } }
        entries]) }

/-- A file `x`. -/
def sampleFile : Tree :=
  .node "x" (Walk.Client.sampleSketch .leaf 0o100644) []

/-- A file below a directory below a directory whose first scan is refused. -/
def refusedAbove : World :=
  refusedOnce [.node "e" (Walk.Client.sampleSketch .directory 0o040755) [sampleFile]]

/-- The walk gets into the directory at its second try. -/
theorem run_refusedAbove :
    ∃ plan outcome, Plan.ofConfig .standard {} = .ok plan ∧
      listPaths .standard refusedAbove .collect ["d"] {} = .ok outcome ∧
      (outcome.status.toOption, outcome.session.policy.errors,
        (displays plan refusedAbove .collect ["d"]).map fun call =>
          (call.parent.map Entry.level, call.text plan)) =
      (some 0, [], [(none, ""), (some 0, ""), (some 1, "x\n")]) :=
  exists_of_observed (by decide +kernel)

/-! ## Listings -/

/-- A listing that is not recursive writes what it displays: the roots, the directories among them,
and below them only directories that it came to through directories which recover. -/
theorem flat_listing (planned : Plan.ofConfig .standard config = .ok plan)
    (flat : config.recursive = false)
    (given : listPaths .standard world kind paths config = .ok outcome) :
    outcome.session.output = texts plan (displays plan world kind paths) ∧
    ∀ before call after directory, displays plan world kind paths = before ++ call :: after →
      call.parent = some directory → directory.level = directory.ancestors.length ∧
        ∀ above ∈ directory.ancestors, ∃ earlier ∈ before, ∃ up, earlier.parent = some up ∧
          up.asAncestor = above ∧ earlier.entries = none ∧ world.files.Recovers up.accessPath :=
  ⟨listPaths_output planned given, fun _ _ _ directory split parent =>
    ⟨(entered_of_planned planned split directory parent).grounded.level,
      flat_displays planned flat split parent⟩⟩

/-- A directory below the root is displayed, so the directory above it recovers. -/
theorem flat_listing_sample : ∃ up : Entry, refusedAbove.files.Recovers up.accessPath := by
  obtain ⟨plan, outcome, planned, given, ran⟩ := run_refusedAbove
  obtain ⟨-, ran⟩ := Prod.mk.inj ran
  obtain ⟨-, displayed⟩ := Prod.mk.inj ran
  obtain ⟨call, member, directory, parent, level, -⟩ :=
    exists_of_seen displayed (.tail _ (.tail _ (.head _)))
  obtain ⟨before, after, split⟩ := List.append_of_mem member
  obtain ⟨depth, above⟩ :=
    (flat_listing planned rfl given).2 before call after directory split parent
  cases ancestors : directory.ancestors with
  | nil =>
    rw [level, ancestors] at depth
    cases depth
  | cons nearest _ =>
    obtain ⟨_, -, up, -, -, -, recovers⟩ := above nearest (ancestors ▸ List.mem_cons_self)
    exact ⟨up, recovers⟩

/-- A directory below the root has a section, and the listing succeeds. -/
theorem exists_section_below :
    ∃ plan outcome, Plan.ofConfig .standard {} = .ok plan ∧
      listPaths .standard refusedAbove .collect ["d"] {} = .ok outcome ∧
      outcome.status = .ok 0 ∧ outcome.session.policy.errors = [] ∧
      ∃ call ∈ displays plan refusedAbove .collect ["d"], ∃ directory,
        call.parent = some directory ∧ directory.level = 1 ∧ call.text plan = "x\n" := by
  obtain ⟨plan, outcome, planned, given, ran⟩ := run_refusedAbove
  obtain ⟨status, ran⟩ := Prod.mk.inj ran
  obtain ⟨errors, displayed⟩ := Prod.mk.inj ran
  exact ⟨plan, outcome, planned, given, ok_of_toOption status, errors,
    exists_of_seen displayed (.tail _ (.tail _ (.head _)))⟩

end DirList.Run
