import DirList.Proofs.Listing.Flat

/-!
# What stands above a section

The section of a directory stands under the path of the directory, unless nothing was written before
it and there is one root. That is right for the section of the root itself. A directory further
below comes first only if none of the directories above it has a section, for lack of memory.

Results:
1. `carries_heading`: nothing was written as long as no call has had anything to show.
2. `aborted_of_quiet`: a directory is reached through one without a section only if that was given
   up.
3. `section_headed`: what stands above a section.
-/

namespace DirList.Run

open FileSystem Walk

/-! ## Calls that write nothing -/

/-- The call had nothing to show, or it gave up. -/
def Quiet (plan : Plan) (call : Display Walk) : Prop :=
  ∃ answer session, Settles (Descriptor.collect plan.config call.parent call.entries)
    call.before.session answer session ∧ ∀ descriptor, answer ≠ .ok (some descriptor)

/-- The call gave up, as there was no memory to show one of the entries. -/
def Aborted (plan : Plan) (call : Display Walk) : Prop :=
  ∃ lost session, Settles (Descriptor.collect plan.config call.parent call.entries)
    call.before.session (.error (.allocation lost)) session

section Calls

variable {plan : Plan} {call : Display Walk} {run run' : Run Walk} {parent : Option Entry}
  {entries : Option (List Entry)} {descriptor : Descriptor}

theorem hasOutput_of_writeBlock
    (settles : Settles (writeBlock plan parent descriptor) run () run') :
    run'.state.hasOutput = true := by
  have rest : ∀ {run : Run Walk}, Settles (writeEntries plan parent descriptor) run () run' →
      run'.state.hasOutput = true := by
    intro run settles
    obtain ⟨_, _, -, settles⟩ := Settles.of_bind settles
    cases settles
    rfl
  cases parent with
  | none => exact rest settles
  | some directory =>
    obtain ⟨_, _, -, settles⟩ := Settles.of_bind settles
    obtain ⟨_, _, -, settles⟩ := Settles.of_bind settles
    exact rest settles

/-- A call after which nothing was written was quiet. -/
theorem quiet_of_display (settles : Settles (display plan parent entries) run () run')
    (nothing : run'.state.hasOutput = false) : Quiet plan ⟨parent, entries, run⟩ := by
  unfold Settles at settles
  rw [run_display] at settles
  rcases collected : (Descriptor.collect plan.config parent entries).run.run run.session with
    ⟨abort | error | _ | descriptor, session⟩
  · rw [collected] at settles
    cases settles
  · exact ⟨.error error, session, collected, fun _ no => nomatch no⟩
  · exact ⟨.ok none, session, collected, fun _ no => nomatch no⟩
  · rw [collected] at settles
    cases nothing.symm.trans (hasOutput_of_writeBlock settles)

theorem text_of_quiet (standard : RendererTable.standard.select plan.config = .ok plan.renderer)
    (quiet : Quiet plan call) : call.text plan = "" := by
  obtain ⟨answer, session, collected, none⟩ := quiet
  refine (text_cases standard call).resolve_right fun ⟨descriptor, _, _, collected', _⟩ => ?_
  exact none descriptor (collected.unique collected').1

end Calls

/-! ## What a run knows of what it has written -/

/-- `Tells plan count log state`: the run has `count` roots, and if it has written nothing then the
calls so far were quiet. -/
structure Tells (plan : Plan) (count : Nat) (log : List (Display Walk)) (state : RunState) :
    Prop where
  rootCount : state.rootCount = count
  quiet : state.hasOutput = false → ∀ earlier ∈ log, Quiet plan earlier

/-- `Heading base plan count fuel log run`: a run that follows its walk knows what it has
written. -/
def Heading (base : FileSystem) (plan : Plan) (count : Nat) (_ : Nat) (log : List (Display Walk))
    (run : Run Walk) : Prop :=
  ∃ used walk, Follows base plan used walk run ∧ Tells plan count log run.state

section Turns

variable {base : FileSystem} {plan : Plan} {count : Nat} {log : List (Display Walk)}
  {run run' : Run Walk}

theorem Tells.goes {state state' : RunState} (tells : Tells plan count log state)
    (goes : Goes state state') : Tells plan count log state' := by
  refine ⟨goes.rootCount.trans tells.rootCount, fun nothing => tells.quiet ?_⟩
  exact Bool.eq_false_iff.mpr fun some => by
    rw [goes.hasOutput some] at nothing
    cases nothing

/-- A call that writes is known to have written. -/
theorem Tells.display {parent : Option Entry} {entries : Option (List Entry)}
    (tells : Tells plan count log run.state) (goes : Goes run.state run'.state)
    (settles : Settles (Run.display plan parent entries) run () run') :
    Tells plan count (log ++ [⟨parent, entries, run⟩]) run'.state := by
  obtain ⟨rootCount, quiet⟩ := tells.goes goes
  refine ⟨rootCount, fun nothing earlier member => ?_⟩
  rcases List.mem_append.mp member with before | now
  · exact quiet nothing earlier before
  · cases List.mem_singleton.mp now
    exact quiet_of_display settles nothing

section Standard

variable (standard : RendererTable.standard.select plan.config = .ok plan.renderer)

include standard

/-- As long as nothing was written, no call has had anything to show. -/
theorem carries_heading :
    Carries plan (Recursion.namesOnly plan) (Heading base plan count)
      fun log call => Tells plan count log call.before.state := by
  rintro fuel log run event run₁ ⟨used, walk, follows, tells⟩ reads
  obtain ⟨walk₁, looks, reads', follows₁⟩ := follows.read reads
  rw [← looks.state] at tells
  refine ⟨fun call member => ?_, fun run₂ reacts => ?_⟩
  · obtain ⟨-, -, _, _, listed, rfl⟩ := of_mem_displaysAt member
    obtain ⟨_, looks', -⟩ := follows₁.children listed
    rwa [← looks'.state] at tells
  obtain ⟨walk₂, reacts', follows₂⟩ := follows₁.reacts standard reads'.current reacts
  refine ⟨_, walk₂, follows₂, ?_⟩
  generalize displaysAt plan (Recursion.namesOnly plan) event run₁ = calls at reacts'
  cases reacts' with
  | ignore _ extends_ =>
    rw [List.append_nil]
    exact tells.goes extends_.state
  | pass _ _ looks' =>
    rw [List.append_nil, looks'.state]
    exact tells
  | enter _ _ looks' _ displays extends_ looks'' =>
    rw [← looks'.state] at tells
    rw [looks''.state]
    exact tells.display extends_.state displays

theorem tells_of_displays {world : World} {kind : PolicyKind} {paths : List String}
    {before after : List (Display Walk)} {call : Display Walk}
    (split : displays plan world kind paths = before ++ call :: after) :
    Tells plan (pathsOrDefault paths).length before call.before.state := by
  have carries : Carries plan (Recursion.namesOnly plan)
      (Heading world.files plan (pathsOrDefault paths).length) _ := carries_heading standard
  refine list_displays (begins_of_roots standard fun {walk run₁} _ _ _ looks => ?_) carries split
  have tells : Tells plan (pathsOrDefault paths).length [] run₁.state := by
    rw [looks.state]
    exact ⟨rfl, fun _ => List.forall_mem_nil _⟩
  exact ⟨tells, fun displays extends_ follows => ⟨_, walk, follows,
    tells.display extends_.state displays⟩⟩

end Standard
end Turns

/-! ## Sections -/

section Sections

variable {config : Config} {plan : Plan} {world : World} {kind : PolicyKind} {paths : List String}
  {before after log : List (Display Walk)} {call : Display Walk} {base : FileSystem}
  {directory : Entry}

/-- A directory that is displayed is one of those that are to be shown of the directory above. -/
theorem Entered.isShown {up : Entry} (entered : Entered base plan log directory)
    (above : Entered base plan log up) (child : up.IsChildOf directory) :
    Recursion.isShown plan.config (some up) directory = true := by
  have below : directory.isRoot = false := by
    have level := child.level
    rw [above.grounded.level] at level
    unfold Entry.isRoot
    exact decide_eq_false (by omega)
  have shown := entered.shown
  unfold Recursion.isPassedOver at shown
  rw [below] at shown
  unfold Recursion.isShown Recursion.isLost Descriptor.isSelected
  rw [entered.kind]
  simpa [imp_iff_not_or] using shown

/-- If nothing was shown so far, a directory was reached through directories that were given up. -/
theorem aborted_of_quiet (static : base.IsStatic) (entered : Entered base plan log directory)
    (visited : ∀ call ∈ log, IsEntered base plan log call) (quiet : ∀ call ∈ log, Quiet plan call) :
    ∀ above ∈ directory.ancestors, ∃ call ∈ log, ∃ up, call.parent = some up ∧
      up.asAncestor = above ∧ Aborted plan call := by
  have reached := entered.reached
  induction reached with
  | root _ _ _ _ none =>
    rw [none]
    exact List.forall_mem_nil _
  | recover _ _ _ _ recovers => exact absurd recovers (static.not_recovers _)
  | @descend call up entry entries member parent _ _ listed inside child ih =>
    have above := visited call member up parent
    rw [child.ancestors]
    refine List.forall_mem_cons.mpr ⟨⟨call, member, up, parent, rfl, ?_⟩, ih above⟩
    obtain ⟨answer, session, collected, none⟩ := quiet call member
    have known := collect_cases collected
    rw [parent, listed] at known
    cases known with
    | nothing empty =>
      have shown := List.mem_filter.mpr ⟨inside, entered.isShown above child⟩
      exact absurd empty (List.ne_nil_of_mem shown)
    | measured => exact absurd rfl (none _)
    | aborted => exact ⟨_, session, collected⟩

/-- The calls before a call have shown the directories above it. -/
theorem entered_of_mem (planned : Plan.ofConfig .standard config = .ok plan)
    (split : displays plan world kind paths = before ++ call :: after)
    {earlier : Display Walk} (member : earlier ∈ before) :
    IsEntered world.files plan before earlier := by
  obtain ⟨first, between, rfl⟩ := List.append_of_mem member
  rw [List.append_assoc, List.cons_append] at split
  exact fun directory parent => (entered_of_planned planned split directory parent).later _

end Sections

/-! ## A directory without memory -/

/-- A world without memory for the owner of a file `a`, which is in a directory `d` next to a
directory `s`. -/
def exhausted : World :=
  let leaf := Client.sampleSketch .leaf 0o100644
  { (default : World) with
    files := .ofTree (.node "" (Client.sampleSketch .directory 0o040755) [
      .node "d" (Client.sampleSketch .directory 0o040755) [
        .node "a" { leaf with status := { leaf.status with owner := 7 } } [],
        .node "s" (Client.sampleSketch .directory 0o040755) [sampleFile]]])
    owners := { exhausting := [(7, .always ())] } }

/-- Everything is listed, with owners. -/
def thorough : Config :=
  { displayMode := DisplayMode.long, recursive := true }

theorem faults_exhausted : ∀ node ∈ exhausted.files.nodes, node.faults = {} := by
  decide +kernel

/-- The run gives up `d`, and lists `s` all the same. -/
theorem run_exhausted :
    ∃ plan outcome, Plan.ofConfig .standard thorough = .ok plan ∧
      listPaths .standard exhausted .collect ["d"] thorough = .ok outcome ∧
      (displays plan exhausted .collect ["d"]).map (fun call =>
        (call.parent.map fun directory => (directory.path, directory.level), call.text plan)) =
      [(none, ""), (some ("d", 0), ""),
        (some ("d/s", 1), "total 0\n-rw-r--r--  0 0  0  0 Jan  1 00:00 x\n")] :=
  exists_of_observed (by decide +kernel)

/-! ## Listings -/

/-- A listing writes its sections one after another. Each of them stands under its path, unless it
is the first and there is one root. Then it is the section of the root, or all directories above it
were given up for lack of memory. -/
theorem section_headed {config : Config} {plan : Plan} {world : World} {kind : PolicyKind}
    {paths : List String} {outcome : Outcome} (static : world.files.IsStatic)
    (planned : Plan.ofConfig .standard config = .ok plan)
    (given : listPaths .standard world kind paths config = .ok outcome) :
    outcome.session.output = texts plan (displays plan world kind paths) ∧
    ∀ before call after directory, displays plan world kind paths = before ++ call :: after →
      call.parent = some directory → call.text plan ≠ "" →
      (∃ rest, call.text plan = directory.path ++ ":\n" ++ rest ∨
        call.text plan = "\n" ++ directory.path ++ ":\n" ++ rest) ∨
      (pathsOrDefault paths).length = 1 ∧ (∀ earlier ∈ before, earlier.text plan = "") ∧
        ∀ above ∈ directory.ancestors, ∃ earlier ∈ before, ∃ up, earlier.parent = some up ∧
          up.asAncestor = above ∧ Aborted plan earlier := by
  refine ⟨listPaths_output planned given, ?_⟩
  intro before call after directory split parent printed
  have standard := Plan.select_of_planned planned
  obtain ⟨_, _, rest, -, text⟩ := (text_cases standard call).resolve_left printed
  obtain ⟨count, quiet⟩ := tells_of_displays standard split
  rw [Display.heading, parent, Option.elim_some, header, count] at text
  cases hasOutput : call.before.state.hasOutput with
  | true =>
    rw [hasOutput, if_pos rfl] at text
    exact .inl ⟨rest, .inr text⟩
  | false =>
    rw [hasOutput, if_neg Bool.false_ne_true] at text
    by_cases several : 1 < (pathsOrDefault paths).length
    · rw [if_pos several] at text
      exact .inl ⟨rest, .inl text⟩
    right
    have some : 0 < (pathsOrDefault paths).length := by
      unfold pathsOrDefault
      split
      · exact Nat.one_pos
      next full => exact List.length_pos_iff.mpr fun none => full (List.isEmpty_iff.mpr none)
    refine ⟨by omega, fun earlier member => ?_, ?_⟩
    · exact text_of_quiet standard (quiet hasOutput earlier member)
    · exact aborted_of_quiet static (entered_of_planned planned split directory parent)
        (fun earlier member => entered_of_mem planned split member) (quiet hasOutput)

/-- The section of `s` has no heading, so a directory above it was given up. -/
theorem section_headed_sample :
    ∃ plan, ∃ call ∈ displays plan exhausted .collect ["d"], Aborted plan call := by
  obtain ⟨plan, outcome, planned, given, displayed⟩ := run_exhausted
  obtain ⟨call, member, directory, parent, which, text⟩ :=
    exists_of_seen displayed (.tail _ (.tail _ (.head _)))
  obtain ⟨path, level⟩ := Prod.mk.inj which
  obtain ⟨before, after, split⟩ := List.append_of_mem member
  have printed : call.text plan ≠ "" := by
    rw [text]
    decide
  have static := isStatic_of_faults faults_exhausted
  have headed :=
    (section_headed static planned given).2 before call after directory split parent printed
  rw [text, path] at headed
  rcases headed with ⟨rest, first | later⟩ | ⟨-, -, aborted⟩
  · have heads := congrArg (fun text => text.toList.head?) first
    simp at heads
  · have heads := congrArg (fun text => text.toList.head?) later
    simp at heads
  · have depth := (entered_of_planned planned split directory parent).grounded.level
    rw [level] at depth
    cases ancestors : directory.ancestors with
    | nil =>
      rw [ancestors] at depth
      cases depth
    | cons nearest _ =>
      obtain ⟨earlier, before', _, -, -, given⟩ := aborted nearest (ancestors ▸ List.mem_cons_self)
      exact ⟨plan, earlier, split ▸ List.mem_append_left _ before', given⟩

/-- The section of a directory below the root has no heading. -/
theorem exists_section_unheaded :
    ∃ plan outcome, Plan.ofConfig .standard thorough = .ok plan ∧
      listPaths .standard exhausted .collect ["d"] thorough = .ok outcome ∧
      ∃ call ∈ displays plan exhausted .collect ["d"], ∃ directory,
        call.parent = some directory ∧ directory.path = "d/s" ∧ directory.level = 1 ∧
        call.text plan = "total 0\n-rw-r--r--  0 0  0  0 Jan  1 00:00 x\n" := by
  obtain ⟨plan, outcome, planned, given, displayed⟩ := run_exhausted
  obtain ⟨call, member, directory, parent, which, text⟩ :=
    exists_of_seen displayed (.tail _ (.tail _ (.head _)))
  obtain ⟨path, level⟩ := Prod.mk.inj which
  exact ⟨plan, outcome, planned, given, call, member, directory, parent, path, level, text⟩

end DirList.Run
