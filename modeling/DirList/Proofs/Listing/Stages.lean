import DirList.Proofs.Listing.Transfer

/-!
# The stages of a listing

A listing goes on in stages: it displays its roots, then the entries of one directory after another,
and it reports errors in between. What the stages are follows from the file system alone; what comes
of them depends on the policy and on what was asked before.

Results:
1. `display_unnumbered`: displaying entries does not depend on their numbers.
2. `stagesOf_eq`: what the stages of an entry are.
3. `forall_mem_stagesOf`: what holds of reports and of directories that were read holds of all
   stages.
4. `visit_eq`: the acts of a visit are the acts of its stages.
-/

namespace DirList

open FileSystem

/-- One stage of a listing. -/
inductive Stage where
  /-- To hand an error to the policy. -/
  | report (error : ListingError)
  /-- To display the entries of a directory, or the roots where there is none. -/
  | display (parent : Option Entry) (entries : List Entry)

namespace Stage

/-- The acts that a stage consists of. -/
def acts (config : Config) : Stage → List Act
  | report error => [.report error]
  | display parent entries => Recursion.showing config parent entries

/-- To go through a stage. -/
def perform {ω : Type} (plan : Plan) : Stage → Stride ω Unit
  | report error => Run.report error
  | display parent entries => Run.display plan parent (some entries)

/-- To go through stages one after another. -/
def performAll {ω : Type} (plan : Plan) (stages : List Stage) : Stride ω Unit :=
  stages.forM (perform plan)

theorem performAll_cons {ω : Type} (plan : Plan) (stage : Stage) (stages : List Stage) :
    performAll plan (stage :: stages) =
      (perform plan stage >>= fun _ => performAll plan stages : Stride ω Unit) :=
  rfl

/-- The links among the entries of a stage read alike in both file systems. -/
def LinksAlike (files files' : FileSystem) : Stage → Prop
  | report _ => True
  | display _ entries => ∀ entry ∈ entries, files.LinkAlike files' entry.accessPath

theorem linksAlike {files files' : FileSystem} (links : files.LinksAlike files') (stage : Stage) :
    stage.LinksAlike files files' := by
  cases stage with
  | report _ => trivial
  | display _ _ => exact fun entry _ => links entry.accessPath

/-- Going through stages does the same among other files where the links in the stages read
alike. -/
theorem transfers_performAll_of_links {ω : Type} {files files' : FileSystem} {plan : Plan}
    (standard : RendererTable.standard.select plan.config = .ok plan.renderer) {stages : List Stage}
    (links : ∀ stage ∈ stages, stage.LinksAlike files files') :
    Run.Transfers files files' (performAll plan stages : Stride ω Unit) := by
  intro source
  induction stages with
  | nil => exact .pure ()
  | cons stage stages ih =>
    obtain ⟨first, others⟩ := List.forall_mem_cons.mp links
    refine Commutes.bind ?_ fun _ => ih others
    cases stage with
    | report error => exact Run.transfers_report error source
    | display parent entries =>
      have links : ∀ entry ∈ (some entries).getD [], files.LinkAlike files' entry.accessPath :=
        first
      exact Run.transfers_display_of_links standard parent links source

/-- Going through stages does the same among other files whose links read alike. -/
theorem transfers_performAll {ω : Type} {files files' : FileSystem} {plan : Plan}
    (links : files.LinksAlike files')
    (standard : RendererTable.standard.select plan.config = .ok plan.renderer)
    (stages : List Stage) :
    Run.Transfers files files' (performAll plan stages : Stride ω Unit) :=
  transfers_performAll_of_links standard fun stage _ => linksAlike links stage

end Stage

/-! ## Displaying without numbers -/

section Numbers

variable {config : Config}

theorem judge_unnumbered (parent : Option Entry) (entry : Entry) :
    Descriptor.judge config (parent.map Entry.unnumbered) entry.unnumbered =
      Except.map Item.unnumbered <$> Descriptor.judge config parent entry := by
  have selected : Descriptor.isSelected config (parent.map Entry.unnumbered) entry.unnumbered =
      Descriptor.isSelected config parent entry := by
    cases parent <;> rfl
  unfold Descriptor.judge
  rw [selected]
  change (if entry.kind = .error ∨ entry.kind = .noStatus then _ else _) = _
  split
  · rw [map_bind]
    rfl
  split
  · rfl
  have status : entry.unnumbered.status = entry.status := rfl
  rw [status]
  cases entry.status with
  | none => rfl
  | some status =>
    dsimp only
    split
    on_goal 1 =>
      rw [map_bind]
      refine bind_congr fun _ => ?_
    -- After the check of the block size, or without it, names are asked for.
    all_goals
      split
      · rw [map_bind]
        refine bind_congr fun names => ?_
        cases names <;> rfl
      · rfl

theorem judgeAll_unnumbered (parent : Option Entry) (entries : List Entry) :
    Descriptor.judgeAll config (parent.map Entry.unnumbered) (entries.map Entry.unnumbered) =
      Except.map (List.map Item.unnumbered) <$> Descriptor.judgeAll config parent entries := by
  induction entries with
  | nil => rfl
  | cons entry rest ih =>
    rw [List.map_cons, Descriptor.judgeAll, Descriptor.judgeAll, judge_unnumbered, ih, map_bind,
      bind_map_left]
    refine bind_congr fun judged => ?_
    cases judged with
    | error error => rfl
    | ok item =>
      change (Except.map (List.map Item.unnumbered) <$> _ >>= _) = _
      rw [bind_map_left, map_bind]
      refine bind_congr fun items => ?_
      cases items <;> rfl

end Numbers

namespace Run

variable {ω : Type} {plan : Plan}

theorem job_map_bind {α β γ : Type} (f : α → β) (work : Job α) (next : β → Stride ω γ) :
    job (f <$> work) >>= next = job work >>= fun answer => next (f answer) := by
  refine ExceptT.ext (StateT.ext fun run => ?_)
  rw [run_bind, run_bind, run_job, run_job, map_eq_pure_bind, run_bind]
  rcases work.run.run run.session with ⟨_ | _, _⟩ <;> rfl

/-- What is displayed once the entries are judged. -/
def displayJudged (plan : Plan) (parent : Option Entry) :
    Except ListingError (List Item) → Stride ω Unit
  | .error error => do
    job Job.release
    report error
  | .ok items =>
    if (Descriptor.visibleItems items).isEmpty then pure ()
    else if plan.config.needsStatus && plan.config.blockSize = 0 then throw .emptyBlocks
    else writeBlock plan parent (Descriptor.measure plan.config parent items)

/-- To display entries is to judge them and to display what was judged. -/
theorem display_eq (plan : Plan) (parent : Option Entry) (entries : Option (List Entry)) :
    display plan parent entries =
      (job (Descriptor.judgeAll plan.config parent (entries.getD [])) >>=
        displayJudged plan parent : Stride ω Unit) := by
  refine ExceptT.ext (StateT.ext fun run => ?_)
  rw [run_display, run_bind, run_job]
  unfold Descriptor.collect
  rw [run_bind]
  rcases (Descriptor.judgeAll plan.config parent (entries.getD [])).run.run run.session with
    ⟨_ | _ | items, session⟩
  · rfl
  · rfl
  dsimp only [displayJudged]
  by_cases nothing : (Descriptor.visibleItems items).isEmpty = true
  · rw [if_pos nothing, if_pos nothing]
    rfl
  rw [if_neg nothing, if_neg nothing]
  by_cases unsized : (plan.config.needsStatus && plan.config.blockSize = 0) = true
  · rw [if_pos unsized, if_pos unsized]
    rfl
  · rw [if_neg unsized, if_neg unsized]
    rfl

/-- Displaying entries does not depend on their numbers. -/
theorem display_unnumbered
    (standard : RendererTable.standard.select plan.config = .ok plan.renderer)
    (parent : Option Entry) (entries : List Entry) :
    display plan (parent.map Entry.unnumbered) (some (entries.map Entry.unnumbered)) =
      (display plan parent (some entries) : Stride ω Unit) := by
  have visible : ∀ items : List Item, Descriptor.visibleItems (items.map Item.unnumbered) =
      (Descriptor.visibleItems items).map Item.unnumbered :=
    fun items => List.filter_map
  have root : (parent.map Entry.unnumbered).isNone = parent.isNone := by
    cases parent <;> rfl
  have same : ∀ judged, displayJudged plan (parent.map Entry.unnumbered)
      (judged.map (List.map Item.unnumbered)) =
        (displayJudged plan parent judged : Stride ω Unit) := by
    intro judged
    cases judged with
    | error error => rfl
    | ok items =>
      have alike : Descriptor.Alike (Descriptor.measure plan.config parent items)
          (Descriptor.measure plan.config (parent.map Entry.unnumbered)
            (items.map Item.unnumbered)) :=
        Descriptor.alike_measure plan.config root (visible items)
      have writes := render_of_alike standard alike
      simp only [displayJudged, Except.map, visible, List.isEmpty_map, writeBlock, writeEntries,
        writes]
      cases parent <;> rfl
  rw [display_eq, display_eq, Option.getD_some, Option.getD_some, judgeAll_unnumbered,
    job_map_bind]
  exact bind_congr same

/-- Where nothing is listed, nothing is displayed. -/
theorem display_none (plan : Plan) (parent : Option Entry) :
    display plan parent none = (pure () : Stride ω Unit) := by
  rw [display_eq]
  rfl

end Run

/-! ## The stages of an entry -/

namespace Recursion

/-- The stages of visiting an entry. -/
def stagesAt (files : FileSystem) (plan : Plan) (entry : Entry) (grounded : entry.Grounded files) :
    List Stage :=
  match kind : entry.kind with
  | .cycle => [.report (.cycle entry.name)]
  | .directory =>
    if isPassedOver plan.config entry then []
    else
      match given : contents files plan (namesOnly plan) entry with
      | .error error => [.report (.ofCode .node entry.name error.codeOrZero)]
      | .ok entries =>
        .display (some entry) entries ::
          if plan.config.recursive then
            entries.attach.flatMap fun ⟨child, member⟩ =>
              stagesAt files plan child (contents_child grounded kind given child member).1
          else []
  | _ => []
termination_by Walk.rank files entry
decreasing_by exact (contents_child grounded kind given child member).2

open Classical in
/-- The stages of visiting an entry, if it was read in the file system. -/
noncomputable def stagesOf (files : FileSystem) (plan : Plan) (entry : Entry) : List Stage :=
  if grounded : entry.Grounded files then stagesAt files plan entry grounded else []

/-- The stages of listing paths. -/
noncomputable def stages (files : FileSystem) (plan : Plan) (paths : List String) : List Stage :=
  .display none (roots files plan paths) ::
    if plan.config.listDirectory then [] else (roots files plan paths).flatMap (stagesOf files plan)

section Stages

variable {files : FileSystem} {plan : Plan}

/-- To go through the entries of a list as such is to go through the list. -/
theorem flatMap_attach {α : Type} {entries : List Entry}
    {each : { entry // entry ∈ entries } → List α} {every : Entry → List α}
    (same : ∀ entry, each entry = every entry.1) :
    entries.attach.flatMap each = entries.flatMap every := by
  rw [List.flatMap_subtype fun entry member => same ⟨entry, member⟩, List.unattach_attach]

/-- What the stages of an entry are. -/
theorem stagesOf_eq (plan : Plan) {entry : Entry} (grounded : entry.Grounded files) :
    stagesOf files plan entry = match entry.kind with
      | .cycle => [.report (.cycle entry.name)]
      | .directory =>
        if isPassedOver plan.config entry then []
        else
          match contents files plan (namesOnly plan) entry with
          | .error error => [.report (.ofCode .node entry.name error.codeOrZero)]
          | .ok entries =>
            .display (some entry) entries ::
              if plan.config.recursive then entries.flatMap (stagesOf files plan) else []
      | _ => [] := by
  rw [stagesOf, dif_pos grounded]
  unfold stagesAt
  split
  next kind => simp only [kind]
  next kind =>
    conv_rhs => rw [kind]
    dsimp only
    split
    · rfl
    · split
      next given => simp only [given]
      next given =>
        conv_rhs => rw [given]
        dsimp only
        split
        · exact congrArg _ (flatMap_attach fun child => (dif_pos _).symm)
        · rfl
  next noCycle noDirectory =>
    split
    · contradiction
    · contradiction
    · rfl

/-- What holds of all reports and of every directory that was read holds of the stages of an
entry. -/
theorem forall_mem_stagesOf {holds : Stage → Prop} (reports : ∀ error, holds (.report error))
    (displays : ∀ directory entries, directory.Grounded files → directory.kind = .directory →
      contents files plan (namesOnly plan) directory = .ok entries →
      holds (.display (some directory) entries))
    {entry : Entry} (grounded : entry.Grounded files) :
    ∀ stage ∈ stagesOf files plan entry, holds stage := by
  induction rank : Walk.rank files entry using Nat.strong_induction_on generalizing entry with
  | _ level ih =>
    subst rank
    rw [stagesOf_eq plan grounded]
    split
    · exact List.forall_mem_singleton.mpr (reports _)
    next kind =>
      split
      · exact List.forall_mem_nil _
      cases given : contents files plan (namesOnly plan) entry with
      | error error => exact List.forall_mem_singleton.mpr (reports _)
      | ok entries =>
        refine List.forall_mem_cons.mpr ⟨displays entry entries grounded kind given, ?_⟩
        split
        · intro stage member
          obtain ⟨child, inside, member⟩ := List.mem_flatMap.mp member
          obtain ⟨grounded', less⟩ := contents_child grounded kind given child inside
          exact ih _ less grounded' rfl stage member
        · exact List.forall_mem_nil _
    · exact List.forall_mem_nil _

/-- What holds of all reports, of the roots and of every directory that was read holds of the stages
of a listing. -/
theorem forall_mem_stages {holds : Stage → Prop} {paths : List String}
    (reports : ∀ error, holds (.report error))
    (first : holds (.display none (roots files plan paths)))
    (displays : ∀ directory entries, directory.Grounded files → directory.kind = .directory →
      contents files plan (namesOnly plan) directory = .ok entries →
      holds (.display (some directory) entries)) :
    ∀ stage ∈ stages files plan paths, holds stage := by
  refine List.forall_mem_cons.mpr ⟨first, ?_⟩
  split
  · exact List.forall_mem_nil _
  · intro stage member
    obtain ⟨root, inside, member⟩ := List.mem_flatMap.mp member
    exact forall_mem_stagesOf reports displays (roots_grounded root inside) stage member

/-- The acts of a visit are the acts of its stages. -/
theorem visit_eq {entry : Entry} (grounded : entry.Grounded files) :
    visit files plan entry grounded =
      (stagesOf files plan entry).flatMap (Stage.acts plan.config) := by
  induction rank : Walk.rank files entry using Nat.strong_induction_on generalizing entry with
  | _ level ih =>
    subst rank
    rw [stagesOf_eq plan grounded]
    unfold visit
    split
    next kind => simp only [kind, List.flatMap_singleton, Stage.acts]
    next kind =>
      conv_rhs => rw [kind]
      dsimp only
      split
      · rfl
      · split
        next given => simp only [given, List.flatMap_singleton, Stage.acts]
        next entries given =>
          conv_rhs => rw [given]
          dsimp only
          rw [List.flatMap_cons]
          refine congrArg (showing plan.config (some entry) entries ++ ·) ?_
          split
          · rw [List.flatMap_assoc]
            refine flatMap_attach fun child => ?_
            exact ih _ (contents_child grounded kind given child.1 child.2).2 _ rfl
          · rfl
    next noCycle noDirectory =>
      split
      · contradiction
      · contradiction
      · rfl

/-- The acts of a listing are the acts of its stages, unless a path has a null character. -/
theorem list_eq (files : FileSystem) (plan : Plan) {paths : List String}
    (plain : paths.any Path.hasNull = false) :
    list files plan paths = (stages files plan paths).flatMap (Stage.acts plan.config) := by
  unfold list stages
  rw [plain, if_neg Bool.false_ne_true, List.flatMap_cons]
  refine congrArg (showing plan.config none (roots files plan paths) ++ ·) ?_
  split
  · rfl
  · rw [List.flatMap_assoc]
    exact flatMap_attach fun root => visit_eq (roots_grounded root.1 root.2)

end Stages
end Recursion
end DirList
