import DirList.Proofs.Listing.Stages
import DirList.Proofs.Walk.Skipping

/-!
# Runs go through stages

A run is driven by the events of a walk, and keeps the walk out of directories by skipping them. In
a file system that does not change it goes through the stages of the listing, whatever becomes of
them: also if the policy stops it at an error, or if it is given up for another reason.

Results:
1. `asks_of_reads`: what an event asks for is due.
2. `amounts_react`: what a run does at an event comes to what the event asks for.
3. `amounts_follow`: a run that follows a walk goes through the stages that are due.
4. `amounts_list`: a listing goes through its stages.
5. `run_list_of_unfit`: a listing of unfit paths is given up at once.
-/

namespace DirList

open FileSystem Walk

/-! ## Steps that amount to others -/

namespace Run

section Amounting

variable {ω α β : Type} {files : FileSystem} {run run' : Run ω}

/-- `Amounts step step' run`: on the run the step comes to what `step'` comes to, but for the source
that it leaves. -/
def Amounts (step step' : Stride ω α) (run : Run ω) : Prop :=
  ∃ source, step.run.run run =
    ((step'.run.run run).1, { (step'.run.run run).2 with source })

theorem Amounts.refl (step : Stride ω α) (run : Run ω) : Amounts step step run :=
  ⟨_, rfl⟩

/-- What only changes the source can be left out. -/
theorem Amounts.skip {step : Stride ω α} {next : α → Stride ω β} {rest : Stride ω β} {answer : α}
    (looks : run.session.world.files = files) (transfers : Transfers files files rest)
    (settles : Settles step run answer run') (same : run' = { run with source := run'.source })
    (amounts : Amounts (next answer) rest run') : Amounts (step >>= next) rest run := by
  obtain ⟨source, amounts⟩ := amounts
  refine ⟨source, ?_⟩
  have moved : run' = run.among files run'.source := by
    rw [same, among, ← looks]
    rfl
  have ran := run_bind_of_settles settles next
  obtain ⟨kept, ran'⟩ := transfers run'.source run looks
  rw [ran, amounts, moved, ran', among, ← kept]
  rfl

/-- Two steps that begin alike come to the same if what follows does. -/
theorem Amounts.bind {step : Stride ω α} {next next' : α → Stride ω β}
    (amounts : ∀ answer run', Settles step run answer run' →
      Amounts (next answer) (next' answer) run') :
    Amounts (step >>= next) (step >>= next') run := by
  unfold Amounts
  rw [run_bind, run_bind]
  rcases ran : step.run.run run with ⟨error | answer, run'⟩
  · exact ⟨run'.source, rfl⟩
  · exact amounts answer run' ran

/-- What comes to the same is followed by the same. -/
theorem Amounts.then {step step' : Stride ω α} {next : α → Stride ω β}
    (looks : run.session.world.files = files) (transfers : Transfers files files step')
    (transfers' : ∀ answer, Transfers files files (next answer))
    (amounts : Amounts step step' run) : Amounts (step >>= next) (step' >>= next) run := by
  obtain ⟨source, amounts⟩ := amounts
  unfold Amounts
  rw [run_bind, run_bind, amounts]
  have kept := (transfers run.source run looks).1
  rcases ran : step'.run.run run with ⟨error | answer, run'⟩
  · exact ⟨source, rfl⟩
  rw [ran] at kept
  obtain ⟨kept', same⟩ := transfers' answer source run' kept
  have moved : run'.among files source = { run' with source } := by
    rw [among, ← show run'.session.world.files = files from kept]
    rfl
  refine ⟨source, ?_⟩
  dsimp only
  rw [← moved, same, among, ← kept']
  rfl

/-- What is done with the source in the end does not count. -/
theorem Amounts.closing {step step' : Stride ω α} (amounts : Amounts step step' run) :
    Amounts (try step finally modify fun run => { run with source := run.source.close }) step'
      run := by
  obtain ⟨source, amounts⟩ := amounts
  refine ⟨source.close, ?_⟩
  rw [run_finally, amounts]

end Amounting
end Run

/-! ## What is to be done -/

section Due

variable {files : FileSystem} {plan : Plan}

/-- What a walk is answered about a directory is what the recursion reads of it. -/
theorem contents_of_listing {walk : Walk} (options : walk.options = plan.options)
    (comparator : walk.comparator = plan.comparator) {namesOnly : Bool} {directory : Entry}
    {answer : Except SystemError (List Entry)} {files' : FileSystem}
    (given : walk.listing namesOnly directory files = (.ok answer, files')) :
    Recursion.contents files plan namesOnly directory.unnumbered =
      answer.map (List.map Entry.unnumbered) := by
  have alike : directory.unnumbered = directory.unnumbered.unnumbered :=
    (Entry.unnumbered_unnumbered directory).symm
  have same := congrArg (fun action : Access _ => (action.run.run files).1)
    (map_unnumbered_readDirectory alike plan.options plan.comparator namesOnly walk.nextSerial 0)
  unfold listing at given
  rw [options, comparator] at given
  rw [run_map, run_map, given] at same
  unfold Recursion.contents
  generalize ((readDirectory plan.options plan.comparator namesOnly directory.unnumbered 0).run.run
    files).1 = answer' at same ⊢
  cases answer' with
  | error _ => cases same
  | ok answer' => exact (Except.ok.inj same).symm

/-- Whether a directory is listed by name or with statuses, it is listed or not for the same reason,
and it is empty or not. -/
theorem contents_names (static : files.IsStatic) (calm : files.IsCalm)
    (sorts : ∀ entries, ∃ entries', sortEntries plan.comparator entries = .ok entries')
    (namesOnly : Bool) (directory : Entry) :
    match Recursion.contents files plan namesOnly directory with
    | .error error => Recursion.contents files plan false directory = .error error
    | .ok [] => Recursion.contents files plan false directory = .ok []
    | .ok (_ :: _) => ∃ entries, Recursion.contents files plan false directory = .ok entries := by
  unfold Recursion.contents
  rcases exists_readDirectory static calm plan.options plan.comparator directory with
    ⟨error, fails⟩ | ⟨count, reads⟩
  · rw [fails namesOnly 0, fails false 0]
    rfl
  · obtain ⟨entries, length, settles⟩ := reads namesOnly 0
    obtain ⟨entries', length', settles'⟩ := reads false 0
    obtain ⟨sorted, success⟩ := sorts entries
    obtain ⟨sorted', success'⟩ := sorts entries'
    have equal : sorted.length = sorted'.length := by
      rw [(sortEntries_perm success).length_eq, (sortEntries_perm success').length_eq, length,
        length']
    rw [settles, settles', success, success']
    cases sorted with
    | nil =>
      rw [List.length_eq_zero_iff.mp equal.symm]
      rfl
    | cons => exact ⟨_, rfl⟩

/-- The stages of visiting what a walk awaits. -/
noncomputable def awaitedStages (files : FileSystem) (plan : Plan) (walk : Walk) : List Stage :=
  (walk.awaited.map Entry.unnumbered).flatMap (Recursion.stagesOf files plan)

/-- What is to be done when the next event is asked for: what the directory just reported still
calls for, and the visits of what the walk awaits. -/
noncomputable def due (files : FileSystem) (plan : Plan) (walk : Walk) : List Stage :=
  let here := match walk.here? with
    | none => []
    | some directory =>
      if directory.serial ∈ walk.skipped then []
      else
        match Recursion.contents files plan false directory.unnumbered with
        | .error error => [.report (.ofCode .node directory.name error.codeOrZero)]
        | .ok entries => entries.flatMap (Recursion.stagesOf files plan)
  here ++ awaitedStages files plan walk

theorem due_of_away {walk : Walk} (away : walk.here? = none) :
    due files plan walk = awaitedStages files plan walk := by
  rw [due, away]
  rfl

theorem due_of_skipped {walk : Walk} {directory : Entry} (at_ : walk.here? = some directory)
    (skipped : directory.serial ∈ walk.skipped) :
    due files plan walk = awaitedStages files plan walk := by
  rw [due, at_]
  dsimp only
  rw [if_pos skipped, List.nil_append]

theorem due_of_unskipped {walk : Walk} {directory : Entry} (at_ : walk.here? = some directory)
    (unskipped : directory.serial ∉ walk.skipped) :
    due files plan walk =
      (match Recursion.contents files plan false directory.unnumbered with
        | .error error => [.report (.ofCode .node directory.name error.codeOrZero)]
        | .ok entries => entries.flatMap (Recursion.stagesOf files plan)) ++
      awaitedStages files plan walk := by
  rw [due, at_]
  dsimp only
  rw [if_neg unskipped]

theorem awaitedStages_of_unmoved {walk walk' : Walk} (frames : walk'.frames = walk.frames)
    (pending : walk'.pending = walk.pending) :
    awaitedStages files plan walk' = awaitedStages files plan walk := by
  rw [awaitedStages, awaitedStages, awaited, awaited, frames, pending]

theorem Plan.sorts (plan : Plan) (entries : List Entry) :
    ∃ sorted, sortEntries plan.comparator entries = .ok sorted := by
  unfold Plan.comparator
  cases plan.order <;> exact ⟨_, rfl⟩

end Due

/-! ## Runs and clients -/

section Driving

variable {files : FileSystem} {plan : Plan} {start : Walk} {client : Client} {run : Run Walk}

/-- A source with a walk of a plan, the `count`-th that was started. -/
def held (plan : Plan) (count : Nat) (walk : Walk) : Source Walk :=
  { plan.source Walk.walker with last := some walk, isOpen := true, started := count }

/-- A source of a plan that has no walk open. -/
def Source.IsIdle (plan : Plan) (source : Source Walk) : Prop :=
  source = { plan.source Walk.walker with last := source.last, started := source.started }

/-- Such a source reads what its walk reads. -/
theorem read_held (plan : Plan) (count : Nat) (walk : Walk) : (held plan count walk).read = (do
    let result ← walk.read
    pure (result.1, held plan count result.2)) :=
  rfl

/-- It lists what its walk lists. -/
theorem children_held (plan : Plan) (count : Nat) (walk : Walk) (directory : Option Entry)
    (namesOnly : Bool) :
    (held plan count walk).children directory namesOnly = (do
      let result ← walk.children namesOnly
      pure (.ok result.1, held plan count result.2)) := by
  have names : (namesOnly && (directory.isNone || (held plan count walk).listsNames)) =
      namesOnly := by
    show (namesOnly && (directory.isNone || true)) = namesOnly
    rw [Bool.or_true, Bool.and_true]
  conv_rhs => rw [← names]
  rfl

/-- `Drives files plan start client run`: the run does to its walk what the client does to its own,
in a file system that does not change. -/
structure Drives (files : FileSystem) (plan : Plan) (start : Walk) (client : Client)
    (run : Run Walk) : Prop where
  source : run.source = held plan run.source.started client.walk
  looks : run.session.world.files = files
  steady : Steady files start client
  inherits : Inherits files (fun _ entry => entry.Grounded files) start client
  options : start.options = plan.options
  comparator : start.comparator = plan.comparator

theorem settles_onSource {ε α : Type} [GivesUp ε]
    {action : Source Walk → Access (Except ε α × Source Walk)} {answer : α}
    {source : Source Walk} (looks : run.session.world.files = files)
    (settles : Settles (action run.source) files (.ok answer, source) files) :
    Settles (Run.onSource action) run answer { run with source } := by
  rw [Settles, Run.run_onSource, looks, settles, ← looks]

namespace Drives

theorem walkOptions (drives : Drives files plan start client run) :
    client.walk.options = plan.options :=
  drives.steady.tracked.options.trans drives.options

theorem walkComparator (drives : Drives files plan start client run) :
    client.walk.comparator = plan.comparator :=
  drives.steady.tracked.comparator.trans drives.comparator

/-- What transfers leaves the walk where it is. -/
theorem after {α : Type} (drives : Drives files plan start client run) {step : Stride Walk α}
    (transfers : Run.Transfers files files step) {answer : α} {run' : Run Walk}
    (settles : Settles step run answer run') : Drives files plan start client run' := by
  obtain ⟨kept, same⟩ := transfers run.source run drives.looks
  have still : run.among files run.source = run := by
    rw [Run.among, ← drives.looks]
    rfl
  rw [still, settles] at same
  rw [settles] at kept
  have source : run'.source = run.source := congrArg (fun result => result.2.source) same
  exact { drives with source := by rw [source]; exact drives.source, looks := kept }

/-- The run reads what the client reads. -/
theorem read (drives : Drives files plan start client run) {event : Option Entry} {walk' : Walk}
    (reads : Reads client.walk files event walk' files) :
    ∃ run', Settles (Run.onSource Source.read) run event run' ∧
      run' = { run with source := run'.source } ∧
      Drives files plan start (client.step .read) run' ∧ (client.step .read).walk = walk' := by
  obtain ⟨steady, moved, -⟩ := drives.steady.step_read reads
  have settles : Settles (Source.read run.source) files
      (.ok event, held plan run.source.started walk') files := by
    rw [drives.source, read_held]
    exact Settles.bind (run_of_reads drives.steady.tracked.isOpen reads) (.pure _ _)
  refine ⟨_, settles_onSource drives.looks settles, rfl, ?_, moved⟩
  refine ⟨?_, drives.looks, steady, ?_, drives.options, drives.comparator⟩
  · rw [moved]
    rfl
  · exact drives.inherits.step (passes_grounded _) rfl

/-- The run lists what the client lists. -/
theorem children (drives : Drives files plan start client run) (static : files.IsStatic)
    (calm : files.IsCalm) (directory : Option Entry) (namesOnly : Bool) :
    ∃ run' answer, Settles (Run.onSource (Source.children directory namesOnly)) run answer run' ∧
      run' = { run with source := run'.source } ∧
      Drives files plan start (client.step (.children namesOnly)) run' ∧
      Lists client.walk files namesOnly answer (client.step (.children namesOnly)).walk
        files := by
  obtain ⟨steady, -, answer, lists⟩ := drives.steady.step_children static calm namesOnly
  have settles : Settles (Source.children directory namesOnly run.source) files
      (.ok answer, held plan run.source.started (client.step (.children namesOnly)).walk)
      files := by
    rw [drives.source, children_held]
    exact Settles.bind (run_of_lists lists) (.pure _ _)
  refine ⟨_, answer, settles_onSource drives.looks settles, rfl, ?_, lists⟩
  refine ⟨rfl, drives.looks, steady, ?_, drives.options, drives.comparator⟩
  exact drives.inherits.step (passes_grounded _) rfl

/-- The run skips the directory that the client skips. -/
theorem skip (drives : Drives files plan start client run) {directory : Entry}
    (at_ : client.walk.here? = some directory) :
    ∃ run', Settles (Run.skip directory) run () run' ∧
      run' = { run with source := run'.source } ∧
      Drives files plan start (client.step (.skipRead 0)) run' ∧
      (client.step (.skipRead 0)).walk = client.walk.skip directory := by
  obtain ⟨steady, -, moved⟩ := drives.steady.step_skipRead 0
  obtain ⟨turn, turns, first, rfl, -⟩ := drives.steady.tracked.here directory at_
  rw [first, List.getElem?_cons_zero] at moved
  have skips : Settles (Run.skip turn.event) run ()
      { run with source := held plan run.source.started (client.walk.skip turn.event) } := by
    refine settles_onSource drives.looks ?_
    rw [drives.source]
    rfl
  refine ⟨_, skips, rfl, ?_, moved⟩
  refine ⟨?_, drives.looks, steady, ?_, drives.options, drives.comparator⟩
  · rw [moved]
    rfl
  · exact drives.inherits.step (passes_grounded _) rfl

end Drives
end Driving

/-! ## What events ask for -/

section Asking

variable {files : FileSystem} {plan : Plan} {start : Walk} {client : Client} {run : Run Walk}

/-- `Asks files plan event rest stages`: an event asks for `stages`, of which `rest` will still be
there.

* `visit`: it is the first event of an entry.
* `finish`: it ends the visit of a directory.
* `refuse`: it says that a directory cannot be listed. -/
inductive Asks (files : FileSystem) (plan : Plan) (event : Entry) (rest : List Stage) :
    List Stage → Prop
  | visit : event.unnumbered.Grounded files →
      Asks files plan event rest (Recursion.stagesOf files plan event.unnumbered ++ rest)
  | finish : event.kind = .finished → Asks files plan event rest rest
  | refuse : event.kind = .unreadable → Asks files plan event rest
      (.report (.ofCode .node event.name event.errorCode) :: rest)

/-- Going on takes the first entry that is awaited, or it ends a visit. -/
theorem asks_of_next {walk walk' : Walk} {event : Entry}
    (next : Next walk (some event) walk')
    (grounded : ∀ entry ∈ walk.awaited, entry.unnumbered.Grounded files) :
    Asks files plan event (awaitedStages files plan walk') (awaitedStages files plan walk) := by
  rcases next.awaited with ⟨no, -⟩ | ⟨entry, same, awaits⟩ | ⟨frame, -, same, awaits⟩
  · cases no
  · cases same
    have first : awaitedStages files plan walk =
        Recursion.stagesOf files plan event.unnumbered ++ awaitedStages files plan walk' := by
      rw [awaitedStages, awaitedStages, awaits, List.map_cons, List.flatMap_cons]
    rw [first]
    exact .visit (grounded event (by rw [awaits]; exact List.mem_cons_self))
  · cases same
    have unchanged : awaitedStages files plan walk = awaitedStages files plan walk' := by
      rw [awaitedStages, awaitedStages, awaits]
    rw [unchanged]
    exact .finish rfl

/-- Once a directory is listed, what it lists joins what is awaited. -/
theorem asks_of_entered (drives : Drives files plan start client run) {event directory : Entry}
    {entries fresh : List Entry} {count : Nat} {walk' : Walk}
    (at_ : client.walk.here? = some directory) (unskipped : directory.serial ∉ client.walk.skipped)
    (given : client.walk.listing false directory files = (.ok (.ok fresh), files))
    (same : entries.map Entry.unnumbered = fresh.map Entry.unnumbered)
    (next : Next (client.walk.entered directory entries count) (some event) walk') :
    Asks files plan event (awaitedStages files plan walk') (due files plan client.walk) := by
  have contents := contents_of_listing drives.walkOptions drives.walkComparator given
  rw [Except.map, ← same] at contents
  have whole : due files plan client.walk =
      awaitedStages files plan (client.walk.entered directory entries count) := by
    rw [due_of_unskipped at_ unskipped, contents, awaitedStages, awaitedStages, awaited_entered,
      List.map_append, List.flatMap_append]
  rw [whole]
  refine asks_of_next next fun entry member => ?_
  have holds := drives.inherits.holds
  rw [awaited_entered] at member
  rcases List.mem_append.mp member with new | old
  · exact (Recursion.contents_child (holds.here directory at_).unnumbered
      (here?_eq_some.mp at_).2 contents _ (List.mem_map_of_mem new)).1
  · exact (holds.awaited entry old).unnumbered

/-- What an event asks for is due. -/
theorem asks_of_reads (drives : Drives files plan start client run) {event : Entry} {walk' : Walk}
    (reads : Reads client.walk files (some event) walk' files) :
    Asks files plan event (awaitedStages files plan walk') (due files plan client.walk) := by
  generalize given : some event = answer at reads
  cases reads with
  | go away =>
    have next := next_advance client.walk.begun
    rw [← given] at next
    have begun : awaitedStages files plan client.walk =
        awaitedStages files plan client.walk.begun := rfl
    rw [due_of_away away, begun]
    exact asks_of_next next fun entry member =>
      (drives.inherits.holds.awaited entry member).unnumbered
  | pass at_ skip =>
    cases given
    rw [due_of_skipped at_ skip]
    exact .finish rfl
  | @refuse directory error _ at_ unskipped _ refusal =>
    cases given
    have contents := contents_of_listing drives.walkOptions drives.walkComparator refusal
    rw [Except.map] at contents
    rw [due_of_unskipped at_ unskipped, contents]
    exact .refuse rfl
  | @resume directory entries at_ unskipped listed =>
    have next := next_advance (client.walk.entered directory entries 0)
    rw [← given] at next
    obtain ⟨fresh, again, alike⟩ := drives.steady.cached directory entries at_ listed
    exact asks_of_entered drives at_ unskipped again alike.symm next
  | @enter directory entries _ at_ unskipped _ listing =>
    have next := next_advance (client.walk.entered directory entries entries.length)
    rw [← given] at next
    exact asks_of_entered drives at_ unskipped listing rfl next

end Asking

/-! ## Reacting to events -/

section Reacting

variable {files : FileSystem} {plan : Plan} {start : Walk} {client : Client} {run : Run Walk}

/-- `GoesOn files plan start load next`: in every run that is driven to a walk of the given load,
the step `next` goes through the stages that are due. -/
def GoesOn (files : FileSystem) (plan : Plan) (start : Walk) (load : Nat)
    (next : Stride Walk Unit) : Prop :=
  ∀ {client : Client} {run : Run Walk}, Drives files plan start client run →
    client.walk.load files = load →
    Run.Amounts next (Stage.performAll plan (due files plan client.walk)) run

section Standard

variable (static : files.IsStatic) (calm : files.IsCalm)
variable (standard : RendererTable.standard.select plan.config = .ok plan.renderer)
variable {next : Stride Walk Unit}

include static calm standard

theorem transfers_performAll (stages : List Stage) :
    Run.Transfers files files (Stage.performAll plan stages : Stride Walk Unit) :=
  Stage.transfers_performAll (linksAlike_refl static calm) standard stages

/-- Once a run has skipped a directory, nothing is to be done in it. -/
theorem amounts_skip (drives : Drives files plan start client run) {directory : Entry}
    (at_ : client.walk.here? = some directory)
    (goesOn : GoesOn files plan start (client.walk.load files) next) :
    Run.Amounts (Run.skip directory >>= fun _ => next)
      (Stage.performAll plan (awaitedStages files plan client.walk)) run := by
  obtain ⟨run', skips, same, drives', moved⟩ := drives.skip at_
  have amounts := goesOn drives' (by rw [moved]; exact load_of_unmoved rfl rfl rfl)
  have left : due files plan (client.walk.skip directory) = awaitedStages files plan client.walk :=
    due_of_skipped at_ List.mem_cons_self
  rw [moved, left] at amounts
  exact .skip drives.looks (transfers_performAll static calm standard _) skips same amounts

/-- Once a directory is shown, a run leaves its entries to the walk if the listing is recursive, and
keeps the walk away from them if it is not. A directory that cannot be listed is left to the walk,
which will report it. -/
theorem amounts_leave (drives : Drives files plan start client run)
    {directory : Entry} (at_ : client.walk.here? = some directory)
    (unskipped : directory.serial ∉ client.walk.skipped) {answer : Option (List Entry)}
    {contents : Except SystemError (List Entry)}
    (read : Recursion.contents files plan (Recursion.namesOnly plan) directory.unnumbered =
      contents)
    (given : (∃ error, contents = .error error ∧ answer = none) ∨
      ∃ entries, contents = .ok (entries.map Entry.unnumbered) ∧ answer = some entries)
    (goesOn : GoesOn files plan start (client.walk.load files) next) :
    Run.Amounts ((if !plan.config.recursive && !(answer.getD []).isEmpty then Run.skip directory
        else pure () : Stride Walk Unit) >>= fun _ => next)
      (Stage.performAll plan ((match contents with
          | .error error => [.report (.ofCode .node directory.name error.codeOrZero)]
          | .ok entries =>
            if plan.config.recursive then entries.flatMap (Recursion.stagesOf files plan)
            else []) ++ awaitedStages files plan client.walk)) run := by
  have alike := contents_names static calm plan.sorts (Recursion.namesOnly plan)
    directory.unnumbered
  rw [read] at alike
  have left := @due_of_unskipped files plan _ _ at_ unskipped
  have onward := goesOn drives rfl
  rcases given with ⟨error, rfl, rfl⟩ | ⟨entries, rfl, rfl⟩
  · rw [show Recursion.contents files plan false directory.unnumbered = .error error from
      alike] at left
    rw [left] at onward
    simp only [Option.getD_none, List.isEmpty_nil, Bool.not_true, Bool.and_false]
    exact onward
  cases recursive : plan.config.recursive with
  | true =>
    -- The walk lists with statuses, and so did the run.
    rw [Recursion.namesOnly_of_recursive recursive] at read
    rw [left, read] at onward
    exact onward
  | false =>
    cases entries with
    | nil =>
      -- There is nothing to skip, and nothing to go through.
      rw [show Recursion.contents files plan false directory.unnumbered = .ok [] from
        alike] at left
      rw [left] at onward
      exact onward
    | cons entry entries => exact amounts_skip static calm standard drives at_ goesOn

/-- Once a directory is listed, it is displayed, and then left to the walk or not. -/
theorem amounts_show (drives : Drives files plan start client run)
    {directory : Entry} (at_ : client.walk.here? = some directory)
    (unskipped : directory.serial ∉ client.walk.skipped) {answer : Option (List Entry)}
    {contents : Except SystemError (List Entry)}
    (read : Recursion.contents files plan (Recursion.namesOnly plan) directory.unnumbered =
      contents)
    (given : (∃ error, contents = .error error ∧ answer = none) ∨
      ∃ entries, contents = .ok (entries.map Entry.unnumbered) ∧ answer = some entries)
    (goesOn : GoesOn files plan start (client.walk.load files) next) :
    Run.Amounts (Run.display plan (some directory) answer >>= fun _ =>
        (if !plan.config.recursive && !(answer.getD []).isEmpty then Run.skip directory
          else pure () : Stride Walk Unit) >>= fun _ => next)
      (Stage.performAll plan ((match contents with
          | .error error => [.report (.ofCode .node directory.name error.codeOrZero)]
          | .ok entries => .display (some directory.unnumbered) entries ::
            if plan.config.recursive then entries.flatMap (Recursion.stagesOf files plan)
            else []) ++ awaitedStages files plan client.walk)) run := by
  rcases given with ⟨error, rfl, rfl⟩ | ⟨entries, rfl, rfl⟩
  · have leaves := amounts_leave static calm standard drives at_ unskipped read
      (.inl ⟨error, rfl, rfl⟩) goesOn
    rw [Run.display_none]
    exact leaves
  · have shows : Run.display plan (some directory.unnumbered)
        (some (entries.map Entry.unnumbered)) =
          (Run.display plan (some directory) (some entries) : Stride Walk Unit) :=
      Run.display_unnumbered standard (some directory) entries
    dsimp only
    rw [List.cons_append, Stage.performAll_cons, Stage.perform, shows]
    refine .bind fun _ run' displays => ?_
    have drives' := drives.after
      (Run.transfers_display (linksAlike_refl static calm) standard _ _) displays
    exact amounts_leave static calm standard drives' at_ unskipped read
      (.inr ⟨entries, rfl, rfl⟩) goesOn

/-- What a run does at the beginning of a visit, and what it does after it. -/
theorem amounts_enter (drives : Drives files plan start client run) {directory : Entry}
    (at_ : client.walk.here? = some directory) (started : client.walk.started = true)
    (grounded : directory.unnumbered.Grounded files)
    (unskipped : directory.serial ∉ client.walk.skipped)
    (goesOn : GoesOn files plan start (client.walk.load files) next) :
    Run.Amounts (Run.enter plan (Recursion.namesOnly plan) directory >>= fun _ => next)
      (Stage.performAll plan (Recursion.stagesOf files plan directory.unnumbered ++
        awaitedStages files plan client.walk)) run := by
  have kind : directory.unnumbered.kind = .directory := (here?_eq_some.mp at_).2
  have visit := Recursion.stagesOf_eq plan grounded
  rw [kind] at visit
  dsimp only at visit
  rw [visit]
  have hidden : Recursion.isPassedOver plan.config directory.unnumbered =
      (directory.isHidden && !directory.isRoot && !plan.config.showHidden) := rfl
  unfold Run.enter
  rw [hidden]
  by_cases passed : (directory.isHidden && !directory.isRoot && !plan.config.showHidden) = true
  · rw [if_pos passed, if_pos passed, List.nil_append]
    exact amounts_skip static calm standard drives at_ goesOn
  rw [if_neg passed, if_neg passed, bind_assoc]
  -- The directory is listed.
  obtain ⟨run₁, answer, listed, same, drives₁, lists⟩ :=
    drives.children static calm (some directory) (Recursion.namesOnly plan)
  obtain ⟨current, frames, pending, -⟩ := lists.unmoved
  have given := lists.of_here started at_
  generalize client.step (.children (Recursion.namesOnly plan)) = client₁ at *
  have at₁ : client₁.walk.here? = some directory := lists.here.trans at_
  have unskipped₁ : directory.serial ∉ client₁.walk.skipped := by
    rw [lists.sameWalk.skipped]
    exact unskipped
  have awaits : awaitedStages files plan client₁.walk = awaitedStages files plan client.walk :=
    awaitedStages_of_unmoved frames pending
  have load : client₁.walk.load files = client.walk.load files :=
    load_of_unmoved current frames pending
  rw [← load] at goesOn
  refine .skip drives.looks (transfers_performAll static calm standard _) listed same ?_
  have contents : ∀ {answer}, client.walk.listing (Recursion.namesOnly plan) directory files =
      (.ok answer, files) →
      Recursion.contents files plan (Recursion.namesOnly plan) directory.unnumbered =
        answer.map (List.map Entry.unnumbered) :=
    fun given => contents_of_listing drives.walkOptions drives.walkComparator given
  rw [bind_assoc, ← awaits]
  rcases given with ⟨error, rfl, given⟩ | ⟨entries, rfl, given⟩
  · rw [contents given]
    exact amounts_show static calm standard drives₁ at₁ unskipped₁ (contents given)
      (.inl ⟨error, rfl, rfl⟩) goesOn
  · rw [contents given]
    exact amounts_show static calm standard drives₁ at₁ unskipped₁ (contents given)
      (.inr ⟨entries, rfl, rfl⟩) goesOn

/-- What a run does at the first event of an entry, and what it does after it. -/
theorem amounts_visit (drives : Drives files plan start client run) {event : Entry}
    (current : client.walk.current = some event) (started : client.walk.started = true)
    (grounded : event.unnumbered.Grounded files)
    (unskipped : event.kind = .directory → event.serial ∉ client.walk.skipped)
    (goesOn : GoesOn files plan start (client.walk.load files) next) :
    Run.Amounts (Run.react plan (Recursion.namesOnly plan) event >>= fun _ => next)
      (Stage.performAll plan (Recursion.stagesOf files plan event.unnumbered ++
        awaitedStages files plan client.walk)) run := by
  by_cases kind : event.kind = .directory
  · rw [Run.react, kind]
    exact amounts_enter static calm standard drives (here?_eq_some.mpr ⟨current, kind⟩) started
      grounded (unskipped kind) goesOn
  have away := here?_of_current current kind
  have visit := Recursion.stagesOf_eq plan grounded
  have same : event.unnumbered.kind = event.kind := rfl
  obtain ⟨_, found⟩ := grounded.found
  obtain ⟨-, notUnreadable, notError⟩ := found.kind_ne
  rw [same] at notUnreadable notError
  rw [visit, same]
  unfold Run.react
  cases kind' : event.kind with
  | directory => exact absurd kind' kind
  | unreadable => exact absurd kind' notUnreadable
  | error => exact absurd kind' notError
  | cycle =>
    refine .bind fun _ run' reports => ?_
    have onward := goesOn (drives.after (Run.transfers_report _) reports) rfl
    rwa [due_of_away away] at onward
  | finished | file | symlink | dangling | other | dot | noStatus | unasked =>
    have onward := goesOn drives rfl
    rwa [due_of_away away] at onward

/-- What a run does at an event, and what it does after it, comes to what the event asks for. -/
theorem amounts_react (drives : Drives files plan start client run) {event : Entry}
    (current : client.walk.current = some event) (started : client.walk.started = true)
    (unskipped : event.kind = .directory → event.serial ∉ client.walk.skipped)
    {stages : List Stage}
    (asks : Asks files plan event (awaitedStages files plan client.walk) stages)
    (goesOn : GoesOn files plan start (client.walk.load files) next) :
    Run.Amounts (Run.react plan (Recursion.namesOnly plan) event >>= fun _ => next)
      (Stage.performAll plan stages) run := by
  have nowhere : event.kind ≠ .directory →
      due files plan client.walk = awaitedStages files plan client.walk :=
    fun kind => due_of_away (here?_of_current current kind)
  cases asks with
  | visit grounded =>
    exact amounts_visit static calm standard drives current started grounded unskipped goesOn
  | finish kind =>
    have onward := goesOn drives rfl
    rw [nowhere (by simp [kind])] at onward
    rw [Run.react, kind]
    exact onward
  | refuse kind =>
    rw [Run.react, kind]
    refine .bind fun _ run' reports => ?_
    have onward := goesOn (drives.after (Run.transfers_report _) reports) rfl
    rwa [nowhere (by simp [kind])] at onward

omit next in
/-- A run that follows a walk to its end goes through the stages that are due. -/
theorem amounts_follow {fuel : Nat} (drives : Drives files plan start client run)
    (enough : client.walk.load files < fuel) :
    Run.Amounts (Run.follow plan (Recursion.namesOnly plan) fuel)
      (Stage.performAll plan (due files plan client.walk)) run := by
  induction fuel generalizing client run with
  | zero => exact absurd enough (Nat.not_lt_zero _)
  | succ fuel ih =>
    obtain ⟨event, walk', _, _, reads, -, -⟩ :=
      (Parallel.refl drives.steady).exists_same_reads static calm
    obtain ⟨run₁, given, same, drives₁, moved⟩ := drives.read reads
    refine .skip drives.looks (transfers_performAll static calm standard _) given same ?_
    cases event with
    | none =>
      obtain ⟨away, frames, pending, noFrames, noRoots, -⟩ := reads.exhausted
      have nothing : due files plan client.walk = [] := by
        rw [due_of_away away, awaitedStages, awaited, ← frames, ← pending, noFrames, noRoots]
        rfl
      rw [nothing]
      exact .refl _ _
    | some event =>
      -- What the run does not do at this event, it will have done when the walk ends.
      have less := load_lt_of_reads drives.inherits.holds .refl reads
      have asks := asks_of_reads drives reads
      have current := reads.current
      have started := reads.started
      have unskipped : event.kind = .directory → event.serial ∉ walk'.skipped := fun kind =>
        drives.steady.not_skipped reads (here?_eq_some.mpr ⟨current, kind⟩)
      rw [← moved] at less asks current started unskipped
      exact amounts_react static calm standard drives₁ current started unskipped asks
        fun drives load => ih drives (by omega)

end Standard
end Reacting

/-! ## Listings -/

namespace Stage

/-- To go through the stages of a listing of so many roots, and to finish. -/
def runAll {ω : Type} (plan : Plan) (rootCount : Nat) (stages : List Stage) :
    Stride ω RunState := do
  Run.changeState fun _ => { rootCount }
  performAll plan stages
  Run.finish

end Stage

section Listings

variable {files : FileSystem} {plan : Plan} {paths : List String}
variable (static : files.IsStatic) (calm : files.IsCalm)

include static calm

omit static calm in
/-- The sorted roots that the recursion reads, whatever numbers they get. -/
theorem roots_of_settles {serial : Nat} {found sorted : List Entry} {files' : FileSystem}
    (settles : Settles (Walk.readRoots (plan.options.followRoots || plan.options.logical) serial
      paths) files found files')
    (success : sortEntries plan.comparator found = .ok sorted) :
    Recursion.roots files plan paths = sorted.map Entry.unnumbered := by
  have same := congrArg (fun action : Access _ => (action.run.run files).1)
    (map_unnumbered_readRoots (plan.options.followRoots || plan.options.logical) serial 0 paths)
  rw [run_map, run_map, settles] at same
  have sorts : sortEntries plan.comparator (found.map Entry.unnumbered) =
      .ok (sorted.map Entry.unnumbered) := by
    rw [map_unnumbered_sortEntries, success]
    rfl
  unfold Recursion.roots
  dsimp only
  generalize ((readRoots _ 0 paths).run.run files).1 = answer at same ⊢
  cases answer with
  | error _ => cases same
  | ok found₀ =>
    have same : found.map Entry.unnumbered = found₀.map Entry.unnumbered := Except.ok.inj same
    rw [same, map_unnumbered_sortEntries] at sorts
    unfold Plan.comparator at sorts
    cases order : plan.order with
    | none =>
      rw [order] at sorts
      exact Except.ok.inj sorts
    | some order' =>
      rw [order] at sorts
      exact Except.ok.inj sorts

/-- A walk over paths starts with the roots that the recursion reads. -/
theorem exists_start (plan : Plan) (fit : unfit paths = none) (serial : Nat) :
    ∃ walk, Settles (Walk.start serial paths plan.options plan.comparator) files (.ok walk) files ∧
      walk.roots.map Entry.unnumbered = Recursion.roots files plan paths := by
  obtain ⟨found, settles, -⟩ := settles_of_calm static
    (yields_described_readRoots (plan.options.followRoots || plan.options.logical) serial paths)
    (spares_readRoots calm _ _ _)
  obtain ⟨sorted, success⟩ := plan.sorts found
  let walk : Walk := {
    options := plan.options
    comparator := plan.comparator
    roots := sorted
    pending := sorted
    frames := []
    current := none
    started := false
    closed := false
    listed := none
    skipped := []
    nextSerial := serial + paths.length }
  refine ⟨walk, ?_, (roots_of_settles settles success).symm⟩
  unfold Walk.start
  rw [fit]
  refine Settles.bind settles ?_
  rw [success]
  exact .pure _ _

omit calm in
/-- A run that has just started its walk drives it. -/
theorem Drives.ofStart {client : Client} {run : Run Walk} {serial : Nat}
    (started : Client.start? files serial paths plan.options plan.comparator = some client)
    (source : run.source = held plan run.source.started client.walk)
    (looks : run.session.world.files = files) :
    Drives files plan client.walk client run := by
  obtain ⟨starts, -, -⟩ := Client.start?_eq_some started
  have inherits : Inherits files (fun _ entry => entry.Grounded files) client.walk
      (client.run []) :=
    .ofStart started (passes_grounded _) (fun roots => roots.grounded) (List.forall_mem_nil _)
  exact ⟨source, looks, .ofStart static started, inherits, starts.sameOptions,
    starts.sameComparator⟩

omit static calm in
/-- An idle source starts a walk. -/
theorem settles_start {source : Source Walk} (idle : source.IsIdle plan) {walk : Walk}
    (begins : Settles (Walk.start source.nextSerial paths plan.options plan.comparator) files
      (.ok walk) files) :
    Settles (Source.start paths source) files (.ok (), held plan (source.started + 1) walk)
      files := by
  rw [idle] at begins ⊢
  exact Settles.bind begins (.pure _ _)

omit static calm in
/-- Before the first event, listing gives the roots. -/
theorem eq_roots_of_lists {walk walk' : Walk} {namesOnly : Bool} {answer : Option (List Entry)}
    (fresh : walk.started = false) (lists : Lists walk files namesOnly answer walk' files) :
    answer = some walk.roots ∧ walk' = walk := by
  cases lists with
  | roots => exact ⟨rfl, rfl⟩
  | nowhere begun | fail begun | give begun => cases fresh.symm.trans begun

variable (standard : RendererTable.standard.select plan.config = .ok plan.renderer)

include standard

/-- A run that has started its walk goes through the stages of the listing. -/
theorem amounts_walkRoots {client : Client} {run : Run Walk} {serial : Nat}
    (started : Client.start? files serial paths plan.options plan.comparator = some client)
    (roots : client.walk.roots.map Entry.unnumbered = Recursion.roots files plan paths)
    (source : run.source = held plan run.source.started client.walk)
    (looks : run.session.world.files = files) :
    Run.Amounts (Run.walkRoots plan) (Stage.performAll plan (Recursion.stages files plan paths))
      run := by
  obtain ⟨starts, -, -⟩ := Client.start?_eq_some started
  have drives := Drives.ofStart static started source looks
  obtain ⟨run₁, answer, listed, same, drives₁, lists⟩ := drives.children static calm none false
  have fresh : client.walk.started = false := by
    rw [starts.fresh]
  obtain ⟨rfl, unmoved⟩ := eq_roots_of_lists fresh lists
  generalize client.step (.children false) = client₁ at *
  have shows : Run.display plan none (some (Recursion.roots files plan paths)) =
      (Run.display plan none (some client.walk.roots) : Stride Walk Unit) := by
    rw [← roots]
    exact Run.display_unnumbered standard none client.walk.roots
  unfold Run.walkRoots Recursion.stages
  refine .skip looks (transfers_performAll static calm standard _) listed same ?_
  rw [Stage.performAll_cons, Stage.perform, shows]
  refine .bind fun _ run₂ displays => ?_
  have drives₂ := drives₁.after
    (Run.transfers_display (linksAlike_refl static calm) standard _ _) displays
  cases directories : plan.config.listDirectory with
  | true =>
    rw [if_neg (by decide), if_pos rfl]
    exact .refl _ _
  | false =>
    have budget : run₂.source.budget run₂.session.world.files = client₁.walk.budget files := by
      rw [drives₂.source, drives₂.looks]
      rfl
    have follows := amounts_follow static calm standard drives₂
      (Nat.lt_succ_of_le (load_le_budget .refl))
    have due : due files plan client₁.walk =
        (Recursion.roots files plan paths).flatMap (Recursion.stagesOf files plan) := by
      rw [unmoved, due_of_away starts.nowhere, awaitedStages, starts.awaited, roots]
    have namesOnly : (!plan.config.recursive && run₂.source.options.skipStatus) =
        Recursion.namesOnly plan := by
      rw [drives₂.source]
      rfl
    rw [due, ← budget, ← namesOnly] at follows
    rw [if_pos (by rfl), if_neg Bool.false_ne_true]
    exact .skip drives₂.looks (transfers_performAll static calm standard _) (Settles.get run₂) rfl
      follows

/-- A listing by an idle source goes through its stages, whatever becomes of them. -/
theorem amounts_list_of_idle (fit : unfit paths = none) {run : Run Walk}
    (idle : run.source.IsIdle plan) (looks : run.session.world.files = files) :
    Run.Amounts (Run.list plan paths)
      (Stage.runAll plan paths.length (Recursion.stages files plan paths)) run := by
  obtain ⟨walk, begins, roots⟩ := exists_start static calm plan fit run.source.nextSerial
  have started : Client.start? files run.source.nextSerial paths plan.options plan.comparator =
      Option.some (.begin walk files) := by
    unfold Client.start?
    rw [begins]
  unfold Run.list Stage.runAll
  refine .bind fun _ run' changes => ?_
  cases changes
  have opens : Settles (Run.onSource (Source.start paths)) (run.atStart paths) ()
      { run.atStart paths with source := held plan (run.source.started + 1) walk } :=
    settles_onSource looks (settles_start idle begins)
  have transfers := transfers_performAll static calm standard (Recursion.stages files plan paths)
  refine .skip looks (fun source => (transfers source).bind fun _ => Run.transfers_finish source)
    opens rfl ?_
  have walks : Run.Amounts (Run.walkRoots plan)
      (Stage.performAll plan (Recursion.stages files plan paths))
      { run.atStart paths with source := held plan (run.source.started + 1) walk } :=
    amounts_walkRoots static calm standard started roots rfl looks
  exact .then looks transfers (fun _ => Run.transfers_finish) walks.closing

/-- A listing goes through its stages, whatever becomes of them. -/
theorem amounts_list (fit : unfit paths = none) {session : Session}
    (looks : session.world.files = files) :
    Run.Amounts (Run.list plan paths)
      (Stage.runAll plan paths.length (Recursion.stages files plan paths))
      { session, source := plan.source Walk.walker } :=
  amounts_list_of_idle static calm standard fit rfl looks

end Listings

/-! ## Listings that do not begin -/

section Failures

variable {plan : Plan} {paths : List String} {run : Run Walk}

/-- A listing whose walk cannot be started is given up at once. -/
theorem run_list_of_fails (idle : run.source.IsIdle plan) {failure : OpenFailure}
    (fails : Settles (Walk.start run.source.nextSerial paths plan.options plan.comparator)
      run.session.world.files (.error failure) run.session.world.files) :
    (Run.list plan paths).run.run run =
      (.error (GivesUp.abort (Source.refusal paths failure)), run.atStart paths) := by
  have refused : Settles (Source.start paths run.source) run.session.world.files
      (.error (Source.refusal paths failure), run.source) run.session.world.files := by
    rw [idle] at fails ⊢
    exact Settles.bind fails (.pure _ _)
  have asked : Settles (Source.start paths (run.atStart paths).source)
      (run.atStart paths).session.world.files
      (.error (Source.refusal paths failure), run.source) run.session.world.files := refused
  rw [Run.run_list, Run.run_onSource, asked]
  rfl

/-- Why unfit paths are refused does not depend on what the first of them is called. -/
theorem refusal_of_unfit {failure : OpenFailure} (fails : unfit paths = some failure)
    (paths' : List String) : Source.refusal paths' failure = Source.refusal paths failure := by
  cases failure with
  | listing | nullPath => rfl
  | system =>
    unfold unfit at fails
    split_ifs at fails
    all_goals cases fails

/-- A walk over unfit paths cannot be started. -/
theorem settles_start_of_unfit {files : FileSystem} (static : files.IsStatic) (calm : files.IsCalm)
    {failure : OpenFailure} (fails : unfit paths = some failure) (serial : Nat) :
    Settles (Walk.start serial paths plan.options plan.comparator) files (.error failure)
      files := by
  unfold Walk.start
  rw [fails]
  cases failure with
  | listing | system => exact .pure _ _
  | nullPath =>
    obtain ⟨_, reads, -⟩ := settles_of_calm static (yields_readRoots _ _ _)
      (spares_readRoots calm _ _ _)
    exact Settles.bind reads (.pure _ _)

/-- A listing of unfit paths is given up at once. -/
theorem run_list_of_unfit {session : Session} (static : session.world.files.IsStatic)
    (calm : session.world.files.IsCalm) {failure : OpenFailure}
    (fails : unfit paths = some failure) :
    (Run.list plan paths).run.run { session, source := plan.source Walk.walker } =
      (.error (GivesUp.abort (Source.refusal paths failure)),
        { session
          source := plan.source Walk.walker
          state := { rootCount := paths.length } }) :=
  run_list_of_fails
    (rfl : ({ session, source := plan.source Walk.walker } : Run Walk).source.IsIdle plan)
    (settles_start_of_unfit static calm fails _)

end Failures
end DirList
