import DirList.Proofs.Listing.Backing
import DirList.Proofs.Listing.Stopping

/-!
# What listings record

A listing records an error for every event of its walk that stands for one, and for every entry of a
list that it displays that has no status, each of them once. Where there is no memory for an entry
that is to be shown, that is recorded as the last error of its list: the entries behind it are not
looked at any more, and nothing is recorded of those without a status.

Results:
1. `records_iff`: what a step records is its log of errors.
2. `records_display`: what a call records.
3. `records_list`: a listing records the errors of its turns.
4. `listing_records`: so every entry without a status is recorded once, unless it comes behind one
   that there is no memory for.
-/

namespace DirList

open FileSystem

/-! ## Sessions that keep their past when something is drawn -/

/-- Rendering changes the files and the text of a session at most. -/
theorem Job.Draws.exists_run {α : Type} {reads : String → Prop} {job : Job α}
    (draws : job.Draws reads) (session : Session) : ∃ files output,
      (job.run.run session).2 = { session.among files with output } := by
  induction draws generalizing session with
  | pure | throw | now => exact ⟨session.world.files, session.output, rfl⟩
  | @bind _ _ job next _ _ first second =>
    obtain ⟨files, output, same⟩ := first session
    rw [run_bind]
    rcases ran : job.run.run session with ⟨_ | answer, session'⟩
    · rw [ran] at same
      exact ⟨files, output, same⟩
    · rw [ran] at same
      obtain ⟨files', output', same'⟩ := second answer session'
      refine ⟨files', output', same'.trans ?_⟩
      dsimp only at same
      rw [same]
      rfl
  | write text => exact ⟨session.world.files, session.output ++ text, rfl⟩
  | readLink _ =>
    rw [run_access]
    rcases (attempt (Call.readLink _)).run.run session.world.files with ⟨_ | _, files⟩ <;>
      exact ⟨files, session.output, rfl⟩

namespace Run

section Retaining

variable {ω α γ : Type}

/-- `Retains keeps said`: what a session keeps has nothing to do with files, text and what is held,
and an error that is handed to the policy adds to it what is `said` of it. -/
structure Retains (keeps : List γ → Session → Prop) (said : ListingError → List γ) : Prop where
  draws : ∀ {past session} files output held, keeps past session →
    keeps past { session.among files with output, held }
  reports : ∀ {past session} error, keeps past session →
    keeps (past ++ said error) { session with policy := (session.policy.handle error).2 }

namespace Retains

variable {keeps : List γ → Session → Prop} {said : ListingError → List γ}
  (retains : Retains keeps said)

include retains

theorem keeping : Keeping ω keeps said := by
  refine ⟨fun action past run kept => ?_, fun error past run kept => ?_⟩
  · rw [run_onSource, List.append_nil]
    rcases (action run.source).run.run run.session.world.files with ⟨_ | ⟨_ | _, _⟩, files⟩ <;>
      exact retains.draws files run.session.output run.session.held kept
  · rw [run_report]
    exact retains.reports error kept

/-- Rendering adds nothing. -/
theorem job {reads : String → Prop} {work : Job α} (draws : work.Draws reads) :
    Logs keeps (job work : Stride ω α) fun _ => [] := by
  intro past run kept
  obtain ⟨files, output, same⟩ := draws.exists_run run.session
  rw [run_job, List.append_nil]
  dsimp only
  rw [same]
  exact retains.draws files output run.session.held kept

/-- Writing a block adds nothing. -/
theorem writeBlock {plan : Plan}
    (standard : RendererTable.standard.select plan.config = .ok plan.renderer)
    (parent : Option Entry) (descriptor : Descriptor) :
    Logs keeps (writeBlock plan parent descriptor : Stride ω Unit) fun _ => [] := by
  have rest : Logs keeps (writeEntries plan parent descriptor : Stride ω Unit) fun _ => [] := by
    intro past run kept
    obtain ⟨files, output, same⟩ := (draws_render standard descriptor).exists_run run.session
    have kept' := retains.draws files output [] kept
    rw [run_writeEntries, List.append_nil]
    rcases ran : (plan.renderer.render plan.config descriptor).run.run run.session with
      ⟨_ | _, session⟩
    all_goals
      rw [ran] at same
      cases same
      exact kept'
  cases parent with
  | none => exact rest
  | some directory =>
    have looks : Logs keeps (get : Stride ω (Run ω)) fun _ => [] := .of_unchanged fun _ => rfl
    have heads : ∀ text, Logs keeps (Run.job (Job.write text) : Stride ω Unit) fun _ => [] :=
      fun text => retains.job (.write text : Job.Draws (fun _ => False) (Job.write text))
    exact looks.quiet_bind fun _ => (heads _).quiet_bind fun _ => rest

end Retains
end Retaining
end Run

/-! ## Steps that record -/

/-- The errors that displaying entries records: those about entries without a status, up to the
first entry that there is no memory for, and the one about that. -/
def World.recorded (world : World) (config : Config) (parent : Option Entry)
    (entries : List Entry) : List ListingError :=
  Recursion.losses (world.reached config parent entries) ++
    (world.lacking? config parent entries).toList.map fun entry => .allocation entry.name

/-- `world.Remembers errors session`: the session is informed by the world and has recorded the
errors. -/
structure World.Remembers (world : World) (errors : List ListingError) (session : Session) :
    Prop where
  informs : world.Informs session
  errors : session.policy.errors = errors

namespace Run

variable {ω α β : Type} {world : World}

/-- `Records world step errors`: whatever comes of the step, what it records are the errors, and the
session goes on to be informed by the world. -/
def Records (world : World) (step : Stride ω α) (errors : Run ω → List ListingError) : Prop :=
  ∀ run, world.Informs run.session → world.Informs (step.run.run run).2.session ∧
    (step.run.run run).2.session.policy.errors = run.session.policy.errors ++ errors run

/-- What a step records is its log of errors. -/
theorem records_iff {step : Stride ω α} {errors : Run ω → List ListingError} :
    Records world step errors ↔ Logs world.Remembers step errors := by
  refine ⟨fun records past run kept => ?_, fun logs run informs => ?_⟩
  · obtain ⟨informs, same⟩ := records run kept.informs
    exact ⟨informs, same.trans (congrArg (· ++ errors run) kept.errors)⟩
  · obtain ⟨informs', same⟩ := logs run.session.policy.errors run ⟨informs, rfl⟩
    exact ⟨informs', same⟩

theorem retains_errors (world : World) : Retains world.Remembers fun error => [error] := by
  refine ⟨fun files output held kept => ⟨kept.informs.draws files output held, kept.errors⟩,
    fun error kept => ⟨kept.informs.reports error, ?_⟩⟩
  exact (Policy.errors_handle _ _).trans (congrArg (· ++ [error]) kept.errors)

theorem retains_serves {γ : Type} (world : World) :
    Retains (fun _ : List γ => world.Serves) fun _ => [] :=
  ⟨fun files output held serves => serves.draws files output held,
    fun error serves => serves.reports error⟩

/-! ## What a turn records -/

/-- The errors that a call records, with the memory that there is when it is made. -/
def Display.recorded (plan : Plan) (call : Display ω) : List ListingError :=
  call.before.session.world.recorded plan.config call.parent (call.entries.getD [])

/-- The errors that a turn records. -/
def Turn.errors (plan : Plan) (turn : Turn ω) : List ListingError :=
  turn.event.elim [] complaints ++ turn.calls.flatMap (Display.recorded plan)

theorem Turn.log_eq_errors (plan : Plan) :
    Turn.log (fun error => [error]) (Display.recorded plan) = (Turn.errors plan : Turn ω → _) := by
  funext turn
  unfold Turn.log Turn.errors
  rw [List.flatMap_singleton']

section Steps

variable {plan : Plan}

theorem records_report (error : ListingError) :
    Records world (report error : Stride ω Unit) fun _ => [error] :=
  records_iff.mpr ((retains_errors world).keeping.report error)

variable (standard : RendererTable.standard.select plan.config = .ok plan.renderer)
  (sized : plan.config.blockSize ≠ 0)

include standard sized

/-- What a call records depends on its entries, and on the memory that there is for their names. -/
theorem records_display (parent : Option Entry) (entries : Option (List Entry)) :
    Records world (display plan parent entries : Stride ω Unit)
      fun run => Display.recorded plan ⟨parent, entries, run⟩ := by
  intro run informs
  obtain ⟨session, collects, learns⟩ :=
    finds_collect sized parent entries run.session informs.serves
  have informs' : world.Informs session := informs.trans learns.informs
  have errors : session.policy.errors = run.session.policy.errors ++
      Recursion.losses (run.session.world.reached plan.config parent (entries.getD [])) := by
    rw [learns.policy, Policy.handleAll_errors]
  rw [run_display, collects]
  unfold Display.recorded World.recorded
  dsimp only
  cases run.session.world.lacking? plan.config parent (entries.getD []) with
  | some entry =>
    obtain ⟨informs'', reported⟩ := records_report (.allocation entry.name)
      { run with session } informs'
    refine ⟨informs'', reported.trans ?_⟩
    dsimp only
    rw [errors, List.append_assoc]
    rfl
  | none =>
    rw [Option.elim_none, Option.toList_none, List.map_nil, List.append_nil]
    generalize ((entries.getD []).filter (Recursion.isShown plan.config parent)).isEmpty = nothing
    cases nothing with
    | true => exact ⟨informs', errors⟩
    | false =>
      obtain ⟨informs'', same⟩ := (retains_errors world).writeBlock standard parent _ _
        { run with session } ⟨informs', rfl⟩
      rw [List.append_nil] at same
      exact ⟨informs'', same.trans errors⟩

/-- A listing records the errors of its turns, also if it is given up. -/
theorem records_list (paths : List String) :
    Records world (list plan paths : Stride ω RunState) fun run =>
      (listTurns plan paths run).flatMap (Turn.errors plan) := by
  have displays : ∀ parent entries, Logs world.Remembers (display plan parent entries :
      Stride ω Unit) fun run => Display.recorded plan ⟨parent, entries, run⟩ :=
    fun parent entries => records_iff.mp (records_display standard sized parent entries)
  refine records_iff.mpr ?_
  rw [← Turn.log_eq_errors]
  exact (retains_errors world).keeping.list displays paths

/-- A call leaves a session that serves the world, if there was memory for all names or if all
queries end the same way. -/
theorem serves_display (spared : world.HasMemory ∨ world.HasStaticNames) (parent : Option Entry)
    (entries : Option (List Entry)) (run : Run ω) (serves : world.Serves run.session) :
    world.Serves ((display plan parent entries).run.run run).2.session := by
  have retains : Retains (fun _ : List ListingError => world.Serves) fun _ => [] :=
    retains_serves world
  obtain ⟨session, collects, learns⟩ := finds_collect sized parent entries run.session serves
  have serves' := learns.serves (spared.imp_left fun memory => memory.lacking? _ _ _)
  rw [run_display, collects]
  cases world.lacking? plan.config parent (entries.getD []) with
  | some entry => exact retains.keeping.report _ [] { run with session } serves'
  | none =>
    rw [Option.elim_none]
    generalize ((entries.getD []).filter (Recursion.isShown plan.config parent)).isEmpty = nothing
    cases nothing with
    | true => exact serves'
    | false => exact retains.writeBlock standard parent _ [] { run with session } serves'

/-- Every call is made in a session that serves the world. -/
theorem serves_displays (spared : world.HasMemory ∨ world.HasStaticNames) (paths : List String)
    {run : Run ω} (serves : world.Serves run.session) :
    ∀ call ∈ listDisplays plan paths run, world.Serves call.before.session := by
  have retains : Retains (fun _ : List (Display ω) => world.Serves) fun _ => [] :=
    retains_serves world
  exact forall_displays retains.keeping (serves_display standard sized spared) paths run serves

end Steps

/-! ## Listings -/

section Listings

variable {config : Config} {plan : Plan} {kind : PolicyKind} {paths : List String}
  {outcome : Outcome}

theorem reached_append {parent : Option Entry} {before : List Entry}
    (memory : ∀ entry ∈ before, world.lacks config parent entry = false) (after : List Entry) :
    world.reached config parent (before ++ after) = before ++ world.reached config parent after :=
  List.takeWhile_append_of_pos fun entry member => by rw [memory entry member]; rfl

theorem lacking?_append {parent : Option Entry} {before : List Entry}
    (memory : ∀ entry ∈ before, world.lacks config parent entry = false) (after : List Entry) :
    world.lacking? config parent (before ++ after) = world.lacking? config parent after := by
  have none : before.find? (world.lacks config parent) = none := World.lacking?_eq_none memory
  rw [World.lacking?, List.find?_append, none, Option.none_or]
  rfl

/-- Where there is memory for all entries, those without a status are recorded. -/
theorem recorded_of_memory {parent : Option Entry} {entries : List Entry}
    (memory : ∀ entry ∈ entries, world.lacks config parent entry = false) :
    world.recorded config parent entries = Recursion.losses entries := by
  have all := reached_append memory []
  rw [List.append_nil] at all
  rw [World.recorded, World.lacking?_eq_none memory, all]
  exact (List.append_nil _).trans (congrArg Recursion.losses (List.append_nil _))

/-- Nothing is recorded of the entries behind one that there is no memory for. -/
theorem recorded_of_lacking {parent : Option Entry} {before after : List Entry} {entry : Entry}
    (memory : ∀ other ∈ before, world.lacks config parent other = false)
    (lacks : world.lacks config parent entry = true) :
    world.recorded config parent (before ++ entry :: after) =
      Recursion.losses before ++ [.allocation entry.name] := by
  have first : world.lacking? config parent (entry :: after) = some entry :=
    List.find?_cons_of_pos lacks
  have stops : world.reached config parent (entry :: after) = [] :=
    List.takeWhile_cons_of_neg (by rw [lacks]; decide)
  rw [World.recorded, reached_append memory, lacking?_append memory, first, stops,
    List.append_nil]
  rfl

/-- A listing records the errors of its turns, in their order, and at most one more if its walk
cannot be opened at all. A turn records what its event stands for, and of a list that it displays
one error for every entry without a status, unless there is no memory for an entry that is to be
shown: then it records those before it, and that. Where all queries for a name end the same way, it
depends on the world alone for which entries there is no memory. -/
theorem listing_records (planned : Plan.ofConfig .standard config = .ok plan)
    (lenient : kind ≠ .failFast)
    (given : listPaths .standard world kind paths config = .ok outcome) :
    (∃ fatal, outcome.session.policy.errors =
        (turns plan world kind paths).flatMap (Turn.errors plan) ++ fatal ∧
      (fatal = [] ∨ turns plan world kind paths = [] ∧
        ∃ error : ListingError, error.isFatal = true ∧ fatal = [error])) ∧
    (∀ (found : World) parent entries,
      (∀ entry ∈ entries, found.lacks config parent entry = false) →
      found.recorded config parent entries = Recursion.losses entries) ∧
    (∀ (found : World) parent before entry after,
      (∀ other ∈ before, found.lacks config parent other = false) →
      found.lacks config parent entry = true →
      found.recorded config parent (before ++ entry :: after) =
        Recursion.losses before ++ [.allocation entry.name]) ∧
    (world.HasStaticNames → ∀ call ∈ displays plan world kind paths, ∀ entry,
      call.before.session.world.lacks config call.parent entry =
        world.forget.lacks config call.parent entry) := by
  have standard := Plan.select_of_planned planned
  obtain ⟨rfl, -, -, accepted⟩ := Plan.ofConfig_eq_ok planned
  have sized := Config.blockSize_ne_zero accepted
  refine ⟨?_, fun _ _ _ => recorded_of_memory, fun _ _ _ _ _ => recorded_of_lacking,
    fun static call member entry => ?_⟩
  · have records : Records world (list plan (pathsOrDefault paths) : Stride Walk RunState) _ :=
      records_list standard sized (pathsOrDefault paths)
    have recorded := (records (fresh plan world kind) (world.informs_fresh lenient)).2
    obtain ⟨_, given', concludes⟩ := exists_concludes world kind paths planned
    cases given.symm.trans given'
    rcases ran : (list plan (pathsOrDefault paths)).run.run (fresh plan world kind) with
      ⟨abort | state, run⟩
    all_goals rw [ran] at concludes recorded
    · cases concludes with
      | aborted => exact ⟨[], recorded.trans (List.append_nil _).symm, .inl rfl⟩
      | @fatal error _ fatal =>
        refine ⟨[error], ?_, .inr ⟨turns_of_fatal planned fatal ran, error, fatal, rfl⟩⟩
        dsimp only
        rw [Policy.errors_handle]
        exact congrArg (· ++ [error]) recorded
    · cases concludes
      exact ⟨[], recorded.trans (List.append_nil _).symm, .inl rfl⟩
  · have serves : world.forget.Serves (fresh plan world kind).session := world.serves_fresh lenient
    have static' : world.forget.HasStaticNames := ⟨static.owners, static.groups⟩
    exact (serves_displays standard sized (.inr static') _ serves call member).lacks_eq
      plan.config call.parent entry

end Listings

/-! ## An entry without a status behind one without memory -/

/-- A world with a directory `d`, in which there is no memory for the owner of `a`, and `b` has no
status. -/
def lostBehind : World :=
  let leaf := Walk.Client.sampleSketch .leaf 0o100644
  let refused : Schedule Fault := .always (.system (.coded 13))
  { (default : World) with
    files := .ofTree (.node "" (Walk.Client.sampleSketch .directory 0o040755) [
      .node "d" (Walk.Client.sampleSketch .directory 0o040755) [
        .node "a" { leaf with status := { leaf.status with owner := 7 } } [],
        .node "b" { leaf with faults := { status := refused } } []]])
    owners := { exhausting := [(7, .always ())] } }

/-- Lines are long. -/
def longLines : Config :=
  { displayMode := DisplayMode.long }

/-- The directory is displayed with both entries, and there is one error. -/
theorem run_lostBehind :
    ∃ plan outcome, Plan.ofConfig .standard longLines = .ok plan ∧
      listPaths .standard lostBehind .collect ["d"] longLines = .ok outcome ∧
      (outcome.session.policy.errors,
        (displays plan lostBehind .collect ["d"]).map fun call =>
          (call.entries.getD []).map fun entry => (entry.name, entry.kind, entry.errorCode)) =
      ([.allocation "a"],
        [[("d", .directory, 0)], [("a", .file, 0), ("b", .noStatus, 13)]]) :=
  exists_of_observed (by decide +kernel)

/-- The errors of the sample are those of its turns. -/
theorem listing_records_sample :
    PolicyKind.collect ≠ .failFast ∧ ∃ plan outcome, Plan.ofConfig .standard longLines = .ok plan ∧
      listPaths .standard lostBehind .collect ["d"] longLines = .ok outcome ∧
      outcome.session.policy.errors =
        (turns plan lostBehind .collect ["d"]).flatMap (Turn.errors plan) := by
  have lenient : PolicyKind.collect ≠ .failFast := by decide
  obtain ⟨plan, outcome, planned, given, ran⟩ := run_lostBehind
  obtain ⟨-, displayed⟩ := Prod.mk.inj ran
  obtain ⟨⟨fatal, errors, none | ⟨empty, -⟩⟩, -⟩ := listing_records planned lenient given
  · rw [none, List.append_nil] at errors
    exact ⟨lenient, plan, outcome, planned, given, errors⟩
  · rw [displays_eq_flatMap, empty] at displayed
    cases displayed

/-- An entry without a status is in a list that is displayed, and no error names it. -/
theorem exists_unrecorded :
    ∃ plan outcome, Plan.ofConfig .standard longLines = .ok plan ∧
      listPaths .standard lostBehind .collect ["d"] longLines = .ok outcome ∧
      ∃ call ∈ displays plan lostBehind .collect ["d"], ∃ entry ∈ call.entries.getD [],
        entry.name = "b" ∧ entry.kind = .noStatus ∧ entry.errorCode = 13 ∧
        ∀ error ∈ outcome.session.policy.errors, error.name ≠ entry.name := by
  obtain ⟨plan, outcome, planned, given, ran⟩ := run_lostBehind
  obtain ⟨errors, displayed⟩ := Prod.mk.inj ran
  have second : [("a", Kind.file, (0 : Int)), ("b", .noStatus, 13)] ∈
      (displays plan lostBehind .collect ["d"]).map fun call =>
        (call.entries.getD []).map fun entry => (entry.name, entry.kind, entry.errorCode) := by
    rw [displayed]
    decide
  obtain ⟨call, member, seen⟩ := List.mem_map.mp second
  have inside : ("b", Kind.noStatus, (13 : Int)) ∈ (call.entries.getD []).map fun entry =>
      (entry.name, entry.kind, entry.errorCode) := by
    rw [seen]
    decide
  obtain ⟨entry, listed, same⟩ := List.mem_map.mp inside
  obtain ⟨name, rest⟩ := Prod.mk.inj same
  obtain ⟨kind, code⟩ := Prod.mk.inj rest
  refine ⟨plan, outcome, planned, given, call, member, entry, listed, name, kind, code, ?_⟩
  rw [errors, name]
  decide

end Run
end DirList
