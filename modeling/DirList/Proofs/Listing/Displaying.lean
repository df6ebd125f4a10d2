import DirList.Proofs.Listing.Leaving
import DirList.Proofs.Listing.Logging

/-!
# What a run writes

A call of `display` leaves the source of a run alone and only adds to its session. So a listing
writes what its calls write, one after another.

Results:
1. `orderly_display`: what a call leaves behind, whatever the world answers.
2. `text_cases`: a call writes nothing, or it writes a block under its heading.
3. `list_output`: a listing writes what its calls write.
-/

namespace DirList

open FileSystem

/-! ## Steps of runs -/

namespace Run

variable {ω : Type}

/-- `Goes state state'`: the state goes on to another one of the same run. -/
structure Goes (state state' : RunState) : Prop where
  rootCount : state'.rootCount = state.rootCount
  hasOutput : state.hasOutput = true → state'.hasOutput = true

theorem Goes.refl (state : RunState) : Goes state state :=
  ⟨rfl, id⟩

theorem Goes.trans {state state' state'' : RunState} (first : Goes state state')
    (second : Goes state' state'') : Goes state state'' :=
  ⟨second.rootCount.trans first.rootCount, second.hasOutput ∘ first.hasOutput⟩

/-- `Extends run run'`: the run only added to its session. -/
structure Extends (run run' : Run ω) : Prop where
  source : run'.source = run.source
  state : Goes run.state run'.state
  session : run.session.Grows run'.session

instance : IsPreorder (Run ω) Extends where
  refl := fun run => ⟨rfl, .refl _, refl_of Session.Grows run.session⟩
  trans := fun _ _ _ first second =>
    ⟨second.source.trans first.source, first.state.trans second.state,
      trans_of Session.Grows first.session second.session⟩

theorem run_job {α : Type} (work : Job α) (run : Run ω) :
    (job work).run.run run =
      ((work.run.run run.session).1, { run with session := (work.run.run run.session).2 }) := by
  unfold job
  rw [run_get_bind]
  rcases work.run.run run.session with ⟨_ | _, _⟩ <;> rfl

/-- What excuses a job excuses a run that does it. -/
def Excused (config : Config) (entries : List Entry) (run : Run ω) : Abort → Prop :=
  Excuse config entries run.session

instance (config : Config) (entries : List Entry) :
    Regular (Extends : Run ω → Run ω → Prop) (Excused config entries) where
  back := fun ⟨_, _, _, adds⟩ => Excuse.back adds.files adds.kind

variable {config : Config} {shown : List Entry}

theorem orderly_job {α : Type} {work : Job α}
    (orderly : Orderly Session.Grows (Excuse config shown) work) :
    Orderly Extends (Excused config shown) (job work : Stride ω α) := by
  intro run
  obtain ⟨grows, stops⟩ := orderly run.session
  unfold Stops
  rw [run_job]
  exact ⟨⟨rfl, .refl _, grows⟩, stops⟩

theorem orderly_changeState {change : RunState → RunState}
    (goes : ∀ state, Goes state (change state)) :
    Orderly Extends (Excused config shown) (changeState change : Stride ω Unit) :=
  fun _ => ⟨⟨rfl, goes _, refl_of Session.Grows _⟩, fun _ no => nomatch no⟩

theorem orderly_report {error : ListingError} (mild : error.isFatal = false) :
    Orderly Extends (Excused config shown) (report error : Stride ω Unit) := by
  have marks : Orderly Extends (Excused config shown)
      (changeState fun state => { state with hasFailed := true } : Stride ω Unit) :=
    orderly_changeState fun _ => ⟨rfl, id⟩
  exact marks.bind fun _ =>
    orderly_job ((Job.orderly_report mild).mono fun adds => ⟨_, adds⟩)

theorem extends_of_report {error : ListingError} (mild : error.isFatal = false) {run run' : Run ω}
    (settles : Settles (report error) run () run') : Extends run run' := by
  have reports : Orderly Extends (Excused default []) (report error : Stride ω Unit) :=
    orderly_report mild
  exact reports.settles settles

/-- An error is handed to the policy, which makes the run a failed one. -/
theorem run_report (error : ListingError) (run : Run ω) :
    (report error).run.run run =
      (if (run.session.policy.handle error).1 then .error (.listing error) else .ok (),
        { run with
          session := { run.session with policy := (run.session.policy.handle error).2 }
          state := { run.state with hasFailed := true } }) := by
  unfold report
  rw [run_bind]
  show (job (Job.report error)).run.run _ = _
  rw [run_job, Job.run_report]

/-- To write the entries of a descriptor. -/
def writeEntries (plan : Plan) (parent : Option Entry) (descriptor : Descriptor) :
    Stride ω Unit := do
  try job (plan.renderer.render plan.config descriptor)
  finally modify fun run => { run with session := run.session.release }
  changeState fun state => { state with
    hasOutput := true
    sections := if parent.isSome then state.sections + 1 else state.sections }

/-- To write the entries of a descriptor under their heading. -/
def writeBlock (plan : Plan) (parent : Option Entry) (descriptor : Descriptor) :
    Stride ω Unit := do
  if let some directory := parent then job (Job.write (header (← get).state directory))
  writeEntries plan parent descriptor

/-- What writing entries comes to. Nothing is held afterwards, also if it is given up. -/
theorem run_writeEntries (plan : Plan) (parent : Option Entry) (descriptor : Descriptor)
    (run : Run ω) :
    (writeEntries plan parent descriptor).run.run run =
      match (plan.renderer.render plan.config descriptor).run.run run.session with
      | (.error abort, session) => (.error abort, { run with session := session.release })
      | (.ok _, session) =>
        (.ok (), { run with
          session := session.release
          state := { run.state with
            hasOutput := true
            sections :=
              if parent.isSome then run.state.sections + 1 else run.state.sections } }) := by
  unfold writeEntries
  rw [run_bind, run_finally, run_job]
  rcases (plan.renderer.render plan.config descriptor).run.run run.session with ⟨_ | _, _⟩ <;> rfl

/-- The run when the heading of a block is written. -/
def headed (parent : Option Entry) (run : Run ω) : Run ω :=
  { run with
    session := { run.session with
      output := run.session.output ++ parent.elim "" (header run.state) } }

/-- The entries of a block are written once its heading is. -/
theorem run_writeBlock (plan : Plan) (parent : Option Entry) (descriptor : Descriptor)
    (run : Run ω) :
    (writeBlock plan parent descriptor).run.run run =
      (writeEntries plan parent descriptor).run.run (run.headed parent) := by
  cases parent with
  | none =>
    have same : run.headed none = run := by
      rw [headed, Option.elim_none, String.append_empty]
    rw [same]
    rfl
  | some directory => rfl

/-- A block that was written to its end. -/
theorem of_writeBlock {plan : Plan} {parent : Option Entry} {descriptor : Descriptor}
    {run run' : Run ω} (settles : Settles (writeBlock plan parent descriptor) run () run') :
    ∃ session, Settles (plan.renderer.render plan.config descriptor) (run.headed parent).session ()
        session ∧
      run' = { run with
        session := session.release
        state := { run.state with
          hasOutput := true
          sections := if parent.isSome then run.state.sections + 1 else run.state.sections } } := by
  unfold Settles at settles
  rw [run_writeBlock, run_writeEntries] at settles
  rcases ran : (plan.renderer.render plan.config descriptor).run.run
      (run.headed parent).session with ⟨_ | _, session⟩
  all_goals
    rw [ran] at settles
    cases settles
  exact ⟨session, ran, rfl⟩

/-- What a call of `display` comes to, by what selecting and measuring the entries comes to. -/
theorem run_display (plan : Plan) (parent : Option Entry) (entries : Option (List Entry))
    (run : Run ω) :
    (display plan parent entries).run.run run =
      match (Descriptor.collect plan.config parent entries).run.run run.session with
      | (.error abort, session) => (.error abort, { run with session })
      | (.ok (.error error), session) => (report error).run.run { run with session }
      | (.ok (.ok none), session) => (.ok (), { run with session })
      | (.ok (.ok (some descriptor)), session) =>
        (writeBlock plan parent descriptor).run.run { run with session } := by
  unfold display
  rw [run_bind, run_job]
  rcases (Descriptor.collect plan.config parent entries).run.run run.session with
    ⟨_ | _ | _ | _, session⟩ <;> rfl

section Standard

variable {plan : Plan} (standard : RendererTable.standard.select plan.config = .ok plan.renderer)

include standard

theorem orderly_writeEntries (parent : Option Entry) (descriptor : Descriptor) :
    Orderly Extends (Excused plan.config descriptor.visibleEntries)
      (writeEntries plan parent descriptor : Stride ω Unit) := by
  refine ((orderly_job (orderly_render standard descriptor)).closing fun run => ?_).bind fun _ =>
    orderly_changeState fun _ => ⟨rfl, fun _ => rfl⟩
  exact ⟨rfl, .refl _, "", .refl, rfl, List.prefix_rfl, String.append_empty.symm⟩

theorem orderly_writeBlock (parent : Option Entry) (descriptor : Descriptor) :
    Orderly Extends (Excused plan.config descriptor.visibleEntries)
      (writeBlock plan parent descriptor : Stride ω Unit) := by
  have rest : Orderly Extends (Excused plan.config descriptor.visibleEntries)
      (writeEntries plan parent descriptor : Stride ω Unit) :=
    orderly_writeEntries standard parent descriptor
  cases parent with
  | none => exact rest
  | some directory =>
    have looks : Orderly Extends (Excused plan.config descriptor.visibleEntries)
        (get : Stride ω (Run ω)) :=
      fun run => ⟨refl_of Extends run, fun _ no => nomatch no⟩
    exact looks.bind fun _ => (orderly_job (orderly_write _)).bind fun _ => rest

/-- A call only adds to the session, and gives up for the entries that it shows if at all. -/
theorem orderly_display (parent : Option Entry) (entries : Option (List Entry)) :
    Orderly Extends
      (Excused plan.config ((entries.getD []).filter (Recursion.isShown plan.config parent)))
      (display plan parent entries : Stride ω Unit) := by
  generalize same : (entries.getD []).filter (Recursion.isShown plan.config parent) = shown
  intro run
  have collects : Orderly (Session.Adds "") (Excuse plan.config shown)
    (Descriptor.collect plan.config parent entries) := orderly_collect plan.config parent entries
  obtain ⟨adds, stops⟩ := collects run.session
  have extends_ : run.Extends { run with session :=
      ((Descriptor.collect plan.config parent entries).run.run run.session).2 } :=
    ⟨rfl, .refl _, _, adds⟩
  unfold Stops at stops ⊢
  rw [run_display]
  rcases ran : (Descriptor.collect plan.config parent entries).run.run run.session with
    ⟨abort | error | _ | descriptor, session⟩
  all_goals rw [ran] at extends_ stops
  · exact ⟨extends_, fun abort given =>
      stops abort (congrArg Except.error (Except.error.inj given))⟩
  · have collected := collect_cases ran
    have mild : error.isFatal = false := by
      cases collected with
      | aborted => rfl
    obtain ⟨later, stops'⟩ := orderly_report mild { run with session }
    exact ⟨trans_of Extends extends_ later, fun abort given =>
      Regular.back extends_ (stops' abort given)⟩
  · exact ⟨extends_, fun _ no => nomatch no⟩
  · obtain ⟨later, stops'⟩ := orderly_writeBlock standard parent descriptor { run with session }
    have visible : descriptor.visibleEntries = shown := by
      cases collect_cases ran with
      | measured _ _ visible => rw [visible, same]
    rw [visible] at stops'
    exact ⟨trans_of Extends extends_ later, fun abort given =>
      Regular.back extends_ (stops' abort given)⟩

/-! ## What is written -/

omit standard in
/-- What a call of `display` writes. -/
def Display.text (plan : Plan) (call : Display ω) : String :=
  let after := ((display plan call.parent call.entries).run.run call.before).2
  String.ofList (after.session.output.toList.drop call.before.session.output.toList.length)

omit standard in
/-- What stands above the block of a call, if it writes one. -/
def Display.heading (call : Display ω) : String :=
  call.parent.elim "" (header call.before.state)

omit standard in
theorem Display.text_eq {call : Display ω} {text : String}
    (output : ((display plan call.parent call.entries).run.run call.before).2.session.output =
      call.before.session.output ++ text) : call.text plan = text := by
  rw [Display.text, output, String.toList_append, List.drop_left, String.ofList_toList]

theorem output_display (call : Display ω) :
    ((display plan call.parent call.entries).run.run call.before).2.session.output =
      call.before.session.output ++ call.text plan := by
  obtain ⟨text, adds⟩ := (orderly_display standard call.parent call.entries call.before).1.session
  rw [adds.output, Display.text_eq adds.output]

omit standard in
theorem output_writeEntries (parent : Option Entry) (descriptor : Descriptor) (run : Run ω) :
    ((writeEntries plan parent descriptor).run.run run).2.session.output =
      ((plan.renderer.render plan.config descriptor).run.run run.session).2.output := by
  rw [run_writeEntries]
  rcases (plan.renderer.render plan.config descriptor).run.run run.session with ⟨_ | _, _⟩ <;> rfl

/-- A block is what the renderer writes under the heading. -/
theorem output_writeBlock (parent : Option Entry) (descriptor : Descriptor) (run : Run ω) :
    ∃ text before, ((plan.renderer.render plan.config descriptor).run.run before).2.output =
        before.output ++ text ∧
      ((writeBlock plan parent descriptor).run.run run).2.session.output =
        run.session.output ++ (parent.elim "" (header run.state) ++ text) := by
  obtain ⟨text, adds⟩ := (orderly_render standard descriptor (run.headed parent).session).1
  refine ⟨text, (run.headed parent).session, adds.output, ?_⟩
  rw [run_writeBlock, output_writeEntries, adds.output, ← String.append_assoc]
  rfl

/-- What a call writes of a descriptor is what the renderer writes under the heading. -/
theorem text_of_collect {call : Display ω} {descriptor : Descriptor} {session : Session}
    (collected : Settles (Descriptor.collect plan.config call.parent call.entries)
      call.before.session (.ok (some descriptor)) session) :
    ∃ text before, ((plan.renderer.render plan.config descriptor).run.run before).2.output =
      before.output ++ text ∧ call.text plan = call.heading ++ text := by
  have same := output_collect plan.config call.parent call.entries call.before.session
  have ran := run_display plan call.parent call.entries call.before
  rw [collected] at same ran
  obtain ⟨text, before, rendered, wrote⟩ :=
    output_writeBlock standard call.parent descriptor { call.before with session }
  refine ⟨text, before, rendered, Display.text_eq ?_⟩
  rw [ran]
  exact wrote.trans (congrArg (· ++ _) same)

/-- A call writes nothing, or it writes a block under its heading. -/
theorem text_cases (call : Display ω) :
    call.text plan = "" ∨ ∃ descriptor session text,
      Settles (Descriptor.collect plan.config call.parent call.entries) call.before.session
        (.ok (some descriptor)) session ∧ call.text plan = call.heading ++ text := by
  have same := output_collect plan.config call.parent call.entries call.before.session
  have ran := run_display plan call.parent call.entries call.before
  rcases collected : (Descriptor.collect plan.config call.parent call.entries).run.run
    call.before.session with ⟨abort | error | _ | descriptor, session⟩
  all_goals rw [collected] at ran same
  · left
    refine Display.text_eq ?_
    rw [ran, String.append_empty]
    exact same
  · left
    refine Display.text_eq ?_
    rw [ran]
    dsimp only
    rw [run_report, String.append_empty]
    exact same
  · left
    refine Display.text_eq ?_
    rw [ran, String.append_empty]
    exact same
  · right
    obtain ⟨text, _, -, wrote⟩ := text_of_collect standard collected
    exact ⟨descriptor, session, text, collected, wrote⟩

/-! ## Listings -/

omit standard in
/-- What calls write, one after another. -/
def texts (plan : Plan) (calls : List (Display ω)) : String :=
  String.join (calls.map (Display.text plan))

omit standard in
theorem texts_append (calls calls' : List (Display ω)) :
    texts plan (calls ++ calls') = texts plan calls ++ texts plan calls' := by
  rw [texts, List.map_append, String.join_append]
  rfl

omit standard in
/-- An action on a source comes to its answer in the files that there are. -/
theorem run_onSource {ε α : Type} [GivesUp ε] (action : Source ω → Access (Except ε α × Source ω))
    (run : Run ω) :
    (onSource action).run.run run =
      match (action run.source).run.run run.session.world.files with
      | (.ok (.ok answer, source), files) =>
        (.ok answer, { run with
          source, session := { run.session with world := { run.session.world with files } } })
      | (.ok (.error error, source), files) =>
        (.error (GivesUp.abort error), { run with
          source, session := { run.session with world := { run.session.world with files } } })
      | (.error _, files) =>
        (.error .interrupted, { run with
          session := { run.session with world := { run.session.world with files } } }) := by
  unfold onSource
  rw [run_get_bind, run_bind, run_job, Job.run_access]
  rcases (action run.source).run.run run.session.world.files with ⟨_ | ⟨_ | _, _⟩, _⟩ <;> rfl

omit standard in
/-- An action on the source changes nothing else but the files. -/
theorem exists_of_onSource {ε α : Type} [GivesUp ε]
    {action : Source ω → Access (Except ε α × Source ω)} {run run' : Run ω} {answer : α}
    (settles : Settles (onSource action) run answer run') :
    ∃ files source, run' = { run with
      source, session := { run.session with world := { run.session.world with files } } } := by
  unfold Settles at settles
  rw [run_onSource] at settles
  rcases ran : (action run.source).run.run run.session.world.files with ⟨_ | ⟨_ | _, _⟩, _⟩
  all_goals
    rw [ran] at settles
    cases settles
  exact ⟨_, _, rfl⟩

omit standard in
/-- `HasWritten plan before calls session`: what was written since `before` is what the calls have
written. -/
def HasWritten (plan : Plan) (before : String) (calls : List (Display ω)) (session : Session) :
    Prop :=
  session.output = before ++ texts plan calls

omit standard in
/-- Nothing is written but by calls. -/
theorem keeping_written (plan : Plan) (before : String) :
    Keeping ω (HasWritten plan before : List (Display ω) → Session → Prop) fun _ => [] := by
  refine ⟨fun action calls run written => ?_, fun error calls run written => ?_⟩
  · rw [List.append_nil, run_onSource]
    rcases (action run.source).run.run run.session.world.files with ⟨_ | ⟨_ | _, _⟩, _⟩ <;>
      exact written
  · rw [List.append_nil, run_report]
    exact written

/-- A listing writes what its calls write, also if it is given up. -/
theorem list_output (paths : List String) (run : Run ω) :
    ((list plan paths).run.run run).2.session.output =
      run.session.output ++ texts plan (listDisplays plan paths run) := by
  have calls : ∀ parent entries, Logs (HasWritten plan run.session.output)
      (display plan parent entries : Stride ω Unit) fun run => [⟨parent, entries, run⟩] := by
    intro parent entries past run' written
    have wrote := output_display standard ⟨parent, entries, run'⟩
    rw [written, String.append_assoc] at wrote
    have one : texts plan [(⟨parent, entries, run'⟩ : Display ω)] =
        Display.text plan ⟨parent, entries, run'⟩ := by
      rw [texts, List.map_singleton, String.join_cons, String.join_nil, String.append_empty]
    rw [HasWritten, texts_append, one]
    exact wrote
  have nothing : HasWritten plan run.session.output ([] : List (Display ω)) run.session :=
    String.append_empty.symm
  exact (keeping_written plan run.session.output).list_calls calls paths [] run nothing

end Standard
end Run

/-! ## Outcomes -/

section Outcomes

variable {table : RendererTable} {config : Config} {plan : Plan} {world : World} {kind : PolicyKind}
  {paths : List String} {outcome : Outcome}

theorem Plan.ofConfig_eq_ok (planned : Plan.ofConfig table config = .ok plan) :
    plan.config = config ∧ plan.options = config.walkOptions ∧
      table.select config = .ok plan.renderer ∧ config.problems = [] := by
  unfold Plan.ofConfig at planned
  split at planned
  · cases planned
  next accepted =>
    have accepted : config.problems = [] := by simpa using accepted
    cases unsorted : config.unsorted <;> cases ordered : config.listingOrder <;>
      cases selected : table.select config <;> rw [unsorted, ordered, selected] at planned <;>
      cases planned
    all_goals exact ⟨rfl, rfl, rfl, accepted⟩

theorem Plan.select_of_planned (planned : Plan.ofConfig table config = .ok plan) :
    table.select plan.config = .ok plan.renderer := by
  obtain ⟨same, -, selected, -⟩ := Plan.ofConfig_eq_ok planned
  rw [same]
  exact selected

/-- The order of a plan is the one that its configuration asks for, unless it keeps the order of
directories. -/
theorem Plan.order_of_planned (planned : Plan.ofConfig table config = .ok plan) :
    plan.order = if config.unsorted then none else config.listingOrder.toOption := by
  unfold Plan.ofConfig at planned
  split at planned
  · cases planned
  cases unsorted : config.unsorted <;> cases ordered : config.listingOrder <;>
    cases selected : table.select config <;> rw [unsorted, ordered, selected] at planned <;>
    cases planned
  all_goals rfl

/-- A configuration without problems asks for a renderer that there is. -/
theorem Config.exists_renderer (accepted : config.problems = []) :
    ∃ renderer, RendererTable.standard.select config = .ok renderer := by
  simp only [Config.problems, List.append_eq_nil_iff] at accepted
  obtain ⟨⟨-, mode⟩, -⟩ := accepted
  unfold RendererTable.select
  cases chosen : config.displayMode with
  | unknown text =>
    rw [chosen] at mode
    cases mode
  | known mode => cases mode <;> exact ⟨_, rfl⟩

/-- A configuration without problems asks for an order that there is. -/
theorem Config.exists_listingOrder (accepted : config.problems = []) :
    ∃ order, config.listingOrder = .ok order := by
  simp only [Config.problems, List.append_eq_nil_iff] at accepted
  obtain ⟨-, key⟩ := accepted
  unfold Config.listingOrder
  cases chosen : config.sortKey with
  | unknown text =>
    rw [chosen] at key
    cases key
  | known key => exact ⟨_, rfl⟩

/-- A configuration without problems has a plan. -/
theorem Plan.exists_of_accepted (accepted : config.problems = []) :
    ∃ plan, Plan.ofConfig .standard config = .ok plan := by
  obtain ⟨renderer, selected⟩ := Config.exists_renderer accepted
  obtain ⟨order, ordered⟩ := Config.exists_listingOrder accepted
  unfold Plan.ofConfig
  rw [accepted, ordered, selected]
  cases config.unsorted <;> exact ⟨_, rfl⟩

/-- `Concludes result outcome`: the outcome of a listing, by what its run has come to.

* `finished`: the run has come to its end.
* `fatal`: it was given up for an error that ends a walk, which is handed to the policy.
* `aborted`: it was given up for another reason. -/
inductive Concludes : Except Abort RunState × Run Walk → Outcome → Prop
  | finished {state : RunState} {run : Run Walk} :
      Concludes (.ok state, run) ⟨.ok state.exitStatus, run.session⟩
  | fatal {error : ListingError} {run : Run Walk} : error.isFatal = true →
      Concludes (.error (.listing error), run)
        ⟨if (run.session.policy.handle error).1 then .error (.listing error) else .ok 1,
          { run.session with policy := (run.session.policy.handle error).2 }⟩
  | aborted {abort : Abort} {run : Run Walk} : abort.IsMild →
      Concludes (.error abort, run) ⟨.error abort, run.session⟩

theorem listPaths_of_planned (world : World) (kind : PolicyKind) (paths : List String)
    (planned : Plan.ofConfig table config = .ok plan) :
    listPaths table world kind paths config =
      .ok ⟨((listPlanned plan paths).run.run (Session.fresh world kind)).1,
        ((listPlanned plan paths).run.run (Session.fresh world kind)).2⟩ := by
  unfold listPaths
  rw [planned]
  rfl

/-- Listing paths concludes what the run of its plan has come to. -/
theorem exists_concludes (world : World) (kind : PolicyKind) (paths : List String)
    (planned : Plan.ofConfig table config = .ok plan) :
    ∃ outcome, listPaths table world kind paths config = .ok outcome ∧
      Concludes ((Run.list plan (pathsOrDefault paths)).run.run (Run.fresh plan world kind))
        outcome := by
  refine ⟨_, listPaths_of_planned world kind paths planned, ?_⟩
  have fresh : Run.fresh plan world kind =
      { session := Session.fresh world kind, source := plan.source Walk.walker } := rfl
  unfold listPlanned
  rw [run_get_bind, fresh]
  dsimp only
  rcases (Run.list plan (pathsOrDefault paths)).run.run
      { session := Session.fresh world kind, source := plan.source Walk.walker } with
    ⟨abort | state, run⟩
  · cases abort with
    | listing error =>
      dsimp only
      rw [run_set_bind]
      cases fatal : error.isFatal with
      | true =>
        rw [if_pos rfl]
        have settled : (settleFatal error).run.run run.session =
            (if (run.session.policy.handle error).1 then .error (.listing error) else .ok 1,
              { run.session with policy := (run.session.policy.handle error).2 }) := by
          unfold settleFatal
          rw [run_bind, Job.run_report]
          cases (run.session.policy.handle error).1 <;> rfl
        rw [settled]
        exact .fatal fatal
      | false =>
        rw [if_neg Bool.false_ne_true]
        exact .aborted fun error' same => Abort.listing.inj same ▸ fatal
    | missingStatus | unknownTimeField | emptyBlocks | undatable | nullPath | interrupted =>
      exact .aborted fun _ no => by cases no
  · exact .finished

/-- Listing paths writes what its calls of `display` write. -/
theorem listPaths_output (planned : Plan.ofConfig .standard config = .ok plan)
    (given : listPaths .standard world kind paths config = .ok outcome) :
    outcome.session.output = Run.texts plan (Run.displays plan world kind paths) := by
  have standard := Plan.select_of_planned planned
  have output := Run.list_output standard (pathsOrDefault paths) (Run.fresh plan world kind)
  obtain ⟨_, given', concludes⟩ := exists_concludes world kind paths planned
  cases given.symm.trans given'
  have empty : (Run.fresh plan world kind).session.output = "" := rfl
  rw [empty, String.empty_append] at output
  generalize (Run.list plan (pathsOrDefault paths)).run.run (Run.fresh plan world kind) = result
    at output concludes
  cases concludes <;> exact output

/-- What gave an answer was not given up. -/
theorem ok_of_toOption {α : Type} {status : Except Abort α} {value : α}
    (ended : status.toOption = some value) : status = .ok value := by
  cases status with
  | error => cases ended
  | ok => exact congrArg Except.ok (Option.some.inj ended)

/-- Something about the plan and the outcome of a listing, where there is a plan. -/
def observed {α : Type} (world : World) (kind : PolicyKind) (paths : List String) (config : Config)
    (observe : Plan → Outcome → α) : Option α :=
  match Plan.ofConfig .standard config, listPaths .standard world kind paths config with
  | .ok plan, .ok outcome => some (observe plan outcome)
  | _, _ => none

theorem exists_of_observed {α : Type} {observe : Plan → Outcome → α} {value : α}
    (ran : observed world kind paths config observe = some value) :
    ∃ plan outcome, Plan.ofConfig .standard config = .ok plan ∧
      listPaths .standard world kind paths config = .ok outcome ∧ observe plan outcome = value := by
  unfold observed at ran
  split at ran
  next plan outcome planned given =>
    exact ⟨plan, outcome, planned, given, Option.some.inj ran⟩
  next => cases ran

/-- What was seen among calls about directories was seen of one of them. -/
theorem Run.exists_of_seen {α β : Type} {look : Entry → α} {see : Run.Display Walk → β}
    {calls : List (Run.Display Walk)} {seen : List (Option α × β)} {which : α} {what : β}
    (same : (calls.map fun call => (call.parent.map look, see call)) = seen)
    (member : (some which, what) ∈ seen) :
    ∃ call ∈ calls, ∃ directory, call.parent = some directory ∧ look directory = which ∧
      see call = what := by
  rw [← same] at member
  obtain ⟨call, inside, same⟩ := List.mem_map.mp member
  obtain ⟨looked, saw⟩ := Prod.mk.inj same
  obtain ⟨directory, parent, looked⟩ := Option.map_eq_some_iff.mp looked
  exact ⟨call, inside, directory, parent, looked, saw⟩

end Outcomes
end DirList
