import DirList.Proofs.Listing.Displaying
import DirList.Proofs.Listing.Making

/-!
# Runs side by side

A policy decides what becomes of an error, and nothing else in a run depends on it. So a step does
under a policy that goes on after errors what it does under one that only records them, and under a
policy that stops at errors it does the same up to the first one.

Results:
1. `Parallels.bind`: steps that are parallel one after another.
2. `parallels_list`: a listing does the same under every policy, up to an error that stops it.
3. `isOpen_list`: its walk is closed however it ends.
-/

namespace DirList

open FileSystem

/-! ## Other policies -/

/-- The policy of a kind that has recorded errors. -/
def Policy.after (kind : PolicyKind) (errors : List ListingError) : Policy where
  kind := kind
  errors := errors
  written :=
    match kind with
    | .report lead => String.join (errors.map (reportedLine lead))
    | .collect | .failFast => ""

theorem Policy.handle_after (kind : PolicyKind) (errors : List ListingError)
    (error : ListingError) :
    (after kind errors).handle error =
      (decide (kind = .failFast), after kind (errors ++ [error])) := by
  cases kind with
  | collect | failFast => rfl
  | report lead =>
    have line : String.join ((errors ++ [error]).map (reportedLine lead)) =
        String.join (errors.map (reportedLine lead)) ++ reportedLine lead error := by
      rw [List.map_append, String.join_append, List.map_singleton, String.join_cons,
        String.join_nil, String.append_empty]
    rw [after, after, line]
    rfl

/-- The session under a policy of another kind that has recorded the same errors. -/
def Session.under (kind : PolicyKind) (session : Session) : Session :=
  { session with policy := .after kind session.policy.errors }

/-- `NameTable.Later table table'`: the table may have kept more answers. -/
structure NameTable.Later (table table' : NameTable) : Prop where
  names : table'.names = table.names
  kept : ∀ row ∈ table'.kept, row ∈ table.kept ∨ row.2 = table.answer row.1

theorem NameTable.Later.refl (table : NameTable) : table.Later table :=
  ⟨rfl, fun _ => .inl⟩

theorem NameTable.Later.trans {table table' table'' : NameTable} (first : table.Later table')
    (second : table'.Later table'') : table.Later table'' := by
  refine ⟨second.names.trans first.names, fun row member => ?_⟩
  refine (second.kept row member).elim (first.kept row) fun answered => .inr ?_
  rw [answered, NameTable.answer, NameTable.answer, first.names]

theorem NameTable.later_resolve (table : NameTable) (numericOnly : Bool) (id : Int) :
    table.Later (table.resolve numericOnly id).2 := by
  unfold resolve
  split
  · exact .refl table
  split
  · exact .refl table
  dsimp only
  split
  · exact ⟨rfl, fun _ => .inl⟩
  · refine ⟨rfl, fun row member => ?_⟩
    rcases List.mem_cons.mp member with rfl | known
    · exact .inr rfl
    · exact .inl known

/-- `Session.Later session session'`: more may have been written, recorded and asked. -/
structure Session.Later (session session' : Session) : Prop where
  kind : session'.policy.kind = session.policy.kind
  errors : session.policy.errors <+: session'.policy.errors
  output : ∃ text, session'.output = session.output ++ text
  owners : session.world.owners.Later session'.world.owners
  groups : session.world.groups.Later session'.world.groups

theorem Session.Later.refl (session : Session) : session.Later session :=
  ⟨rfl, List.prefix_rfl, ⟨"", String.append_empty.symm⟩, .refl _, .refl _⟩

theorem Session.Later.trans {session session' session'' : Session} (first : session.Later session')
    (second : session'.Later session'') : session.Later session'' := by
  obtain ⟨text, output⟩ := first.output
  obtain ⟨text', output'⟩ := second.output
  refine ⟨second.kind.trans first.kind, first.errors.trans second.errors, ⟨text ++ text', ?_⟩,
    first.owners.trans second.owners, first.groups.trans second.groups⟩
  rw [output', output, String.append_assoc]

/-- A session goes on when its files change. -/
theorem Session.later_files (session : Session) (files : FileSystem) :
    session.Later { session with world := { session.world with files } } :=
  ⟨rfl, List.prefix_rfl, ⟨"", String.append_empty.symm⟩, .refl _, .refl _⟩

/-- The session after an error was handed to its policy. -/
def Session.record (error : ListingError) (session : Session) : Session :=
  { session with policy := (session.policy.handle error).2 }

theorem Session.later_record (error : ListingError) (session : Session) :
    session.Later (session.record error) := by
  refine ⟨Policy.handle_kind _ _, ?_, ⟨"", String.append_empty.symm⟩, .refl _, .refl _⟩
  rw [record, Policy.errors_handle]
  exact List.prefix_append _ _

theorem Session.record_under (kind : PolicyKind) (error : ListingError) (session : Session) :
    (session.under kind).record error = (session.record error).under kind := by
  unfold under record
  rw [Policy.handle_after]
  dsimp only
  rw [Policy.errors_handle]

/-- States that hold a session: what they are under a policy of another kind, and how they go
on. -/
class Holder (σ : Type) where
  session : σ → Session
  under : PolicyKind → σ → σ
  Later : σ → σ → Prop
  session_under : ∀ kind state, session (under kind state) = (session state).under kind
  refl : ∀ state, Later state state
  trans : ∀ {state state' state''}, Later state state' → Later state' state'' → Later state state''
  later : ∀ {state state'}, Later state state' → (session state).Later (session state')

instance : Holder Session where
  session := id
  under := Session.under
  Later := Session.Later
  session_under := fun _ _ => rfl
  refl := .refl
  trans := .trans
  later := id

/-! ## Parallel steps -/

section Parallel

variable {σ α β : Type} [Holder σ] {kind : PolicyKind}

/-- `Parallel kind state result result'`: what comes of a step under a policy that only records, and
what comes of it under one of another kind.

* `along`: it does the same under both. If the other policy stops at errors, there was none.
* `stopped`: the other policy has stopped it at the first error. -/
inductive Parallel (kind : PolicyKind) (state : σ) :
    Except Abort α × σ → Except Abort α × σ → Prop
  | along {answer : Except Abort α} {after : σ} :
      (kind = .failFast → (Holder.session after).policy.errors =
        (Holder.session state).policy.errors) →
      Parallel kind state (answer, after) (answer, Holder.under kind after)
  | stopped {answer : Except Abort α} {after last : σ} {error : ListingError}
      {more : List ListingError} : kind = .failFast →
      (Holder.session after).policy.errors =
        (Holder.session state).policy.errors ++ error :: more →
      (Holder.session last).policy.kind = .failFast →
      (∃ text, (Holder.session after).output = (Holder.session last).output ++ text) →
      Parallel kind state (answer, after) (.error (.listing error), last)

/-- `Parallels kind step`: the step goes on from any state, and what it does under a policy that
only records it does under one of another kind too, up to an error that stops it. -/
def Parallels (kind : PolicyKind) (step : ExceptT Abort (StateM σ) α) : Prop :=
  ∀ state : σ, Holder.Later state (step.run.run state).2 ∧
    ((Holder.session state).policy.kind = .collect →
      Parallel kind state (step.run.run state) (step.run.run (Holder.under kind state)))

namespace Parallels

/-- A step that records nothing is parallel if it does not depend on the policy. -/
theorem along {step : ExceptT Abort (StateM σ) α}
    (later : ∀ state : σ, Holder.Later state (step.run.run state).2)
    (same : ∀ state : σ, step.run.run (Holder.under kind state) =
      ((step.run.run state).1, Holder.under kind (step.run.run state).2))
    (silent : ∀ state : σ, (Holder.session (step.run.run state).2).policy.errors =
      (Holder.session state).policy.errors) :
    Parallels kind step := by
  refine fun state => ⟨later state, fun _ => ?_⟩
  rw [same]
  exact .along fun _ => silent state

theorem pure (answer : α) : Parallels kind (Pure.pure answer : ExceptT Abort (StateM σ) α) :=
  .along Holder.refl (fun _ => rfl) fun _ => rfl

theorem throw (abort : Abort) :
    Parallels kind (MonadExcept.throw abort : ExceptT Abort (StateM σ) α) :=
  .along Holder.refl (fun _ => rfl) fun _ => rfl

/-- What is done after parallel steps, whatever their answer, is parallel. Past the error that has
stopped the one run, the other only goes on. -/
theorem onwards {state : σ} {result result' : Except Abort α × σ}
    {next : Except Abort α → ExceptT Abort (StateM σ) β}
    (collects : (Holder.session result.2).policy.kind = .collect)
    (parallel : Parallel kind state result result')
    (second : ∀ answer, Parallels kind (next answer))
    (stays : ∀ error last, (Holder.session last).policy.kind = .failFast →
      ∃ last', (next (.error (.listing error))).run.run last = (.error (.listing error), last') ∧
        (Holder.session last').policy.kind = .failFast ∧
        (Holder.session last').output = (Holder.session last).output) :
    Parallel kind state ((next result.1).run.run result.2)
      ((next result'.1).run.run result'.2) := by
  cases parallel with
  | @along answer after silent =>
    have parallel := (second answer after).2 collects
    dsimp only
    generalize (next answer).run.run (Holder.under kind after) = other at parallel
    generalize (next answer).run.run after = result at parallel
    cases parallel with
    | along silent' => exact .along fun stops => (silent' stops).trans (silent stops)
    | stopped stops errors strict output =>
      rw [silent stops] at errors
      exact .stopped stops errors strict output
  | @stopped answer after last error more stops errors strict output =>
    have later := Holder.later (second answer after).1
    dsimp only
    generalize (next answer).run.run after = result at later
    obtain ⟨more', errors'⟩ := later.errors
    obtain ⟨text', output'⟩ := later.output
    obtain ⟨text, output⟩ := output
    obtain ⟨last', ran, strict', same⟩ := stays error last strict
    rw [errors, List.append_assoc, List.cons_append] at errors'
    rw [output, String.append_assoc, ← same] at output'
    rw [ran]
    exact .stopped stops errors'.symm strict' ⟨text ++ text', output'⟩

/-- Parallel steps one after another are parallel. -/
theorem bind {step : ExceptT Abort (StateM σ) α} {next : α → ExceptT Abort (StateM σ) β}
    (first : Parallels kind step) (second : ∀ answer, Parallels kind (next answer)) :
    Parallels kind (step >>= next) := by
  have goesOn : ∀ answer : Except Abort α, Parallels kind (ofExcept answer >>= next) := by
    intro answer
    cases answer with
    | error abort => exact .throw abort
    | ok answer => exact second answer
  have split : ∀ state : σ, (step >>= next).run.run state =
      (ofExcept (step.run.run state).1 >>= next).run.run (step.run.run state).2 := by
    intro state
    rw [run_bind]
    rcases step.run.run state with ⟨_ | _, _⟩ <;> rfl
  intro state
  obtain ⟨later, parallel⟩ := first state
  rw [split, split]
  refine ⟨Holder.trans later (goesOn _ _).1, fun collects => ?_⟩
  exact onwards ((Holder.later later).kind.trans collects) (parallel collects) goesOn
    fun _ last strict => ⟨last, rfl, strict, rfl⟩

/-- A step that hands an error to the policy and does no more than to note this is parallel. -/
theorem reporting {step : ExceptT Abort (StateM σ) Unit} (error : ListingError) (note : σ → σ)
    (runs : ∀ state : σ, step.run.run state =
      (if ((Holder.session state).policy.handle error).1 then .error (.listing error) else .ok (),
        note state))
    (later : ∀ state, Holder.Later state (note state))
    (errors : ∀ state, (Holder.session (note state)).policy.errors =
      (Holder.session state).policy.errors ++ [error])
    (blind : ∀ state, note (Holder.under kind state) = Holder.under kind (note state)) :
    Parallels kind step := by
  refine fun state => ⟨by rw [runs]; exact later state, fun collects => ?_⟩
  have goesOn : ((Holder.session state).policy.handle error).1 = false :=
    Policy.handle_lenient (fun strict => nomatch collects.symm.trans strict) error
  have stops : ((Holder.session (Holder.under kind state)).policy.handle error).1 =
      decide (kind = .failFast) := by
    rw [Holder.session_under]
    exact congrArg Prod.fst (Policy.handle_after kind _ error)
  rw [runs, runs, goesOn, stops, blind, if_neg Bool.false_ne_true]
  by_cases strict : kind = .failFast
  · rw [if_pos (decide_eq_true strict)]
    refine .stopped strict (errors state) ?_ ⟨"", ?_⟩
    · rw [Holder.session_under]
      exact strict
    · rw [Holder.session_under]
      exact String.append_empty.symm
  · rw [if_neg (by simpa using strict)]
    exact .along fun same => absurd same strict

/-- A step may look at what does not depend on the policy. -/
theorem get_bind {γ : Type} (look : σ → γ) (next : γ → ExceptT Abort (StateM σ) β)
    (blind : ∀ state, look (Holder.under kind state) = look state)
    (second : ∀ seen, Parallels kind (next seen)) :
    Parallels kind (MonadState.get >>= fun state => next (look state)) := by
  intro state
  have parallel := second (look state) state
  have looked : (next (look (Holder.under kind state))).run.run (Holder.under kind state) =
      (next (look state)).run.run (Holder.under kind state) := by
    rw [blind]
  rw [← looked] at parallel
  exact parallel

/-- What is done in the end, whatever a step has come to, is parallel if it records and writes
nothing. -/
theorem closing {step : ExceptT Abort (StateM σ) α} {change : σ → σ}
    (parallels : Parallels kind step) (later : ∀ state, Holder.Later state (change state))
    (blind : ∀ state, change (Holder.under kind state) = Holder.under kind (change state))
    (silent : ∀ state, (Holder.session (change state)).policy = (Holder.session state).policy)
    (quiet : ∀ state, (Holder.session (change state)).output = (Holder.session state).output) :
    Parallels kind (try step finally modify change) := by
  intro state
  obtain ⟨later', parallel⟩ := parallels state
  rw [run_finally, run_finally]
  refine ⟨Holder.trans later' (later _), fun collects => ?_⟩
  have parallel := parallel collects
  generalize step.run.run (Holder.under kind state) = other at parallel
  generalize step.run.run state = result at parallel
  cases parallel with
  | along same =>
    rw [blind]
    exact .along fun stops => (congrArg Policy.errors (silent _)).trans (same stops)
  | stopped stops errors strict output =>
    refine .stopped stops ((congrArg Policy.errors (silent _)).trans errors) ?_ ?_
    · rwa [silent]
    · rwa [quiet, quiet]

end Parallels
end Parallel

/-! ## Jobs -/

section Jobs

variable {α : Type} {kind : PolicyKind}

/-- A job that touches nothing but the world is parallel. -/
theorem Parallels.ofWorld {job : Job α} (act : World → Except Abort α × World)
    (tables : ∀ world : World, world.owners.Later (act world).2.owners ∧
      world.groups.Later (act world).2.groups)
    (runs : ∀ session, job.run.run session =
      ((act session.world).1, { session with world := (act session.world).2 })) :
    Parallels kind job := by
  refine .along (fun session => ?_) (fun session => ?_) fun session => ?_
  · rw [runs]
    exact ⟨rfl, List.prefix_rfl, ⟨"", String.append_empty.symm⟩, (tables _).1, (tables _).2⟩
  · rw [runs, runs]
    rfl
  · rw [runs]
    rfl

theorem parallels_access (action : Access α) : Parallels kind (Job.access action) := by
  refine .ofWorld (fun world =>
    ((action.run.run world.files).1.mapError fun _ => .interrupted,
      { world with files := (action.run.run world.files).2 })) (fun world => ⟨.refl _, .refl _⟩)
    fun session => ?_
  rw [Job.run_access]
  rcases action.run.run session.world.files with ⟨_ | _, _⟩ <;> rfl

theorem parallels_ownerName (numericOnly : Bool) (id : Int) :
    Parallels kind (Job.ownerName numericOnly id) :=
  .ofWorld (fun world => (.ok (world.owners.resolve numericOnly id).1,
    { world with owners := (world.owners.resolve numericOnly id).2 }))
    (fun world => ⟨world.owners.later_resolve _ _, .refl _⟩) fun _ => rfl

theorem parallels_groupName (numericOnly : Bool) (id : Int) :
    Parallels kind (Job.groupName numericOnly id) :=
  .ofWorld (fun world => (.ok (world.groups.resolve numericOnly id).1,
    { world with groups := (world.groups.resolve numericOnly id).2 }))
    (fun world => ⟨.refl _, world.groups.later_resolve _ _⟩) fun _ => rfl

theorem parallels_now : Parallels kind Job.now :=
  .ofWorld (fun world => (.ok world.now.measured, world)) (fun _ => ⟨.refl _, .refl _⟩)
    fun _ => rfl

theorem parallels_write (text : String) : Parallels kind (Job.write text) :=
  .along (fun _ => ⟨rfl, List.prefix_rfl, ⟨text, rfl⟩, .refl _, .refl _⟩) (fun _ => rfl)
    fun _ => rfl

theorem parallels_changeHeld (change : List Annotation → List Annotation) :
    Parallels kind (Job.changeHeld change) :=
  .along (fun _ => ⟨rfl, List.prefix_rfl, ⟨"", String.append_empty.symm⟩, .refl _, .refl _⟩)
    (fun _ => rfl) fun _ => rfl

theorem parallels_report (error : ListingError) : Parallels kind (Job.report error) :=
  .reporting error (Session.record error) (Job.run_report error) (Session.later_record error)
    (fun _ => Policy.errors_handle _ _) (Session.record_under kind error)

end Jobs

/-- What is made of single steps is parallel. -/
theorem Job.IsMade.parallels {α : Type} {kind : PolicyKind} {job : Job α} (made : job.IsMade) :
    Parallels kind job := by
  induction made with
  | pure answer => exact .pure answer
  | throw abort => exact .throw abort
  | bind _ _ first second => exact first.bind second
  | write text => exact parallels_write text
  | report error => exact parallels_report error
  | ownerName numericOnly id => exact parallels_ownerName numericOnly id
  | groupName numericOnly id => exact parallels_groupName numericOnly id
  | changeHeld change => exact parallels_changeHeld change
  | now => exact parallels_now
  | readLink => exact parallels_access _

/-! ## Sources -/

namespace Source

variable {ω : Type}

/-- `Source.Later source source'`: the source may have gone on to another walk, and it still knows a
walk if it did. -/
structure Later (source source' : Source ω) : Prop where
  wiring : source' = { source with
    last := source'.last
    isOpen := source'.isOpen
    started := source'.started }
  last : source.last.isSome = true → source'.last.isSome = true

theorem Later.refl (source : Source ω) : source.Later source :=
  ⟨rfl, id⟩

theorem Later.trans {source source' source'' : Source ω} (first : source.Later source')
    (second : source'.Later source'') : source.Later source'' := by
  refine ⟨?_, second.last ∘ first.last⟩
  have wiring := second.wiring
  rw [first.wiring] at wiring
  exact wiring

theorem later_setWalk (source : Source ω) (walk : ω) : source.Later (source.setWalk walk) :=
  ⟨rfl, fun _ => rfl⟩

theorem later_close (source : Source ω) : source.Later source.close := by
  unfold close
  split
  · exact .refl source
  · exact ⟨rfl, fun _ => rfl⟩

end Source

/-! ## Runs -/

namespace Run

variable {ω : Type} {kind : PolicyKind}

/-- `Run.Later run run'`: the session and the source have gone on, and the run has not failed
without an error. -/
structure Later (run run' : Run ω) : Prop where
  session : run.session.Later run'.session
  failed : run'.state.hasFailed = true →
    run.state.hasFailed = true ∨ run'.session.policy.errors ≠ []
  source : run.source.Later run'.source

theorem Later.refl (run : Run ω) : run.Later run :=
  ⟨.refl _, .inl, .refl _⟩

theorem Later.trans {run run' run'' : Run ω} (first : run.Later run') (second : run'.Later run'') :
    run.Later run'' := by
  refine ⟨first.session.trans second.session, fun failed => ?_, first.source.trans second.source⟩
  rcases second.failed failed with before | now
  · exact (first.failed before).imp_right fun some none =>
      some (List.prefix_nil.mp (none ▸ second.session.errors))
  · exact .inr now

instance : Holder (Run ω) where
  session := Run.session
  under := fun kind run => { run with session := run.session.under kind }
  Later := Later
  session_under := fun _ _ => rfl
  refl := .refl
  trans := .trans
  later := Later.session

theorem parallels_job {α : Type} {work : Job α} (parallels : Parallels kind work) :
    Parallels kind (job work : Stride ω α) := by
  intro run
  obtain ⟨later, parallel⟩ := parallels run.session
  rw [run_job, run_job]
  refine ⟨⟨later, .inl, .refl _⟩, fun collects => ?_⟩
  have parallel := parallel collects
  change Parallel kind run (_, { run with session := (work.run.run run.session).2 })
    ((work.run.run (run.session.under kind)).1,
      { run with session := (work.run.run (run.session.under kind)).2 })
  change Parallel kind run.session _ (work.run.run (run.session.under kind)) at parallel
  generalize work.run.run (run.session.under kind) = other at parallel
  generalize work.run.run run.session = result at parallel
  cases parallel with
  | along silent => exact .along silent
  | stopped stops errors strict output => exact .stopped stops errors strict output

theorem parallels_report (error : ListingError) :
    Parallels kind (report error : Stride ω Unit) :=
  .reporting error
    (fun run => { run with
      session := run.session.record error, state := { run.state with hasFailed := true } })
    (run_report error)
    (fun run => ⟨run.session.later_record error, fun _ => .inr (by
      rw [Session.record, Policy.errors_handle]
      exact List.concat_ne_nil _ _), .refl _⟩)
    (fun _ => Policy.errors_handle _ _)
    fun run => congrArg (fun session : Session => ({ run with
      session, state := { run.state with hasFailed := true } } : Run ω))
      (Session.record_under kind error run.session)

/-- A run goes on when its source does. -/
theorem later_onSource {ε α : Type} [GivesUp ε]
    {action : Source ω → Access (Except ε α × Source ω)}
    {run : Run ω} (later : ∀ answer source files, Settles (action run.source)
      run.session.world.files (answer, source) files → run.source.Later source) :
    run.Later ((onSource action).run.run run).2 := by
  rw [run_onSource]
  rcases ran : (action run.source).run.run run.session.world.files with
    ⟨_ | ⟨answer, source⟩, files⟩
  · exact ⟨run.session.later_files files, .inl, .refl _⟩
  · cases answer <;> exact ⟨run.session.later_files files, .inl, later _ _ _ ran⟩

theorem parallels_onSource {ε α : Type} [GivesUp ε]
    {action : Source ω → Access (Except ε α × Source ω)}
    (later : ∀ source files answer source' files', Settles (action source) files (answer, source')
      files' → source.Later source') :
    Parallels kind (onSource action) := by
  have ran := run_onSource action
  refine .along (fun run => later_onSource (later _ _)) (fun run => ?_) fun run => ?_
  · have source : (Holder.under kind run).source = run.source := rfl
    have files : (Holder.under kind run).session.world.files = run.session.world.files := rfl
    rw [ran, ran, source, files]
    rcases (action run.source).run.run run.session.world.files with ⟨_ | ⟨_ | _, _⟩, _⟩ <;> rfl
  · rw [ran]
    rcases (action run.source).run.run run.session.world.files with ⟨_ | ⟨_ | _, _⟩, _⟩ <;> rfl

theorem parallels_children (directory : Option Entry) (namesOnly : Bool) :
    Parallels kind
      (onSource (Source.children directory namesOnly) : Stride ω (Option (List Entry))) := by
  refine parallels_onSource fun source files answer source' files' settles => ?_
  unfold Source.children at settles
  split at settles
  · cases settles
    exact .refl source
  · obtain ⟨⟨_, _⟩, _, -, settles⟩ := Settles.of_bind settles
    cases settles
    exact source.later_setWalk _

theorem parallels_read : Parallels kind (onSource Source.read : Stride ω (Option Entry)) := by
  refine parallels_onSource fun source files answer source' files' settles => ?_
  unfold Source.read at settles
  split at settles
  · cases settles
    exact .refl source
  · obtain ⟨⟨_, _⟩, _, -, settles⟩ := Settles.of_bind settles
    cases settles
    exact source.later_setWalk _

theorem parallels_skip (entry : Entry) : Parallels kind (skip entry : Stride ω Unit) := by
  refine parallels_onSource fun source files answer source' files' settles => ?_
  unfold Source.skip at settles
  cases open_ : source.walk? with
  | none =>
    rw [open_] at settles
    cases settles
    exact .refl source
  | some walk =>
    rw [open_] at settles
    cases settles
    exact source.later_setWalk _

theorem isOpen_close (source : Source ω) (known : source.last.isSome = true) :
    source.close.isOpen = false := by
  obtain ⟨walk, known⟩ := Option.isSome_iff_exists.mp known
  unfold Source.close Source.walk?
  cases open_ : source.isOpen with
  | false => simpa using open_
  | true => simp [known]

theorem parallels_start (paths : List String) :
    Parallels kind (onSource (Source.start paths) : Stride ω Unit) := by
  refine parallels_onSource fun source files answer source' files' settles => ?_
  obtain ⟨opened, _, -, settles⟩ := Settles.of_bind settles
  cases opened with
  | error =>
    cases settles
    exact source.later_close
  | ok walk =>
    cases settles
    exact source.later_close.trans ⟨rfl, fun _ => rfl⟩

/-- To note in the state of a run anything but a failure. -/
theorem parallels_changeState {change : RunState → RunState}
    (unfailed : ∀ state, (change state).hasFailed = true → state.hasFailed = true) :
    Parallels kind (changeState change : Stride ω Unit) :=
  .along (fun run => ⟨.refl _, fun failed => .inl (unfailed run.state failed), .refl _⟩)
    (fun _ => rfl) fun _ => rfl

section Standard

variable {plan : Plan} (standard : RendererTable.standard.select plan.config = .ok plan.renderer)

include standard

theorem parallels_writeEntries (parent : Option Entry) (descriptor : Descriptor) :
    Parallels kind (writeEntries plan parent descriptor : Stride ω Unit) := by
  refine .bind (.closing (parallels_job (isMade_render standard descriptor).parallels)
    (fun run => ?_) (fun _ => rfl) (fun _ => rfl) fun _ => rfl) fun _ =>
    parallels_changeState fun _ => id
  exact ⟨⟨rfl, List.prefix_rfl, ⟨"", String.append_empty.symm⟩, .refl _, .refl _⟩, .inl, .refl _⟩

theorem parallels_display (parent : Option Entry) (entries : Option (List Entry)) :
    Parallels kind (display plan parent entries : Stride ω Unit) := by
  unfold display
  refine (parallels_job (isMade_collect plan.config parent entries).parallels).bind fun answer => ?_
  rcases answer with error | _ | descriptor
  · exact parallels_report error
  · exact .pure ()
  have writes : Parallels kind (writeEntries plan parent descriptor : Stride ω Unit) :=
    parallels_writeEntries standard parent descriptor
  cases parent with
  | none => exact writes
  | some directory =>
    have heads : Parallels kind (do
        job (Job.write (header (← get).state directory)) : Stride ω Unit) :=
      .get_bind Run.state (fun state => job (Job.write (header state directory))) (fun _ => rfl)
        fun _ => parallels_job (parallels_write _)
    exact heads.bind fun _ => writes

theorem parallels_react (namesOnly : Bool) (event : Entry) :
    Parallels kind (react plan namesOnly event : Stride ω Unit) := by
  unfold react
  cases event.kind with
  | directory =>
    dsimp only
    unfold enter
    split
    · exact parallels_skip event
    · refine (parallels_children _ _).bind fun entries => ?_
      refine (parallels_display standard (some event) entries).bind fun _ => ?_
      split
      · exact parallels_skip event
      · exact .pure _
  | cycle | unreadable | error => exact parallels_report _
  | finished | file | symlink | dangling | other | dot | noStatus | unasked => exact .pure _

theorem parallels_follow (namesOnly : Bool) (fuel : Nat) :
    Parallels kind (follow plan namesOnly fuel : Stride ω Unit) := by
  induction fuel with
  | zero => exact .pure _
  | succ fuel ih =>
    refine parallels_read.bind fun event => ?_
    cases event with
    | none => exact .pure _
    | some event => exact (parallels_react standard namesOnly event).bind fun _ => ih

variable (kind) in
theorem parallels_walkRoots : Parallels kind (walkRoots plan : Stride ω Unit) := by
  refine (parallels_children _ _).bind fun entries => ?_
  refine (parallels_display standard none entries).bind fun _ => ?_
  split
  · exact .get_bind
      (fun run : Run ω =>
        (run.source.options.skipStatus, run.source.budget run.session.world.files + 1))
      (fun seen => follow plan (!plan.config.recursive && seen.1) seen.2) (fun _ => rfl)
      fun _ => parallels_follow standard _ _
  · exact .pure _

omit standard in
theorem parallels_finish : Parallels kind (finish : Stride ω RunState) := by
  refine .along (fun run => ?_) (fun run => ?_) fun run => ?_
  · rw [run_finish]
    refine ⟨.refl _, fun failed => ?_, .refl _⟩
    exact (Bool.or_eq_true_iff.mp failed).imp_right fun recorded => by
      simpa [Policy.hasFailed] using recorded
  · rw [run_finish, run_finish]
    rfl
  · rw [run_finish]
    rfl

/-- The walk is closed however the run ends. -/
theorem isOpen_list (paths : List String) {run : Run ω} (closed : run.source.isOpen = false) :
    ((list plan paths).run.run run).2.source.isOpen = false := by
  have unopened : run.source.close = run.source := by
    unfold Source.close Source.walk?
    rw [closed]
    rfl
  rw [run_list, run_onSource]
  rcases ran : (Source.start paths (run.atStart paths).source).run.run
    (run.atStart paths).session.world.files with ⟨_ | ⟨answer, source⟩, files⟩
  · exact closed
  obtain ⟨opened, _, -, settles⟩ := Settles.of_bind ran
  cases opened with
  | error =>
    cases settles
    exact (congrArg Source.isOpen unopened).trans closed
  | ok walk =>
    cases settles
    dsimp only
    generalize same : (Run.mk _ _ _ : Run ω) = opened
    have later := (parallels_walkRoots .collect standard opened).1
    have known : opened.source.last.isSome = true := by
      rw [← same]
      rfl
    generalize (walkRoots plan).run.run opened = result at later
    have shut := isOpen_close _ (later.source.last known)
    obtain ⟨_ | _, after⟩ := result
    · exact shut
    · dsimp only
      rw [run_finish]
      exact shut

variable (kind) in
/-- A listing does the same under every policy, up to an error that stops it. -/
theorem parallels_list (paths : List String) :
    Parallels kind (list plan paths : Stride ω RunState) := by
  have begins : Parallels kind
      (changeState fun _ => { rootCount := paths.length } : Stride ω Unit) :=
    parallels_changeState fun _ no => nomatch no
  refine begins.bind fun _ => (parallels_start paths).bind fun _ => ?_
  refine .bind (.closing (parallels_walkRoots kind standard)
    (fun run => ⟨.refl _, .inl, Source.later_close run.source⟩) (fun _ => rfl) (fun _ => rfl)
    fun _ => rfl) fun _ => parallels_finish

end Standard
end Run

/-! ## Listings -/

section Listings

variable {config : Config} {plan : Plan} {world : World} {kind : PolicyKind} {paths : List String}

/-- What becomes of the answer of a run. -/
def settleAnswer : Except Abort RunState → Job Nat
  | .ok state => pure state.exitStatus
  | .error (.listing error) => if error.isFatal then settleFatal error else throw (.listing error)
  | .error abort => throw abort

theorem run_listPlanned (plan : Plan) (paths : List String) (session : Session) :
    (listPlanned plan paths).run.run session =
      (settleAnswer ((Run.list plan (pathsOrDefault paths)).run.run
        { session, source := plan.source Walk.walker }).1).run.run
        ((Run.list plan (pathsOrDefault paths)).run.run
          { session, source := plan.source Walk.walker }).2.session :=
  rfl

theorem selects_settleAnswer (answer : Except Abort RunState) : (settleAnswer answer).Selects := by
  rcases answer with (error | _ | _ | _ | _ | _ | _) | state
  · change (if error.isFatal then settleFatal error else throw (.listing error) : Job Nat).Selects
    split
    · exact .bind (.report error) fun _ => .pure 1
    · exact .throw _
  all_goals first | exact .throw _ | exact .pure _

/-- An error that has stopped a run is the one that listing paths is given up for. -/
theorem run_settleAnswer_listing (error : ListingError) {session : Session}
    (strict : session.policy.kind = .failFast) :
    ∃ session', (settleAnswer (.error (.listing error))).run.run session =
      (.error (.listing error), session') ∧ session'.policy.kind = .failFast ∧
        session'.output = session.output := by
  change ∃ session', (if error.isFatal then settleFatal error
    else throw (.listing error) : Job Nat).run.run session = _ ∧ _
  split
  · have stops : (session.policy.handle error).1 = true := by
      rw [Policy.handle, strict]
    refine ⟨session.record error, ?_, (Policy.handle_kind _ _).trans strict, rfl⟩
    unfold settleFatal
    rw [run_bind, Job.run_report, stops, if_pos rfl]
    rfl
  · exact ⟨session, rfl, strict, rfl⟩

/-- What was parallel in runs was parallel in their sessions. -/
theorem Parallel.session {α : Type} {run : Run Walk} {result result' : Except Abort α × Run Walk}
    (parallel : Parallel kind run result result') :
    Parallel kind run.session (result.1, result.2.session) (result'.1, result'.2.session) := by
  cases parallel with
  | along silent => exact .along silent
  | stopped stops errors strict output => exact .stopped stops errors strict output

variable (kind) in
/-- Listing paths by a plan does the same under every policy, up to an error that stops it. -/
theorem parallels_listPlanned
    (standard : RendererTable.standard.select plan.config = .ok plan.renderer)
    (paths : List String) : Parallels kind (listPlanned plan paths) := by
  intro session
  obtain ⟨later, parallel⟩ := Run.parallels_list kind standard (pathsOrDefault paths)
    ({ session, source := plan.source Walk.walker } : Run Walk)
  have settles : ∀ answer, Parallels kind (settleAnswer answer) :=
    fun answer => (selects_settleAnswer answer).isMade.parallels
  rw [run_listPlanned, run_listPlanned]
  refine ⟨later.session.trans (settles _ _).1, fun collects => ?_⟩
  exact Parallels.onwards (later.session.kind.trans collects) (parallel collects).session
    settles fun error _ strict => run_settleAnswer_listing error strict

end Listings
end DirList
