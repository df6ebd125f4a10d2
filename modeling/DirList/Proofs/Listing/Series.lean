import DirList.Proofs.Listing.Parallel
import DirList.Proofs.Listing.Resuming
import DirList.Proofs.Listing.Staging

/-!
# Listings one after another

A plan can be used for many listings. All of them hand their errors to the same policy and ask the
same tables for names, and a controller goes on to its next listing with the source that it has. In
a world that does not change, a listing writes and reports what it does by a plan that was not used
before, whatever was listed before and however that has ended. But the policy remembers the errors
of earlier listings, and so the run counts as failed if there was one.

Results:
1. `Run.repeats_finish`: an error of an earlier run makes the run a failed one.
2. `Run.idle_list`: a listing leaves a source that no walk is open in.
3. `Run.repeats_list`: what comes of a listing in a session that was used before.
4. `Series.listing_repeats`: what comes of a listing after others by the same plan.
-/

namespace DirList

open FileSystem Walk

/-! ## Stages -/

/-- The state of a run that counts as failed if it has failed or if there was an error before it. -/
def RunState.recalling (failed : Bool) (state : RunState) : RunState :=
  { state with hasFailed := state.hasFailed || failed }

/-- `Repeats world past alone again`: what came of a run in a session that was used before is what
came of the run alone, but that it counts as failed in the end if there was an error before it. -/
structure Repeats {ω : Type} (world : World) (past : Session)
    (alone again : Except Abort RunState × Run ω) : Prop where
  session : Resumes world past alone.2.session again.2.session
  answer : again.1 = alone.1.map (RunState.recalling past.policy.hasFailed)
  state : again.2.state =
    if alone.1.isOk then alone.2.state.recalling past.policy.hasFailed else alone.2.state

section Stages

variable {ω : Type} {world : World} {plan : Plan} {past : Session} {alone run : Run ω}

/-- To finish does the same in a session that was used before, but for what it counts as failed. -/
theorem Run.repeats_finish (resumes : Run.Resumes world past alone run) :
    Repeats world past (finish.run.run alone) (finish.run.run run) := by
  have failed : (run.state.hasFailed || run.session.policy.hasFailed) =
      ((alone.state.hasFailed || alone.session.policy.hasFailed) || past.policy.hasFailed) := by
    rw [resumes.state, Policy.hasFailed, Policy.hasFailed, Policy.hasFailed,
      resumes.session.errors]
    cases past.policy.errors <;> simp
  have state : { run.state with
      hasFailed := run.state.hasFailed || run.session.policy.hasFailed } =
        RunState.recalling past.policy.hasFailed { alone.state with
          hasFailed := alone.state.hasFailed || alone.session.policy.hasFailed } := by
    rw [failed, resumes.state]
    rfl
  rw [run_finish, run_finish]
  exact ⟨resumes.session, congrArg Except.ok state, state⟩

/-- To go through stages and to finish does the same in a session that was used before, but for what
it counts as failed. -/
theorem Stage.repeats_runAll (static : world.files.IsStatic)
    (standard : RendererTable.standard.select plan.config = .ok plan.renderer) (rootCount : Nat)
    (stages : List Stage) (resumes : Resumes world past alone.session run.session) :
    Repeats world past ((runAll plan rootCount stages).run.run alone)
      ((runAll plan rootCount stages).run.run run) := by
  have mirrors : Mirrors (Run.Resumes world past) (performAll plan stages : Stride ω Unit) :=
    mirrors_performAll static standard stages
  obtain ⟨same, alike⟩ := mirrors { alone with state := { rootCount } }
    { run with state := { rootCount } } ⟨resumes, rfl⟩
  have runs : ∀ run : Run ω, (runAll plan rootCount stages).run.run run =
      (performAll plan stages >>= fun _ => Run.finish : Stride ω RunState).run.run
        { run with state := { rootCount } } := fun _ => rfl
  rw [runs, runs, run_bind, run_bind]
  generalize (performAll plan stages).run.run { run with state := { rootCount } } = result' at *
  generalize (performAll plan stages).run.run { alone with state := { rootCount } } = result at *
  obtain ⟨answer, after⟩ := result
  obtain ⟨answer', after'⟩ := result'
  cases same
  cases answer with
  | error abort => exact ⟨alike.session, rfl, alike.state⟩
  | ok answer => exact Run.repeats_finish alike

end Stages

/-! ## Listings -/

namespace Run

section Listings

variable {world : World} {plan : Plan} {kind : PolicyKind} {paths : List String} {run : Run Walk}

variable (standard : RendererTable.standard.select plan.config = .ok plan.renderer)

include standard

/-- A listing leaves a source that no walk is open in, however it ends. -/
theorem idle_list (paths : List String) (idle : run.source.IsIdle plan) :
    ((list plan paths).run.run run).2.source.IsIdle plan := by
  have closed : run.source.isOpen = false := by
    rw [idle]
    rfl
  have shut := isOpen_list standard paths closed
  have wiring := (parallels_list .collect standard paths run).1.source.wiring
  rw [idle, shut] at wiring
  exact wiring

/-- What comes of a listing in a session that was used before. -/
theorem repeats_list (static : world.files.IsStatic) (calm : world.files.IsCalm)
    (paths : List String) (hosts : world.forget.Hosts kind run.session)
    (idle : run.source.IsIdle plan) :
    Repeats world.forget run.session ((list plan paths).run.run (fresh plan world kind))
      ((list plan paths).run.run run) := by
  have fresh_idle : (fresh plan world kind).source.IsIdle plan := rfl
  cases fits : unfit paths with
  | some failure =>
    have fails : ∀ serial,
        Settles (Walk.start serial paths plan.options plan.comparator) world.files
          (.error failure) world.files :=
      settles_start_of_unfit static calm fits
    have fails' : Settles (Walk.start run.source.nextSerial paths plan.options plan.comparator)
        run.session.world.files (.error failure) run.session.world.files := by
      rw [show run.session.world.files = world.files from hosts.files]
      exact fails _
    rw [run_list_of_fails idle fails', run_list_of_fails fresh_idle (fails _)]
    exact ⟨hosts.resumes, rfl, rfl⟩
  | none =>
    obtain ⟨_, alone⟩ := amounts_list_of_idle static calm standard fits fresh_idle rfl
    obtain ⟨_, again⟩ := amounts_list_of_idle static calm standard fits idle hosts.files
    have resumes : DirList.Resumes world.forget run.session (fresh plan world kind).session
        run.session := hosts.resumes
    have static' : world.forget.files.IsStatic := static
    have repeats := Stage.repeats_runAll static' standard paths.length
      (Recursion.stages world.files plan paths) resumes
    rw [alone, again]
    exact ⟨repeats.session, repeats.answer, repeats.state⟩

end Listings
end Run

/-! ## Series of listings -/

/-- Listings one after another by one plan: the session that they share, and the sources of its
controllers, of which there are as many as anyone asks for. -/
structure Series where
  session : Session
  sources : Nat → Source Walk

namespace Series

/-- A plan that was not used before. -/
def fresh (plan : Plan) (world : World) (kind : PolicyKind) : Series where
  session := Session.fresh world kind
  sources := fun _ => plan.source Walk.walker

/-- The run that a controller is about to begin. -/
def run (series : Series) (controller : Nat) : Run Walk where
  session := series.session
  source := series.sources controller

/-- The series after a controller has listed paths. -/
def list (plan : Plan) (series : Series) (use : Nat × List String) : Series :=
  let run := ((Run.list plan use.2).run.run (series.run use.1)).2
  { session := run.session, sources := Function.update series.sources use.1 run.source }

/-- The series after a plan was used for listings: which controllers have listed what. -/
def after (plan : Plan) (world : World) (kind : PolicyKind) (uses : List (Nat × List String)) :
    Series :=
  uses.foldl (list plan) (fresh plan world kind)

/-- `series.IsReady plan world kind`: the next listing begins in the world, and with a walk of its
own. -/
structure IsReady (plan : Plan) (world : World) (kind : PolicyKind) (series : Series) : Prop where
  hosts : world.forget.Hosts kind series.session
  idle : ∀ controller, (series.sources controller).IsIdle plan

section Listings

variable {plan : Plan} {world : World} {kind : PolicyKind} {series : Series}

theorem isReady_fresh (plan : Plan) (names : world.HasStaticNames) (kind : PolicyKind) :
    (fresh plan world kind).IsReady plan world kind :=
  ⟨names.hosts_fresh kind, fun _ => rfl⟩

variable (standard : RendererTable.standard.select plan.config = .ok plan.renderer)
variable (static : world.files.IsStatic) (calm : world.files.IsCalm)

include standard static calm

/-- A listing leaves the series ready for the next one. -/
theorem IsReady.list (ready : series.IsReady plan world kind) (use : Nat × List String) :
    (series.list plan use).IsReady plan world kind := by
  obtain ⟨controller, paths⟩ := use
  have idle : (series.run controller).source.IsIdle plan := ready.idle controller
  have repeats := Run.repeats_list standard static calm paths
    (ready.hosts : world.forget.Hosts kind (series.run controller).session) idle
  refine ⟨ready.hosts.kind ▸ repeats.session.used, fun other => ?_⟩
  by_cases same : other = controller
  · subst same
    show (Function.update series.sources other _ other).IsIdle plan
    rw [Function.update_self]
    exact Run.idle_list standard paths idle
  · show (Function.update series.sources controller _ other).IsIdle plan
    rw [Function.update_of_ne same]
    exact ready.idle other

theorem isReady_after (names : world.HasStaticNames) (uses : List (Nat × List String)) :
    (after plan world kind uses).IsReady plan world kind := by
  have ready := isReady_fresh plan names kind
  unfold after
  generalize fresh plan world kind = series at ready
  induction uses generalizing series with
  | nil => exact ready
  | cons use uses ih => exact ih _ (ready.list standard static calm use)

end Listings

/-- Whatever listings a plan was used for, by whatever controllers and however they have ended: a
listing writes, reports and gives what it does by a plan that was not used before, but that the run
counts as failed in the end if the policy knows of an error of an earlier listing. -/
theorem listing_repeats {config : Config} {world : World} (static : world.files.IsStatic)
    (names : world.HasStaticNames) (calm : world.files.IsCalm) (accepted : config.problems = []) :
    ∃ plan, Plan.ofConfig .standard config = .ok plan ∧
      ∀ (kind : PolicyKind) (uses : List (Nat × List String)) (controller : Nat)
        (paths : List String),
        let past := after plan world kind uses
        let alone := (Run.list plan paths).run.run (Run.fresh plan world kind)
        let again := (Run.list plan paths).run.run (past.run controller)
        again.2.session.output = past.session.output ++ alone.2.session.output ∧
        again.2.session.policy.errors =
          past.session.policy.errors ++ alone.2.session.policy.errors ∧
        again.2.session.policy.written =
          past.session.policy.written ++ alone.2.session.policy.written ∧
        again.1 = alone.1.map (RunState.recalling past.session.policy.hasFailed) ∧
        again.2.state =
          if alone.1.isOk then alone.2.state.recalling past.session.policy.hasFailed
          else alone.2.state := by
  obtain ⟨plan, planned⟩ := Plan.exists_of_accepted accepted
  have standard := Plan.select_of_planned planned
  refine ⟨plan, planned, fun kind uses controller paths => ?_⟩
  have ready : (after plan world kind uses).IsReady plan world kind :=
    isReady_after standard static calm names uses
  have idle : ((after plan world kind uses).run controller).source.IsIdle plan :=
    ready.idle controller
  have repeats := Run.repeats_list standard static calm paths ready.hosts idle
  exact ⟨repeats.session.output, repeats.session.errors, repeats.session.written, repeats.answer,
    repeats.state⟩

/-! ## A sample -/

/-- A world with nothing but a file `f`. -/
def soleFile : World :=
  { (default : World) with
    files := .ofTree (.node "" (Client.sampleSketch .directory 0o040755) [
      .node "f" (Client.sampleSketch .leaf 0o100644) []]) }

theorem faults_soleFile : ∀ node ∈ soleFile.files.nodes, node.faults = {} := by
  decide +kernel

/-- The error about a path `n` that leads nowhere. -/
def nowhere : ListingError :=
  .ofCode .node "n" 2

/-- The file is listed alone, and by a new controller after another one was asked for the path that
leads nowhere. -/
theorem run_soleFile :
    (Plan.ofConfig .standard {}).toOption.map (fun plan =>
      let past := after plan soleFile .collect [(0, ["n"])]
      let alone := (Run.list plan ["f"]).run.run (Run.fresh plan soleFile .collect)
      let again := (Run.list plan ["f"]).run.run (past.run 1)
      ((past.session.output, past.session.policy.errors),
        (alone.1.toOption, alone.2.session.output, alone.2.session.policy.errors),
        again.1.toOption, again.2.session.policy.errors)) =
      some (("", [nowhere]),
        (some { rootCount := 1, hasOutput := true }, "f\n", []),
        some { rootCount := 1, hasOutput := true, hasFailed := true }, [nowhere]) := by
  decide +kernel

/-- The file is listed as it is alone, and the run counts as failed. -/
theorem listing_repeats_sample :
    ∃ plan, Plan.ofConfig .standard {} = .ok plan ∧
      let past := after plan soleFile .collect [(0, ["n"])]
      let again := (Run.list plan ["f"]).run.run (past.run 1)
      past.session.policy.errors = [nowhere] ∧ again.2.session.output = "f\n" ∧
        again.2.session.policy.errors = [nowhere] ∧
        again.1 = .ok { rootCount := 1, hasOutput := true, hasFailed := true } := by
  obtain ⟨plan, planned, repeats⟩ := listing_repeats (isStatic_of_faults faults_soleFile)
    ⟨List.forall_mem_nil _, List.forall_mem_nil _⟩ (isCalm_of_faults faults_soleFile)
    (by decide : ({} : Config).problems = [])
  obtain ⟨output, errors, -, answer, -⟩ := repeats .collect [(0, ["n"])] 1 ["f"]
  have ran := run_soleFile
  rw [planned] at ran
  obtain ⟨past, rest⟩ := Prod.mk.inj (Option.some.inj ran)
  obtain ⟨pastOutput, pastErrors⟩ := Prod.mk.inj past
  obtain ⟨aloneAnswer, aloneRest⟩ := Prod.mk.inj (Prod.mk.inj rest).1
  obtain ⟨aloneOutput, aloneErrors⟩ := Prod.mk.inj aloneRest
  refine ⟨plan, planned, pastErrors, ?_, ?_, ?_⟩
  · rw [output, pastOutput, aloneOutput]
    rfl
  · rw [errors, pastErrors, aloneErrors]
    rfl
  · rw [answer, ok_of_toOption aloneAnswer, Policy.hasFailed, pastErrors]
    rfl

/-- A listing that meets no error may count as failed for an error of an earlier one, which it does
not by a plan that was not used before. -/
theorem exists_failed_before :
    soleFile.files.IsStatic ∧ soleFile.HasStaticNames ∧ soleFile.files.IsCalm ∧
      ({} : Config).problems = [] ∧
      ∃ plan, Plan.ofConfig .standard {} = .ok plan ∧
        let past := after plan soleFile .collect [(0, ["n"])]
        let alone := (Run.list plan ["f"]).run.run (Run.fresh plan soleFile .collect)
        let again := (Run.list plan ["f"]).run.run (past.run 1)
        again.2.session.policy.errors = past.session.policy.errors ∧
          alone.1 = .ok { rootCount := 1, hasOutput := true } ∧
          again.1 = .ok { rootCount := 1, hasOutput := true, hasFailed := true } := by
  obtain ⟨plan, planned⟩ := Plan.exists_of_accepted (by decide : ({} : Config).problems = [])
  have ran := run_soleFile
  rw [planned] at ran
  obtain ⟨past, rest⟩ := Prod.mk.inj (Option.some.inj ran)
  obtain ⟨alone, again⟩ := Prod.mk.inj rest
  obtain ⟨answer, errors⟩ := Prod.mk.inj again
  exact ⟨isStatic_of_faults faults_soleFile, ⟨List.forall_mem_nil _, List.forall_mem_nil _⟩,
    isCalm_of_faults faults_soleFile, by decide, plan, planned,
    errors.trans (Prod.mk.inj past).2.symm, ok_of_toOption (Prod.mk.inj alone).1,
    ok_of_toOption answer⟩

end Series
end DirList
