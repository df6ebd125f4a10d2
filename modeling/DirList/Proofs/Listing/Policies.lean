import DirList.Proofs.Listing.Completing
import DirList.Proofs.Listing.Parallel

/-!
# Listings under different policies

What a listing writes, which errors it comes across and how it ends is the same under all policies
that go on after errors; under a policy that stops at errors, it is the same up to the first one.

Results:
1. `exitStatus_of_list`: a run has failed if an error was recorded.
2. `status_of_lenient`: the exit status of a listing under a policy that goes on after errors.
3. `policies_agree`: the outcomes of a listing under all policies.
-/

namespace DirList

open FileSystem

section Listings

variable {config : Config} {plan : Plan} {world : World} {kind : PolicyKind} {paths : List String}

/-- A session at its start is the same under every policy. -/
theorem Session.under_fresh (world : World) (kind : PolicyKind) :
    (Session.fresh world .collect).under kind = Session.fresh world kind := by
  cases kind <;> rfl

/-- The run of a listing has failed if an error was recorded. -/
theorem exitStatus_of_list
    (standard : RendererTable.standard.select plan.config = .ok plan.renderer) {state : RunState}
    {run : Run Walk}
    (settles : Settles (Run.list plan paths) (Run.fresh plan world kind) state run) :
    state.exitStatus = if run.session.policy.errors = [] then 0 else 1 := by
  have failed := (Run.parallels_list .collect standard paths
    (Run.fresh plan world kind)).1.failed
  obtain ⟨_, last, -, -, finishes⟩ := Run.settles_list settles
  rw [settles] at failed
  cases (Run.run_finish _).symm.trans finishes
  unfold RunState.exitStatus
  by_cases silent : last.session.policy.errors = []
  · rw [if_pos silent, if_neg]
    exact fun marked => (failed marked).elim (fun no => nomatch no) fun some => some silent
  · have marked : last.session.policy.hasFailed = true := by
      simpa [Policy.hasFailed] using silent
    rw [if_neg silent, if_pos]
    exact Bool.or_eq_true_iff.mpr (.inr marked)

/-- The exit status of a listing under a policy that goes on after errors is 1 if there was an
error, unless the listing is given up. -/
theorem status_of_lenient {outcome : Outcome} (planned : Plan.ofConfig .standard config = .ok plan)
    (field : ∃ field, config.timeField = .known field) (lenient : kind ≠ .failFast)
    (given : listPaths .standard world kind paths config = .ok outcome) :
    outcome.status = .ok (if outcome.session.policy.errors = [] then 0 else 1) ∨
      ∃ abort, outcome.status = .error abort ∧
        Run.Halts config world paths (Run.shown plan (Run.displays plan world kind paths))
          abort := by
  have standard := Plan.select_of_planned planned
  have ended := Run.status_cases planned given
  obtain ⟨_, given', concludes⟩ := exists_concludes world kind paths planned
  cases given.symm.trans given'
  have later := (Run.parallels_list .collect standard (pathsOrDefault paths)
    (Run.fresh plan world kind)).1
  rcases ran : (Run.list plan (pathsOrDefault paths)).run.run (Run.fresh plan world kind) with
    ⟨abort | state, run⟩
  all_goals rw [ran] at concludes later
  · have lenient' : run.session.policy.kind ≠ .failFast := fun strict =>
      lenient (later.session.kind.symm.trans strict)
    cases concludes with
    | fatal =>
      left
      rw [Policy.handle_lenient lenient', Policy.errors_handle, if_neg Bool.false_ne_true,
        if_neg (List.concat_ne_nil _ _)]
    | aborted mild =>
      right
      obtain no | no | ⟨_, stopped, excuse | ⟨rfl, path, member, null⟩ | ⟨strict, -⟩⟩ := ended
      · cases no
      · cases no
      · cases stopped
        exact ⟨abort, rfl, Run.halts_of_excuse planned field lenient excuse⟩
      · exact ⟨_, stopped, .nullPath member null⟩
      · exact absurd strict lenient
  · cases concludes
    exact .inl (congrArg Except.ok (exitStatus_of_list standard ran))

/-- The policy decides what becomes of the errors of a listing, and nothing else depends on it. A
policy that writes lines writes one for each error that one records which only records; the text,
the errors and the exit status are the same, and the status is 1 if there are any errors. But a
listing may be given up under all policies alike: if it is interrupted, for a null character in a
path, or for a date that cannot be told. A policy that stops at errors gives the listing up for the
first of these, when a part of the same text has been written, or all of it if there are none. The
walk is closed under every policy. -/
theorem policies_agree (world : World) (paths : List String) (accepted : config.problems = [])
    (field : ∃ field, config.timeField = .known field) :
    ∃ plan collected strict, Plan.ofConfig .standard config = .ok plan ∧
      listPaths .standard world .collect paths config = .ok collected ∧
      listPaths .standard world .failFast paths config = .ok strict ∧
      (∀ lead, listPaths .standard world (.report lead) paths config = .ok
        { collected with
          session := { collected.session with
            policy := {
              kind := .report lead
              errors := collected.session.policy.errors
              written := String.join
                (collected.session.policy.errors.map (Policy.reportedLine lead)) } } }) ∧
      (collected.status = .ok (if collected.session.policy.errors = [] then 0 else 1) ∨
        ∃ abort, collected.status = .error abort ∧
          Run.Halts config world paths (Run.shown plan (Run.displays plan world .collect paths))
            abort) ∧
      (match collected.session.policy.errors with
        | [] => strict.status = collected.status ∧
            strict.session.output = collected.session.output
        | first :: _ => strict.status = .error (.listing first) ∧
            ∃ rest, collected.session.output = strict.session.output ++ rest) ∧
      ∀ kind, ((Run.list plan (pathsOrDefault paths)).run.run
        (Run.fresh plan world kind)).2.source.isOpen = false := by
  obtain ⟨plan, planned⟩ := Plan.exists_of_accepted accepted
  have standard := Plan.select_of_planned planned
  have given := fun kind => listPaths_of_planned world kind paths planned
  have parallel : ∀ kind, Parallel kind (Session.fresh world .collect)
      ((listPlanned plan paths).run.run (Session.fresh world .collect))
      ((listPlanned plan paths).run.run (Session.fresh world kind)) := by
    intro kind
    have parallels := (parallels_listPlanned kind standard paths
      (Session.fresh world .collect)).2 rfl
    rwa [← Session.under_fresh world kind]
  have status := status_of_lenient planned field (by decide) (given .collect)
  refine ⟨plan, _, _, planned, given .collect, given .failFast, fun lead => ?_, status, ?_,
    fun kind => Run.isOpen_list standard _ rfl⟩
  · rw [given]
    have same := parallel (.report lead)
    generalize (listPlanned plan paths).run.run (Session.fresh world (.report lead)) = other at same
    generalize (listPlanned plan paths).run.run (Session.fresh world .collect) = result at same
    cases same with
    | along => rfl
    | stopped stops => cases stops
  · have same := parallel .failFast
    generalize (listPlanned plan paths).run.run (Session.fresh world .failFast) = other at same ⊢
    generalize (listPlanned plan paths).run.run (Session.fresh world .collect) = result at same ⊢
    cases same with
    | @along answer after silent =>
      have none : after.policy.errors = [] := silent rfl
      rw [none]
      exact ⟨rfl, rfl⟩
    | @stopped answer after last error more _ errors _ output =>
      have some : after.policy.errors = error :: more := errors
      rw [some]
      exact ⟨rfl, output⟩

end Listings

/-! ## A sample -/

/-- A world with a directory `d` that cannot be scanned between a file and another directory. -/
def refusedBetween : World :=
  let refused : Schedule Fault := .always (.system (.coded 13))
  { (default : World) with
    files := .ofTree (.node "" (Walk.Client.sampleSketch .directory 0o040755) [
      .node "d" { Walk.Client.sampleSketch .directory 0o040755 with faults := { scan := refused } }
        [],
      .node "e" (Walk.Client.sampleSketch .directory 0o040755) [Run.sampleFile],
      .node "f" (Walk.Client.sampleSketch .leaf 0o100644) []]) }

/-- A policy that only records goes on after the error. -/
theorem run_refusedBetween :
    ∃ plan outcome, Plan.ofConfig .standard {} = .ok plan ∧
      listPaths .standard refusedBetween .collect ["d", "e", "f"] {} = .ok outcome ∧
      (outcome.session.policy.errors, outcome.session.output) =
        ([.ofCode .node "d" 13], "f\n\ne:\nx\n") :=
  exists_of_observed (by decide +kernel)

/-- A listing is given up for a directory that cannot be scanned, and the policy that writes lines
writes one about it. -/
theorem policies_agree_sample :
    ∃ strict reported,
      listPaths .standard refusedBetween .failFast ["d", "e", "f"] {} = .ok strict ∧
      listPaths .standard refusedBetween (.report (some "ls")) ["d", "e", "f"] {} = .ok reported ∧
      strict.status = .error (.listing (.ofCode .node "d" 13)) ∧
      (∃ rest, "f\n\ne:\nx\n" = strict.session.output ++ rest) ∧
      reported.session.output = "f\n\ne:\nx\n" ∧
      reported.session.policy.written = "ls: d: Permission denied\n" := by
  obtain ⟨plan, outcome, -, given, ran⟩ := run_refusedBetween
  obtain ⟨errors, output⟩ := Prod.mk.inj ran
  obtain ⟨_, collected, strict, -, collects, stops, reports, -, agree, -⟩ :=
    policies_agree refusedBetween ["d", "e", "f"] (by decide : ({} : Config).problems = [])
      ⟨_, rfl⟩
  cases given.symm.trans collects
  rw [errors] at agree
  refine ⟨strict, _, stops, reports (some "ls"), agree.1, ?_, output, ?_⟩
  · rw [← output]
    exact agree.2
  · have line : Policy.reportedLine (some "ls") (.ofCode .node "d" 13) =
        "ls: d: Permission denied\n" := by
      decide +kernel
    dsimp only
    rw [errors, List.map_singleton, line]
    rfl

/-- A listing may be given up although no error is recorded, and under all policies: for a file
whose date cannot be told. -/
theorem exists_given_up_without_error :
    undatedWorld.IsSteady ∧ Run.thorough.problems = [] ∧
      ∃ collected strict,
        listPaths .standard undatedWorld .collect ["f", "g"] Run.thorough = .ok collected ∧
        listPaths .standard undatedWorld .failFast ["f", "g"] Run.thorough = .ok strict ∧
        collected.status = .error (.undatable (.system .tooLarge)) ∧
        collected.session.policy.errors = [] ∧
        strict.status = .error (.undatable (.system .tooLarge)) := by
  obtain ⟨_, collected, -, collects, ran⟩ : ∃ plan outcome,
      Plan.ofConfig .standard Run.thorough = .ok plan ∧
      listPaths .standard undatedWorld .collect ["f", "g"] Run.thorough = .ok outcome ∧
      (outcome.status, outcome.session.policy.errors) =
        (.error (.undatable (.system .tooLarge)), []) := exists_of_observed (by decide +kernel)
  obtain ⟨_, strict, -, stops, stopped⟩ : ∃ plan outcome,
      Plan.ofConfig .standard Run.thorough = .ok plan ∧
      listPaths .standard undatedWorld .failFast ["f", "g"] Run.thorough = .ok outcome ∧
      outcome.status = .error (.undatable (.system .tooLarge)) :=
    exists_of_observed (by decide +kernel)
  obtain ⟨status, errors⟩ := Prod.mk.inj ran
  exact ⟨isSteady_undatedWorld, by decide, collected, strict, collects, stops, status, errors,
    stopped⟩

end DirList
