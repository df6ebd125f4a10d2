import DirList.Proofs.Listing.Performing
import DirList.Proofs.Listing.Staging

/-!
# Listings do what the recursion does

In a world that does not change, the stages that a run goes through perform the acts of the
recursion.

Results:
1. `exists_performAll`: going through stages performs their acts.
2. `exists_list`: a listing by a plan performs the acts of the recursion.
3. `list_eq_recursion`: a listing writes and reports what the recursion does, and ends as it does.
-/

namespace DirList

open FileSystem Walk

variable {world : World} {plan : Plan}

/-! ## Stages and acts -/

/-- Whether long lines can be written at a stage. -/
def Stage.Described : Stage → Prop
  | .report _ => True
  | .display _ entries => ∀ entry ∈ entries, entry.Described

/-- Going through stages performs their acts, to their end or up to where they are given up. -/
theorem exists_performAll {ω : Type} (steady : world.IsSteady) (works : plan.Works) {run : Run ω}
    (sees : world.Sees run.session) {stages : List Stage}
    (described : plan.config.isLong = true → ∀ stage ∈ stages, stage.Described) :
    ∃ run', (Stage.performAll plan stages).run.run run =
        (Recursion.ending (stages.flatMap (Stage.acts plan.config)), run') ∧
      Performs world plan (stages.flatMap (Stage.acts plan.config)) run run' := by
  induction stages generalizing run with
  | nil => exact ⟨run, rfl, .refl sees⟩
  | cons stage stages ih =>
    have first : ∃ run', (Stage.perform plan stage).run.run run =
        (Recursion.ending (stage.acts plan.config), run') ∧
          Performs world plan (stage.acts plan.config) run run' := by
      cases stage with
      | report error => exact exists_report plan sees error
      | display parent entries =>
        exact exists_display steady works sees parent (some entries) fun long =>
          described long _ List.mem_cons_self
    obtain ⟨run', performed, performs⟩ := first
    rw [Stage.performAll_cons, run_bind, performed, List.flatMap_cons]
    generalize stages.flatMap (Stage.acts plan.config) = acts at ih ⊢
    cases ends : Recursion.ending (stage.acts plan.config) with
    | error abort =>
      refine ⟨run', congrArg (·, run') ?_, performs.stop ends acts⟩
      exact (Recursion.append_of_stops world plan run.state.rootCount ends acts).2.2.symm
    | ok =>
      obtain ⟨run'', performed', performs'⟩ := ih performs.comes.sees fun long stage member =>
        described long stage (List.mem_cons_of_mem _ member)
      refine ⟨run'', ?_, performs.trans ends performs'⟩
      rw [(Recursion.append_of_ends world plan run.state.rootCount ends acts).2.2]
      exact performed'

/-- Long lines are written of entries that were asked for their status. -/
theorem described_of_mem_stages {files : FileSystem} (works : plan.Works)
    (long : plan.config.isLong = true) {paths : List String} :
    ∀ stage ∈ Recursion.stages files plan paths, stage.Described := by
  have asked : plan.options.skipStatus = false := by
    rw [works.options]
    simp [Config.walkOptions, long]
  refine Recursion.forall_mem_stages (fun _ => trivial) ?_ fun directory entries _ _ given => ?_
  · exact Recursion.forall_mem_roots (yields_described_readRoots _ _ _) fun _ => id
  · have yields := (yields_described_readDirectory asked plan.comparator directory 0 files .refl).2
    rw [Recursion.namesOnly_of_asked asked] at given
    unfold Recursion.contents at given
    generalize ((readDirectory plan.options plan.comparator false directory 0).run.run files).1 =
      answer at given yields
    obtain _ | _ | found := answer
    · cases given
      exact List.forall_mem_nil _
    · cases given
    · cases given
      exact List.forall_mem_map.mpr (yields _ rfl found rfl)

/-! ## Listings -/

theorem Config.blockSize_ne_zero {config : Config} (accepted : config.problems = []) :
    config.blockSize ≠ 0 := by
  intro zero
  simp [Config.problems, zero] at accepted

/-- The plan of a configuration works, if there is a timestamp to show. -/
theorem Plan.works_of_planned {config : Config} {plan : Plan}
    (planned : Plan.ofConfig .standard config = .ok plan)
    (field : ∃ field, config.timeField = .known field) : plan.Works := by
  have standard := Plan.select_of_planned planned
  obtain ⟨rfl, options, -, accepted⟩ := Plan.ofConfig_eq_ok planned
  exact ⟨Config.blockSize_ne_zero accepted, options, standard, field⟩

/-- A configuration without problems has a plan that works. -/
theorem exists_plan {config : Config} (accepted : config.problems = [])
    (field : ∃ field, config.timeField = .known field) :
    ∃ plan, Plan.ofConfig .standard config = .ok plan ∧ plan.config = config ∧ plan.Works := by
  obtain ⟨plan, planned⟩ := Plan.exists_of_accepted accepted
  exact ⟨plan, planned, (Plan.ofConfig_eq_ok planned).1, Plan.works_of_planned planned field⟩

/-- A run has failed in the end if it has failed before or its policy has. -/
theorem exists_finish (run : Run Walk) :
    ∃ state run', Settles Run.finish run state run' ∧ run'.session = run.session ∧
      (state.hasFailed = true ↔
        run.state.hasFailed = true ∨ run.session.policy.hasFailed = true) :=
  ⟨_, _, Run.run_finish run, rfl, Bool.or_eq_true_iff⟩

/-- In a world that does not change, a listing by a plan writes the text and hands over the errors
of the recursion, and it ends as the recursion does. -/
theorem exists_list (steady : world.IsSteady) (works : plan.Works) {kind : PolicyKind}
    (lenient : kind ≠ .failFast) {paths : List String} (fit : unfit paths = none) :
    let acts := Recursion.list world.files plan paths
    ∃ answer run, (Run.list plan paths).run.run (Run.fresh plan world kind) = (answer, run) ∧
      answer.map (fun _ => ()) = Recursion.ending acts ∧
      run.session.output = Recursion.text world plan paths.length false acts ∧
      run.session.policy = Policy.handleAll { kind } (Recursion.errors acts) ∧
      ∀ state, answer = .ok state → (state.hasFailed = true ↔ Recursion.errors acts ≠ []) := by
  obtain ⟨-, -, plain⟩ := unfit_eq_none.mp fit
  obtain ⟨source, amounts⟩ : Run.Amounts (Run.list plan paths)
      (Stage.runAll plan paths.length (Recursion.stages world.files plan paths))
      (Run.fresh plan world kind) :=
    amounts_list steady.static steady.calm works.renderer fit rfl
  let begun : Run Walk := {
    session := Session.fresh world kind
    source := plan.source Walk.walker
    state := { rootCount := paths.length } }
  have sees : world.Sees begun.session := steady.sees lenient
  have described : plan.config.isLong = true →
      ∀ stage ∈ Recursion.stages world.files plan paths, stage.Described :=
    fun long => described_of_mem_stages works long
  obtain ⟨run, performed, performs⟩ := exists_performAll steady works sees described
  rw [← Recursion.list_eq world.files plan (List.any_eq_false.mpr fun path member =>
    Bool.eq_false_iff.mp (plain path member))] at performed performs
  generalize Recursion.list world.files plan paths = acts at performed performs ⊢
  have policy : run.session.policy = Policy.handleAll { kind } (Recursion.errors acts) :=
    performs.comes.policy
  have output : run.session.output = Recursion.text world plan paths.length false acts :=
    performs.comes.output.trans String.empty_append
  have ran : (Stage.runAll plan paths.length (Recursion.stages world.files plan paths)).run.run
      (Run.fresh plan world kind) =
        (Stage.performAll plan (Recursion.stages world.files plan paths) >>=
          fun _ => Run.finish : Stride Walk RunState).run.run begun := rfl
  rw [ran, run_bind, performed] at amounts
  cases ends : Recursion.ending acts with
  | error abort =>
    rw [ends] at amounts
    exact ⟨_, _, amounts, ends.symm, output, policy, nofun⟩
  | ok =>
    obtain ⟨state, run', finishes, same, marked⟩ := exists_finish run
    rw [ends] at amounts
    dsimp only at amounts
    rw [finishes] at amounts
    refine ⟨_, _, amounts, ends.symm, by rw [same, output], by rw [same, policy],
      fun state' given => ?_⟩
    cases given
    have recorded : run.session.policy.hasFailed = true ↔ Recursion.errors acts ≠ [] := by
      rw [Policy.hasFailed, policy, Policy.handleAll_errors]
      simp
    refine marked.trans ⟨fun either => ?_, fun some => .inr (recorded.mpr some)⟩
    rcases either with before | policy
    · exact (performs.hasFailed before).resolve_left Bool.false_ne_true
    · exact recorded.mp policy

/-- In a world that does not change, and by every configuration without problems, listing paths
does what the recursion does: it writes exactly the text of the recursion and hands exactly its
errors to the policy, in their order, and it ends as the recursion does. That is, it comes to its
end, and has then failed if there are errors; or it is given up where the recursion is, at a date
that cannot be told or for a null character in a path. -/
theorem list_eq_recursion {world : World} (steady : world.IsSteady) {config : Config}
    (accepted : config.problems = []) (field : ∃ field, config.timeField = .known field)
    {kind : PolicyKind} (lenient : kind ≠ .failFast) {paths : List String} (some : paths ≠ [])
    (named : "" ∉ paths) :
    ∃ plan, Plan.ofConfig .standard config = .ok plan ∧
      let acts := Recursion.list world.files plan paths
      ∃ answer run, (Run.list plan paths).run.run (Run.fresh plan world kind) = (answer, run) ∧
        answer.map (fun _ => ()) = Recursion.ending acts ∧
        run.session.output = Recursion.text world plan paths.length false acts ∧
        run.session.policy.errors = Recursion.errors acts ∧
        run.session.policy = Policy.handleAll { kind } (Recursion.errors acts) ∧
        ∀ state, answer = .ok state → (state.hasFailed = true ↔ Recursion.errors acts ≠ []) := by
  obtain ⟨plan, planned, -, works⟩ := exists_plan accepted field
  refine ⟨plan, planned, ?_⟩
  cases plain : paths.any Path.hasNull with
  | true =>
    have refused : unfit paths = Option.some .nullPath := by
      rw [unfit_of_named some named, plain]
      rfl
    have given : Recursion.list world.files plan paths = [.giveUp .nullPath] := by
      rw [Recursion.list, plain, if_pos rfl]
    rw [given]
    exact ⟨_, _, run_list_of_unfit steady.static steady.calm refused, rfl, rfl, rfl, rfl, nofun⟩
  | false =>
    have fit : unfit paths = none := by
      rw [unfit_of_named some named, plain]
      rfl
    obtain ⟨answer, run, lists, ends, output, policy, failed⟩ :=
      exists_list steady works lenient fit
    refine ⟨answer, run, lists, ends, output, ?_, policy, failed⟩
    rw [policy, Policy.handleAll_errors]
    exact List.nil_append _

/-! ## Samples -/

/-- What a listing has come to: whether it was given up, and what it has written and recorded. -/
def Run.seen (plan : Plan) (world : World) (paths : List String) :
    Except Abort Unit × String × List ListingError :=
  let (answer, run) := (Run.list plan paths).run.run (Run.fresh plan world .collect)
  (answer.map fun _ => (), run.session.output, run.session.policy.errors)

/-- What the recursion comes to. -/
def Recursion.seen (plan : Plan) (world : World) (paths : List String) :
    Except Abort Unit × String × List ListingError :=
  let acts := list world.files plan paths
  (ending acts, text world plan paths.length false acts, errors acts)

/-- A world in which errors turn up below the roots: a file `f`, and a directory `d` with an entry
`b` that has no status, a link `l` to `d` itself, a directory `s` that holds a file `x`, and a
directory `t` that cannot be read. -/
def troubledWorld : World :=
  let directory := Client.sampleSketch .directory 0o040755
  let leaf := Client.sampleSketch .leaf 0o100644
  { (default : World) with
    files := .ofTree (.node "" directory [
      .node "f" leaf [],
      .node "d" directory [
        .node "b" { leaf with faults := { status := .always (.system (.coded 5)) } } [],
        .node "l" (Client.sampleSketch (.symlink ".") 0o120777) [],
        .node "s" directory [.node "x" leaf []],
        .node "t" { directory with faults := { scan := .always (.system (.coded 13)) } } []]]) }

/-- A world with a file `f`, and with a file `g` that was modified so late that no date can be
told. -/
def undatedWorld : World :=
  let leaf := Client.sampleSketch .leaf 0o100644
  { (default : World) with
    files := .ofTree (.node "" (Client.sampleSketch .directory 0o040755) [
      .node "f" leaf [],
      .node "g" { leaf with
        status := { leaf.status with modified := ⟨72057594037927936, 0⟩ } } []]) }

theorem isSteady_troubledWorld : troubledWorld.IsSteady := by
  -- Failures stay the same and are no interruptions.
  have faults : ∀ node ∈ troubledWorld.files.nodes, node.faults = {} ∨
      node.faults = { status := .always (.system (.coded 5)) } ∨
      node.faults = { scan := .always (.system (.coded 13)) } := by
    decide +kernel
  refine ⟨fun node member operation => ?_, fun node member operation => ?_, fun _ => rfl,
    fun _ => rfl⟩
  · rcases faults node member with same | same | same <;> rw [same] <;> cases operation <;> rfl
  · rcases faults node member with same | same | same <;> rw [same] <;> cases operation <;> decide

theorem faults_undatedWorld : ∀ node ∈ undatedWorld.files.nodes, node.faults = {} := by
  decide +kernel

theorem isSteady_undatedWorld : undatedWorld.IsSteady :=
  ⟨isStatic_of_faults faults_undatedWorld, isCalm_of_faults faults_undatedWorld, fun _ => rfl,
    fun _ => rfl⟩

/-- Errors below the roots are reported in their places, between the sections. A file whose date
cannot be told ends the listing: the lines above its own are written, and nothing is reported. -/
theorem list_eq_recursion_sample :
    let config : Config :=
      { displayMode := DisplayMode.long, recursive := true, symlinkMode := .known .logical }
    ∃ plan, Plan.ofConfig .standard config = .ok plan ∧
      Recursion.seen plan troubledWorld ["f", "d"] = (.ok (), "-rw-r--r--  0 0  0  0 Jan  1 00:00 f

d:
total 0
drwxr-xr-x  0 0  0  0 Jan  1 00:00 l
drwxr-xr-x  0 0  0  0 Jan  1 00:00 s
drwxr-xr-x  0 0  0  0 Jan  1 00:00 t

d/s:
total 0
-rw-r--r--  0 0  0  0 Jan  1 00:00 x
", [.ofCode .node "b" 5, .cycle "l", .ofCode .node "t" 13]) ∧
      Recursion.seen plan undatedWorld ["f", "g"] =
        (.error (.undatable (.system .tooLarge)), "-rw-r--r--  0 0  0  0 Jan  1 00:00 f
", []) := by
  intro config
  -- The recursion comes to what the listings come to, and these can be run.
  suffices listed : ∀ {seen seen'}, (Plan.ofConfig .standard config).toOption.map (fun plan =>
      (Run.seen plan troubledWorld ["f", "d"], Run.seen plan undatedWorld ["f", "g"])) =
        some (seen, seen') →
      ∃ plan, Plan.ofConfig .standard config = .ok plan ∧
        Recursion.seen plan troubledWorld ["f", "d"] = seen ∧
        Recursion.seen plan undatedWorld ["f", "g"] = seen' from
    listed (by decide +kernel)
  intro seen seen' ran
  have accepted : config.problems = [] := by decide
  have lenient : PolicyKind.collect ≠ .failFast := by decide
  obtain ⟨plan, planned, answer, run, lists, ends, output, errors, -, -⟩ :=
    list_eq_recursion isSteady_troubledWorld accepted ⟨_, rfl⟩ lenient
      (List.cons_ne_nil "f" ["d"]) (by decide)
  obtain ⟨plan', planned', answer', run', lists', ends', output', errors', -, -⟩ :=
    list_eq_recursion isSteady_undatedWorld accepted ⟨_, rfl⟩ lenient
      (List.cons_ne_nil "f" ["g"]) (by decide)
  cases planned.symm.trans planned'
  rw [planned] at ran
  obtain ⟨same, same'⟩ := Prod.mk.inj (Option.some.inj ran)
  refine ⟨plan, planned, ?_, ?_⟩
  · rw [← same, Recursion.seen, Run.seen, lists]
    dsimp only
    rw [ends, output, errors]
  · rw [← same', Recursion.seen, Run.seen, lists']
    dsimp only
    rw [ends', output', errors']

end DirList
