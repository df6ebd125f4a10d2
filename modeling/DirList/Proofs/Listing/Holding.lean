import DirList.Proofs.Listing.Recording

/-!
# What is held

The names in long lines are held while a directory is measured and written. They are released when
its lines are written, also if that is given up, and where there is no memory for the next names. So
a listing that goes on after errors holds nothing before each of its calls, nor at its end.

Results:
1. `held_judgeAll`: nothing is held for entries that are not shown.
2. `held_of_collect_error`: nothing is held once there is no memory for an entry.
3. `held_display`: a call leaves nothing held.
4. `isIdle_displays`: nothing is held before a call of a listing.
5. `held_listPaths`: nothing is held after a listing.
-/

namespace DirList

open FileSystem

/-! ## Selecting and measuring -/

section Selecting

variable {config : Config} {parent : Option Entry}

/-- Nothing is held for an entry that is not shown. -/
theorem held_judge {entry : Entry} (hidden : Recursion.isShown config parent entry = false)
    (session : Session) :
    ((Descriptor.judge config parent entry).run.run session).2.held = session.held := by
  unfold Descriptor.judge
  by_cases lost : entry.kind = .error ∨ entry.kind = .noStatus
  · rw [if_pos lost, run_bind, Job.run_report]
    cases (session.policy.handle (.ofCode .node entry.name entry.errorCode)).1 <;> rfl
  · have kept : Recursion.isLost entry = false := by simpa [Recursion.isLost] using lost
    have passed : Descriptor.isSelected config parent entry = false := by
      rwa [Recursion.isShown, kept, Bool.not_false, Bool.true_and] at hidden
    rw [if_neg lost, passed]
    rfl

theorem held_judgeAll {entries : List Entry}
    (hidden : ∀ entry ∈ entries, Recursion.isShown config parent entry = false)
    (session : Session) :
    ((Descriptor.judgeAll config parent entries).run.run session).2.held = session.held := by
  induction entries generalizing session with
  | nil => rfl
  | cons entry rest ih =>
    obtain ⟨first, others⟩ := List.forall_mem_cons.mp hidden
    have held := held_judge first session
    unfold Descriptor.judgeAll
    rw [run_bind]
    rcases ran : (Descriptor.judge config parent entry).run.run session with
      ⟨_ | _ | item, session'⟩
    all_goals rw [ran] at held
    · exact held
    · exact held
    · have held' := ih others session'
      dsimp only
      rw [run_bind]
      rcases ran' : (Descriptor.judgeAll config parent rest).run.run session' with
        ⟨_ | _ | items, session''⟩
      all_goals
        rw [ran'] at held'
        exact held'.trans held

/-- What is held is released once there is no memory for an entry. -/
theorem held_of_collect_error {entries : Option (List Entry)} {error : ListingError}
    {session session' : Session}
    (settles : Settles (Descriptor.collect config parent entries) session (.error error) session') :
    session'.held = [] := by
  obtain ⟨judged, middle, -, settles⟩ := Settles.of_bind settles
  cases judged with
  | error lost =>
    obtain ⟨_, _, releases, settles⟩ := Settles.of_bind settles
    cases releases
    cases settles
    rfl
  | ok items =>
    dsimp only at settles
    split_ifs at settles <;> cases settles

/-- Nothing more is held where nothing is shown. -/
theorem held_collect {entries : Option (List Entry)}
    (hidden : ∀ entry ∈ entries.getD [], Recursion.isShown config parent entry = false)
    {session session' : Session}
    (settles : Settles (Descriptor.collect config parent entries) session (.ok none) session') :
    session'.held = session.held := by
  have held := held_judgeAll hidden session
  obtain ⟨judged, middle, judges, settles⟩ := Settles.of_bind settles
  rw [judges] at held
  cases judged with
  | error lost =>
    obtain ⟨_, _, -, settles⟩ := Settles.of_bind settles
    cases settles
  | ok items =>
    dsimp only at settles
    split_ifs at settles
    all_goals cases settles
    exact held

end Selecting

/-! ## Calls and listings -/

namespace Run

/-- `IsIdle world session`: the session is informed by the world and holds nothing. -/
structure IsIdle (world : World) (session : Session) : Prop where
  informs : world.Informs session
  held : session.held = []

section Calls

variable {ω : Type} {world : World} {plan : Plan}

/-- Nothing is held once a block was written, also if that is given up. -/
theorem held_writeBlock (parent : Option Entry) (descriptor : Descriptor) (run : Run ω) :
    ((writeBlock plan parent descriptor).run.run run).2.session.held = [] := by
  rw [run_writeBlock, run_writeEntries]
  rcases (plan.renderer.render plan.config descriptor).run.run (run.headed parent).session with
    ⟨_ | _, _⟩ <;> rfl

theorem keeping_isIdle {γ : Type} :
    Keeping ω (fun _ : List γ => IsIdle world) fun _ => [] := by
  refine ⟨fun action past run idle => ?_, fun error past run idle => ?_⟩
  · rw [run_onSource]
    rcases (action run.source).run.run run.session.world.files with ⟨_ | ⟨_ | _, _⟩, files⟩ <;>
      exact ⟨idle.informs.draws files _ _, idle.held⟩
  · rw [run_report]
    exact ⟨idle.informs.reports error, idle.held⟩

variable (sized : plan.config.blockSize ≠ 0)

include sized

/-- A call leaves nothing held, however it ends. -/
theorem held_display (parent : Option Entry) (entries : Option (List Entry)) (run : Run ω)
    (idle : IsIdle world run.session) :
    ((display plan parent entries).run.run run).2.session.held = [] := by
  obtain ⟨session, collects, -⟩ :=
    finds_collect sized parent entries run.session idle.informs.serves
  rw [run_display, collects]
  cases lacking : run.session.world.lacking? plan.config parent (entries.getD []) with
  | some entry =>
    rw [lacking, Option.elim_some] at collects
    have released := held_of_collect_error collects
    dsimp only [Option.elim_some]
    rw [run_report]
    exact released
  | none =>
    rw [lacking, Option.elim_none] at collects
    rw [Option.elim_none]
    cases nothing : ((entries.getD []).filter (Recursion.isShown plan.config parent)).isEmpty with
    | true =>
      rw [nothing] at collects
      have hidden : ∀ entry ∈ entries.getD [],
          Recursion.isShown plan.config parent entry = false := by
        have none := List.filter_eq_nil_iff.mp (List.isEmpty_iff.mp nothing)
        exact fun entry member => Bool.eq_false_iff.mpr (none entry member)
      exact (held_collect hidden collects).trans idle.held
    | false => exact held_writeBlock parent _ _

variable (standard : RendererTable.standard.select plan.config = .ok plan.renderer)

include standard

theorem isIdle_display (parent : Option Entry) (entries : Option (List Entry)) (run : Run ω)
    (idle : IsIdle world run.session) :
    IsIdle world ((display plan parent entries).run.run run).2.session :=
  ⟨(records_display standard sized parent entries run idle.informs).1,
    held_display sized parent entries run idle⟩

/-- Nothing is held before a call. -/
theorem isIdle_displays (paths : List String) (run : Run ω) (idle : IsIdle world run.session) :
    ∀ call ∈ listDisplays plan paths run, IsIdle world call.before.session :=
  forall_displays keeping_isIdle (isIdle_display sized standard) paths run idle

/-- A listing leaves nothing held, however it ends. -/
theorem held_list (paths : List String) (run : Run ω) (idle : IsIdle world run.session) :
    ((list plan paths).run.run run).2.session.held = [] := by
  have quiet : Logs (fun _ : List Unit => IsIdle world) (list plan paths : Stride ω RunState)
      fun run => (listDisplays plan paths run).flatMap fun _ => [] :=
    keeping_isIdle.list_quiet
      (fun parent entries _ run => isIdle_display sized standard parent entries run) paths
  exact (quiet [] run idle).held

end Calls

/-- Nothing is held after a listing that goes on after errors, whatever fails. -/
theorem held_listPaths {config : Config} {plan : Plan} {world : World} {kind : PolicyKind}
    {paths : List String} {outcome : Outcome}
    (planned : Plan.ofConfig .standard config = .ok plan) (lenient : kind ≠ .failFast)
    (given : listPaths .standard world kind paths config = .ok outcome) :
    outcome.session.held = [] := by
  have standard := Plan.select_of_planned planned
  obtain ⟨rfl, -, -, accepted⟩ := Plan.ofConfig_eq_ok planned
  have idle : IsIdle world (fresh plan world kind).session := ⟨world.informs_fresh lenient, rfl⟩
  have held := held_list (Config.blockSize_ne_zero accepted) standard (pathsOrDefault paths)
    (fresh plan world kind) idle
  obtain ⟨_, given', concludes⟩ := exists_concludes world kind paths planned
  cases given.symm.trans given'
  rcases ran : (list plan (pathsOrDefault paths)).run.run (fresh plan world kind) with
    ⟨_ | _, run⟩
  all_goals
    rw [ran] at concludes held
    cases concludes <;> exact held

end Run
end DirList
