import DirList.Proofs.Listing.Trace

/-!
# What sessions keep

A session keeps something of its past: the text that was written, the errors that were recorded, or
the names that were asked for. What a step of a run adds to it is written down in a log. The log of
a listing follows from what a single error adds and what a single call adds.

Results:
1. `Logs.bind`: the logs of steps one after another.
2. `Keeping.react`: the log of the reaction to an event.
3. `Keeping.list`: the log of a listing consists of those of its turns.
4. `forall_displays`: what every step preserves is known before every call of a listing.
-/

namespace DirList

open FileSystem

namespace Run

variable {ω α β γ : Type}

/-! ## Logs of steps -/

/-- `Logs keeps step log`: whatever comes of the step, a session that has kept a past has kept with
it what the log of the step adds. -/
def Logs (keeps : List γ → Session → Prop) (step : Stride ω α) (log : Run ω → List γ) : Prop :=
  ∀ past run, keeps past run.session → keeps (past ++ log run) (step.run.run run).2.session

namespace Logs

variable {keeps : List γ → Session → Prop} {step : Stride ω α} {log log' : Run ω → List γ}

theorem of_unchanged (unchanged : ∀ run, (step.run.run run).2.session = run.session) :
    Logs keeps step fun _ => [] := by
  intro past run kept
  rw [unchanged, List.append_nil]
  exact kept

theorem pure (answer : α) : Logs keeps (Pure.pure answer : Stride ω α) fun _ => [] :=
  .of_unchanged fun _ => rfl

theorem bind {next : α → Stride ω β} {later : α → Run ω → List γ} (first : Logs keeps step log)
    (second : ∀ answer, Logs keeps (next answer) (later answer)) :
    Logs keeps (step >>= next) fun run => log run ++ onward step later run := by
  intro past run kept
  have kept' := first past run kept
  unfold onward
  rw [run_bind, ← List.append_assoc]
  rcases ran : step.run.run run with ⟨_ | answer, run'⟩
  all_goals rw [ran] at kept'
  · rw [List.append_nil]
    exact kept'
  · exact second answer _ run' kept'

theorem congr (logs : Logs keeps step log) (same : ∀ run, log run = log' run) :
    Logs keeps step log' := by
  intro past run kept
  rw [← same]
  exact logs past run kept

/-- Two steps that add nothing. -/
theorem quiet_bind {next : α → Stride ω β} (first : Logs keeps step fun _ => [])
    (second : ∀ answer, Logs keeps (next answer) fun _ => []) :
    Logs keeps (step >>= next) fun _ => [] :=
  (first.bind second).congr fun run => onward_nil step run

end Logs

/-! ## Logs of turns -/

/-- The errors that an event of the walk stands for, one at most. -/
def complaints (event : Entry) : List ListingError :=
  match event.kind with
  | .cycle => [.cycle event.name]
  | .unreadable | .error => [.ofCode .node event.name event.errorCode]
  | _ => []

/-- What a turn adds, by what errors and calls add: first what its event stands for, and then what
its calls bring about. -/
def Turn.log (said : ListingError → List γ) (each : Display ω → List γ) (turn : Turn ω) : List γ :=
  (turn.event.elim [] complaints).flatMap said ++ turn.calls.flatMap each

/-- `Keeping keeps said`: what a session keeps has nothing to do with the source of its run, and an
error that is reported adds to it what is `said` of it. -/
structure Keeping (ω : Type) (keeps : List γ → Session → Prop) (said : ListingError → List γ) :
    Prop where
  source : ∀ {ε α : Type} [GivesUp ε] (action : Source ω → Access (Except ε α × Source ω)),
    Logs keeps (onSource action) fun _ => []
  report : ∀ error, Logs keeps (report error : Stride ω Unit) fun _ => said error

namespace Keeping

variable {keeps : List γ → Session → Prop} {said : ListingError → List γ}
  (keeping : Keeping ω keeps said)

section Turns

variable {plan : Plan} {each : Display ω → List γ} (displays : ∀ parent entries,
  Logs keeps (display plan parent entries : Stride ω Unit) fun run => each ⟨parent, entries, run⟩)

include keeping displays

/-- Reacting to an event adds what is said of the error it stands for, or what the call adds that it
brings about. -/
theorem react (namesOnly : Bool) (event : Entry) :
    Logs keeps (react plan namesOnly event : Stride ω Unit) fun run =>
      (complaints event).flatMap said ++ (displaysAt plan namesOnly event run).flatMap each := by
  unfold Run.react complaints displaysAt
  cases event.kind with
  | directory =>
    dsimp only
    unfold enter
    split
    · exact keeping.source _
    · have leaves : ∀ entries : Option (List Entry), Logs keeps
          (if !plan.config.recursive && !(entries.getD []).isEmpty then skip event else Pure.pure ()
            : Stride ω Unit) fun _ => [] := by
        intro entries
        split
        · exact keeping.source _
        · exact .pure _
      refine ((keeping.source _).bind fun entries =>
        (displays (some event) entries).bind fun _ => leaves entries).congr fun run => ?_
      rw [List.flatMap_nil, List.nil_append, List.nil_append, flatMap_onward]
      congr 1
      funext entries run₁
      rw [onward_nil, List.append_nil, List.flatMap_singleton]
  | cycle | unreadable | error =>
    refine (keeping.report _).congr fun _ => ?_
    dsimp only
    rw [List.flatMap_singleton, List.flatMap_nil, List.append_nil]
  | finished | file | symlink | dangling | other | dot | noStatus | unasked => exact .pure _

/-- Following the events of the walk adds what the turns add. -/
theorem follow (namesOnly : Bool) (fuel : Nat) :
    Logs keeps (follow plan namesOnly fuel : Stride ω Unit) fun run =>
      (followTurns plan namesOnly fuel run).flatMap (Turn.log said each) := by
  induction fuel with
  | zero => exact .pure _
  | succ fuel ih =>
    refine ((keeping.source Source.read).bind fun event => (?_ : Logs keeps _ fun run =>
      event.elim [] fun event =>
        (complaints event).flatMap said ++ (displaysAt plan namesOnly event run).flatMap each ++
          onward (Run.react plan namesOnly event)
            (fun _ run => (followTurns plan namesOnly fuel run).flatMap (Turn.log said each))
            run)).congr fun run => ?_
    · cases event with
      | none => exact .pure _
      | some event => exact (keeping.react displays namesOnly event).bind fun _ => ih
    · rw [List.nil_append, followTurns, flatMap_onward]
      congr 1
      funext event run₁
      cases event with
      | none => rfl
      | some event =>
        dsimp only [Option.elim]
        rw [List.flatMap_cons, flatMap_onward]
        rfl

/-- Walking the roots adds what showing them does, and then what the other turns add. -/
theorem walkRoots :
    Logs keeps (walkRoots plan : Stride ω Unit) fun run =>
      (rootsTurn run).log said each ++ onward (showRoots plan)
        (fun _ run => (walkTurns plan run).flatMap (Turn.log said each)) run := by
  have walks : Logs keeps
      (if !plan.config.listDirectory then do
        let run ← get
        let namesOnly := !plan.config.recursive && run.source.options.skipStatus
        Run.follow plan namesOnly (run.source.budget run.session.world.files + 1)
      else Pure.pure () : Stride ω Unit) fun run =>
      (walkTurns plan run).flatMap (Turn.log said each) := by
    intro past run kept
    unfold walkTurns
    cases plan.config.listDirectory with
    | true =>
      simp only [Bool.not_true, Bool.false_eq_true, if_false, if_true]
      exact Logs.pure () past run kept
    | false =>
      simp only [Bool.not_false, Bool.false_eq_true, if_false, if_true]
      rw [run_get_bind]
      exact keeping.follow displays _ _ past run kept
  refine ((keeping.source (Source.children none false)).bind fun entries =>
    (displays none entries).bind fun _ => walks).congr fun run => ?_
  unfold Turn.log rootsTurn showRoots onward
  dsimp only
  rw [run_bind]
  rcases (Run.onSource (Source.children none false)).run.run run with ⟨_ | entries, run₁⟩
  · rfl
  · dsimp only
    rw [Option.elim_none, List.flatMap_singleton]
    rfl

/-- A listing adds what its turns add, also if it is given up. -/
theorem list (paths : List String) :
    Logs keeps (list plan paths : Stride ω RunState) fun run =>
      (listTurns plan paths run).flatMap (Turn.log said each) := by
  intro past run kept
  have opens : Logs keeps (Run.onSource (Source.start paths) : Stride ω Unit) fun _ => [] :=
    keeping.source _
  have kept' := opens.bind (fun _ => keeping.walkRoots displays) past (run.atStart paths) kept
  have turns : ∀ run₀ : Run ω, (rootsTurn run₀ :: onward (showRoots plan)
      (fun _ => walkTurns plan) run₀).flatMap (Turn.log said each) =
      (rootsTurn run₀).log said each ++ onward (showRoots plan)
        (fun _ run => (walkTurns plan run).flatMap (Turn.log said each)) run₀ := by
    intro run₀
    rw [List.flatMap_cons, flatMap_onward]
  dsimp only at kept'
  rw [List.nil_append, run_bind] at kept'
  dsimp only
  rw [run_list, listTurns, flatMap_onward]
  simp only [turns]
  rcases ran : (Run.onSource (Source.start paths)).run.run (run.atStart paths) with ⟨_ | _, run₀⟩
  · rw [ran] at kept'
    exact kept'
  rw [ran] at kept'
  dsimp only at kept' ⊢
  rcases ran' : (Run.walkRoots plan).run.run run₀ with ⟨_ | _, run₁⟩
  · rw [ran'] at kept'
    exact kept'
  · rw [ran'] at kept'
    dsimp only
    rw [session_finish]
    exact kept'

end Turns
end Keeping

/-- What nothing is said of is added by the calls of a listing alone. -/
theorem flatMap_log_quiet (each : Display ω → List γ) (turns : List (Turn ω)) :
    turns.flatMap (Turn.log (fun _ => []) each) = (turns.flatMap Turn.calls).flatMap each := by
  rw [List.flatMap_assoc]
  congr 1
  funext turn
  rw [Turn.log, List.flatMap_eq_nil_iff.mpr fun _ _ => rfl, List.nil_append]

/-- Where errors add nothing, a listing adds what its calls add. -/
theorem Keeping.list_quiet {plan : Plan} {keeps : List γ → Session → Prop}
    (keeping : Keeping ω keeps fun _ => []) {each : Display ω → List γ}
    (displays : ∀ parent entries, Logs keeps (display plan parent entries : Stride ω Unit)
      fun run => each ⟨parent, entries, run⟩) (paths : List String) :
    Logs keeps (Run.list plan paths : Stride ω RunState) fun run =>
      (listDisplays plan paths run).flatMap each :=
  (keeping.list displays paths).congr fun _ => flatMap_log_quiet each _

/-- Where calls are logged themselves, a listing has its calls as its log. -/
theorem Keeping.list_calls {plan : Plan} {keeps : List (Display ω) → Session → Prop}
    (keeping : Keeping ω keeps fun _ => [])
    (displays : ∀ parent entries, Logs keeps (display plan parent entries : Stride ω Unit)
      fun run => [⟨parent, entries, run⟩]) (paths : List String) :
    Logs keeps (Run.list plan paths : Stride ω RunState) (listDisplays plan paths) := by
  have lists : Logs keeps (Run.list plan paths : Stride ω RunState) fun run =>
      (listDisplays plan paths run).flatMap fun call => [call] := keeping.list_quiet displays paths
  exact lists.congr fun _ => List.flatMap_singleton' _

/-- What every step preserves is known before every call of a listing. -/
theorem forall_displays {plan : Plan} {holds : Session → Prop}
    (keeping : Keeping ω (fun _ : List (Display ω) => holds) fun _ => [])
    (displays : ∀ parent entries (run : Run ω), holds run.session →
      holds ((display plan parent entries).run.run run).2.session)
    (paths : List String) (run : Run ω) (start : holds run.session) :
    ∀ call ∈ listDisplays plan paths run, holds call.before.session := by
  -- The calls themselves are logged.
  let keeps : List (Display ω) → Session → Prop := fun past session =>
    holds session ∧ ∀ call ∈ past, holds call.before.session
  have quiet : ∀ {α : Type} {step : Stride ω α},
      Logs (fun _ : List (Display ω) => holds) step (fun _ => []) →
      Logs keeps step fun _ => [] := by
    intro α step logs past run ⟨kept, before⟩
    rw [List.append_nil]
    exact ⟨logs past run kept, before⟩
  have keeping' : Keeping ω keeps fun _ => [] :=
    ⟨fun action => quiet (keeping.source action), fun error => quiet (keeping.report error)⟩
  have calls : ∀ parent entries, Logs keeps (display plan parent entries : Stride ω Unit)
      fun run => [⟨parent, entries, run⟩] := by
    intro parent entries past run ⟨kept, before⟩
    refine ⟨displays parent entries run kept, fun call member => ?_⟩
    rcases List.mem_append.mp member with earlier | last
    · exact before call earlier
    · cases List.mem_singleton.mp last
      exact kept
  exact (keeping'.list_calls calls paths [] run ⟨start, List.forall_mem_nil _⟩).2

end Run
end DirList
