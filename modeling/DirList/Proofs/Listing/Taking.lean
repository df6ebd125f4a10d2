import DirList.Proofs.Listing.Stopping

/-!
# The turns that a run takes

The turns of a listing are written down beside it. They are the ones that it takes: from each of
them its run goes on to the next one, until its walk has no other event or the run is given up.

Results:
1. `Follows.taken`: a run takes the turns in which the events of its walk are followed.
2. `listed_turns`: a listing takes its turns.
3. `listed_of_given`: so its outcome is what the last one of them leaves.
-/

namespace DirList.Run

open FileSystem Walk

/-- `Taken plan run turns answer run'`: once its roots are shown, a run takes the turns, and comes
to an answer.

* `over`: its walk has no other event.
* `unread`: it is given up as it reads an event.
* `givenUp`: it is given up as it reacts to an event.
* `turn`: it has reacted to an event, and takes the other turns. -/
inductive Taken {ω : Type} (plan : Plan) :
    Run ω → List (Turn ω) → Except Abort Unit → Run ω → Prop
  | over {run run' : Run ω} : Settles (onSource Source.read) run none run' →
      Taken plan run [] (.ok ()) run'
  | unread {run run' : Run ω} {abort : Abort} :
      (onSource Source.read : Stride ω (Option Entry)).run.run run = (.error abort, run') →
      Taken plan run [] (.error abort) run'
  | givenUp {run run₁ run' : Run ω} {event : Entry} {abort : Abort} :
      Settles (onSource Source.read) run (some event) run₁ →
      (react plan (Recursion.namesOnly plan) event).run.run run₁ = (.error abort, run') →
      Taken plan run [⟨run, some event, displaysAt plan (Recursion.namesOnly plan) event run₁⟩]
        (.error abort) run'
  | turn {run run₁ run₂ run' : Run ω} {event : Entry} {turns : List (Turn ω)}
      {answer : Except Abort Unit} : Settles (onSource Source.read) run (some event) run₁ →
      Settles (react plan (Recursion.namesOnly plan) event) run₁ () run₂ →
      Taken plan run₂ turns answer run' →
      Taken plan run (⟨run, some event, displaysAt plan (Recursion.namesOnly plan) event run₁⟩ ::
        turns) answer run'

/-- `Listed plan paths run turns answer run'`: a run that lists paths takes the turns, and comes to
an answer before it closes its walk.

* `unopened`: its walk cannot be opened.
* `givenUp`: it is given up as it shows the roots.
* `roots`: there are only roots, since directories are listed themselves.
* `walk`: it follows its walk from the roots. -/
inductive Listed {ω : Type} (plan : Plan) (paths : List String) (run : Run ω) :
    List (Turn ω) → Except Abort Unit → Run ω → Prop
  | unopened {run' : Run ω} {abort : Abort} :
      (onSource (Source.start paths)).run.run (run.atStart paths) = (.error abort, run') →
      Listed plan paths run [] (.error abort) run'
  | givenUp {run₀ run' : Run ω} {abort : Abort} :
      Settles (onSource (Source.start paths)) (run.atStart paths) () run₀ →
      (showRoots plan).run.run run₀ = (.error abort, run') →
      Listed plan paths run [rootsTurn run₀] (.error abort) run'
  | roots {run₀ run' : Run ω} : plan.config.listDirectory = true →
      Settles (onSource (Source.start paths)) (run.atStart paths) () run₀ →
      Settles (showRoots plan) run₀ () run' →
      Listed plan paths run [rootsTurn run₀] (.ok ()) run'
  | walk {run₀ run₂ run' : Run ω} {turns : List (Turn ω)} {answer : Except Abort Unit} :
      plan.config.listDirectory = false →
      Settles (onSource (Source.start paths)) (run.atStart paths) () run₀ →
      Settles (showRoots plan) run₀ () run₂ → Taken plan run₂ turns answer run' →
      Listed plan paths run (rootsTurn run₀ :: turns) answer run'

section Runs

variable {plan : Plan} (standard : RendererTable.standard.select plan.config = .ok plan.renderer)

include standard

/-- A run takes the turns in which the events of its walk are followed: it reads them all, since
every event makes the load of the walk smaller. -/
theorem Follows.taken {base : FileSystem} {used : List Nat} {walk : Walk} {run : Run Walk}
    {fuel : Nat} (follows : Follows base plan used walk run) (enough : walk.load base < fuel) :
    Taken plan run (followTurns plan (Recursion.namesOnly plan) fuel run)
      ((follow plan (Recursion.namesOnly plan) fuel).run.run run).1
      ((follow plan (Recursion.namesOnly plan) fuel).run.run run).2 := by
  induction fuel generalizing used walk run with
  | zero => exact absurd enough (Nat.not_lt_zero _)
  | succ fuel ih =>
    unfold follow
    rw [followTurns, run_bind]
    rcases reads : (onSource Source.read : Stride Walk (Option Entry)).run.run run with
      ⟨abort | _ | event, run₁⟩
    · rw [onward_of_error (congrArg Prod.fst reads)]
      exact .unread reads
    · rw [onward_of_settles reads]
      exact .over reads
    rw [onward_of_settles reads]
    dsimp only
    rw [run_bind]
    rcases reacts : (react plan (Recursion.namesOnly plan) event).run.run run₁ with
      ⟨abort | _, run₂⟩
    · rw [onward_of_error (congrArg Prod.fst reacts)]
      exact .givenUp reads reacts
    · rw [onward_of_settles reacts]
      obtain ⟨walk₁, -, reads', follows₁⟩ := follows.read reads
      obtain ⟨walk₂, reacts', follows₂⟩ := follows₁.reacts standard reads'.current reacts
      obtain ⟨same, frames, roots⟩ := reacts'.unmoved
      refine .turn reads reacts (ih follows₂ ?_)
      rw [load_of_unmoved same frames roots]
      exact Nat.lt_of_lt_of_le (follows.sound.load_lt follows.wears reads')
        (Nat.le_of_lt_succ enough)

omit standard in
/-- A listing comes to what the walk over its roots comes to. -/
theorem list_of_walkRoots {paths : List String} {run run₀ last : Run Walk}
    {answer : Except Abort Unit}
    (starts : Settles (onSource (Source.start paths)) (run.atStart paths) () run₀)
    (walks : (walkRoots plan).run.run run₀ = (answer, last)) :
    ((list plan paths).run.run run).1.map (fun _ => ()) = answer ∧
      ((list plan paths).run.run run).2.session = last.session := by
  rw [run_list, starts]
  dsimp only
  rw [walks]
  cases answer with
  | error => exact ⟨rfl, rfl⟩
  | ok =>
    refine ⟨?_, session_finish _⟩
    dsimp only
    rw [run_finish]
    rfl

/-- A listing takes its turns. -/
theorem listed_turns (world : World) (kind : PolicyKind) (paths : List String) :
    ∃ answer last, Listed plan paths (fresh plan world kind)
        (listTurns plan paths (fresh plan world kind)) answer last ∧
      ((list plan paths).run.run (fresh plan world kind)).1.map (fun _ => ()) = answer ∧
      ((list plan paths).run.run (fresh plan world kind)).2.session = last.session := by
  rw [listTurns]
  rcases starts : (onSource (Source.start paths)).run.run ((fresh plan world kind).atStart paths)
    with ⟨abort | _, run₀⟩
  · rw [onward_of_error (congrArg Prod.fst starts), run_list, starts]
    exact ⟨_, _, .unopened starts, rfl, rfl⟩
  rw [onward_of_settles starts]
  rcases walks : (walkRoots plan).run.run run₀ with ⟨answer, last⟩
  refine ⟨answer, last, ?_, list_of_walkRoots starts walks⟩
  rw [walkRoots_eq_bind] at walks
  rcases shows : (showRoots plan).run.run run₀ with ⟨abort | _, run₂⟩
  · rw [run_bind, shows] at walks
    cases walks
    rw [onward_of_error (congrArg Prod.fst shows)]
    exact .givenUp starts shows
  rw [run_bind_of_settles shows] at walks
  rw [onward_of_settles shows]
  obtain ⟨entries, run₁, lists, displays⟩ := Settles.of_bind shows
  obtain ⟨walk, follows, -⟩ := exists_follows_of_roots starts lists
  have follows₂ := follows.extend ((orderly_display standard none entries).settles displays)
  have options : run₂.source.options = plan.options := by
    rw [follows₂.source]
    rfl
  unfold walkTurns
  unfold walkOn at walks
  cases directories : plan.config.listDirectory with
  | true =>
    rw [directories] at walks
    cases walks
    exact .roots directories starts shows
  | false =>
    have enough : walk.load world.files < run₂.source.budget run₂.session.world.files + 1 := by
      rw [follows₂.source]
      exact Nat.lt_succ_of_le (load_le_budget follows₂.wears)
    have taken := follows₂.taken standard enough
    rw [directories, if_pos (by rfl), run_get_bind, options] at walks
    rw [if_neg Bool.false_ne_true, options]
    change (follow plan (Recursion.namesOnly plan) _).run.run run₂ = _ at walks
    rw [walks] at taken
    exact .walk directories starts shows taken

end Runs

/-- The outcome of a listing is what the last of its turns leaves. -/
theorem listed_of_given {config : Config} {plan : Plan} {world : World} {kind : PolicyKind}
    {paths : List String} {outcome : Outcome} (planned : Plan.ofConfig .standard config = .ok plan)
    (given : listPaths .standard world kind paths config = .ok outcome) :
    ∃ answer last, Listed plan (pathsOrDefault paths) (fresh plan world kind)
        (turns plan world kind paths) answer last ∧
      (turns plan world kind paths ≠ [] →
        outcome.status.map (fun _ => ()) = answer ∧ outcome.session = last.session) := by
  have standard := Plan.select_of_planned planned
  obtain ⟨answer, last, listed, ends, session⟩ :=
    listed_turns standard world kind (pathsOrDefault paths)
  refine ⟨answer, last, listed, fun some => ?_⟩
  obtain ⟨_, given', concludes⟩ := exists_concludes world kind paths planned
  cases given.symm.trans given'
  rcases ran : (list plan (pathsOrDefault paths)).run.run (fresh plan world kind) with
    ⟨abort | state, run⟩
  all_goals
    rw [ran] at concludes ends session
    cases concludes
  -- A walk that cannot be opened leaves no turns.
  case error.fatal fatal => exact absurd (turns_of_fatal planned fatal ran) some
  all_goals exact ⟨ends, session⟩

end DirList.Run
