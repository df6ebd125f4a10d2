import DirList.Proofs.Listing.Recursion

/-!
# The turns of a run

A run goes on in turns. In its first turn it shows the roots, and in every other one it takes an
event from its walk and reacts to it. Here the turns are written down: each with the run before it,
the event, and the calls of `display` that it makes. So it can be said of a whole listing what it
shows, and what it has shown before.

Results:
1. `events_listTurns`: the roots come first, and then the events of the walk.
2. `Hands.list`: what every turn hands on is known at every turn of a listing.
3. `Hands.walkRoots_ends`: and it is known where the walk comes to its end.
4. `list_displays`: what is known at the turns is known at the calls.
-/

namespace DirList

namespace Run

open FileSystem

/-- A call of `display`, with the run before it. -/
structure Display (ω : Type) where
  parent : Option Entry
  entries : Option (List Entry)
  before : Run ω

/-- A turn of a run: the run before it, the event that it takes from the walk, or nothing where it
shows the roots, and the calls that it makes. -/
structure Turn (ω : Type) where
  before : Run ω
  event : Option Entry
  calls : List (Display ω)

variable {ω α β γ : Type}

/-! ## Writing turns down -/

/-- What comes after a step, which is nothing if the step is given up. -/
def onward (step : Stride ω α) (next : α → Run ω → List β) (run : Run ω) : List β :=
  match step.run.run run with
  | (.ok answer, run) => next answer run
  | (.error _, _) => []

/-- What is displayed at an event of the walk: a directory that is not passed over. -/
def displaysAt (plan : Plan) (namesOnly : Bool) (event : Entry) (run : Run ω) :
    List (Display ω) :=
  match event.kind with
  | .directory =>
    if event.isHidden && !event.isRoot && !plan.config.showHidden then []
    else
      onward (onSource (Source.children (some event) namesOnly))
        (fun entries run => [⟨some event, entries, run⟩]) run
  | _ => []

/-- The turns in which the events of the walk are followed. -/
def followTurns (plan : Plan) (namesOnly : Bool) : Nat → Run ω → List (Turn ω)
  | 0, _ => []
  | fuel + 1, run =>
    onward (onSource Source.read) (fun event run₁ =>
      match event with
      | none => []
      | some event =>
        ⟨run, some event, displaysAt plan namesOnly event run₁⟩ ::
          onward (react plan namesOnly event) (fun _ => followTurns plan namesOnly fuel) run₁) run

/-- The turns once the roots were shown. -/
def walkTurns (plan : Plan) (run : Run ω) : List (Turn ω) :=
  if plan.config.listDirectory then []
  else
    followTurns plan (!plan.config.recursive && run.source.options.skipStatus)
      (run.source.budget run.session.world.files + 1) run

/-- To show the roots. -/
def showRoots (plan : Plan) : Stride ω Unit := do
  display plan none (← onSource (Source.children none false))

/-- To follow the walk once the roots were shown, unless directories are listed themselves. -/
def walkOn (plan : Plan) : Stride ω Unit := do
  if !plan.config.listDirectory then
    let run ← get
    let namesOnly := !plan.config.recursive && run.source.options.skipStatus
    follow plan namesOnly (run.source.budget run.session.world.files + 1)

/-- The turn in which the roots are shown. -/
def rootsTurn (run : Run ω) : Turn ω :=
  ⟨run, none, onward (onSource (Source.children none false))
    (fun entries run => [⟨none, entries, run⟩]) run⟩

/-- The run that is about to start its walk. -/
def atStart (paths : List String) (run : Run ω) : Run ω :=
  { run with state := { rootCount := paths.length } }

/-- The turns of a listing. -/
def listTurns (plan : Plan) (paths : List String) (run : Run ω) : List (Turn ω) :=
  onward (onSource (Source.start paths)) (fun _ run₀ =>
    rootsTurn run₀ :: onward (showRoots plan) (fun _ => walkTurns plan) run₀) (run.atStart paths)

/-- What is displayed by a listing. -/
def listDisplays (plan : Plan) (paths : List String) (run : Run ω) : List (Display ω) :=
  (listTurns plan paths run).flatMap Turn.calls

/-- The run that lists paths in a world, before it has done anything. -/
def fresh (plan : Plan) (world : World) (kind : PolicyKind) : Run Walk where
  session := .fresh world kind
  source := plan.source Walk.walker

/-- The turns in which paths are listed in a world. -/
def turns (plan : Plan) (world : World) (kind : PolicyKind) (paths : List String) :
    List (Turn Walk) :=
  listTurns plan (pathsOrDefault paths) (fresh plan world kind)

/-- What is displayed when paths are listed in a world. -/
def displays (plan : Plan) (world : World) (kind : PolicyKind) (paths : List String) :
    List (Display Walk) :=
  listDisplays plan (pathsOrDefault paths) (fresh plan world kind)

theorem displays_eq_flatMap (plan : Plan) (world : World) (kind : PolicyKind)
    (paths : List String) :
    displays plan world kind paths = (turns plan world kind paths).flatMap Turn.calls :=
  rfl

section Onward

variable {step : Stride ω α} {next : α → Run ω → List β} {run run' : Run ω}

theorem onward_of_settles {answer : α} (settles : Settles step run answer run') :
    onward step next run = next answer run' := by
  unfold onward
  rw [settles]

theorem onward_of_error {abort : Abort} (stopped : (step.run.run run).1 = .error abort) :
    onward step next run = [] := by
  unfold onward
  rcases ran : step.run.run run with ⟨_ | _, _⟩
  · rfl
  · rw [ran] at stopped
    cases stopped

theorem onward_cases (step : Stride ω α) (next : α → Run ω → List β) (run : Run ω) :
    onward step next run = [] ∨
      ∃ answer run', Settles step run answer run' ∧ onward step next run = next answer run' := by
  rcases ran : step.run.run run with ⟨stop | answer, run'⟩
  · exact .inl (onward_of_error (congrArg Prod.fst ran))
  · exact .inr ⟨answer, run', ran, onward_of_settles ran⟩

theorem onward_nil (step : Stride ω α) (run : Run ω) :
    onward step (fun _ _ => ([] : List β)) run = [] := by
  rcases onward_cases step (fun _ _ => ([] : List β)) run with none | ⟨_, _, -, none⟩
  · exact none
  · exact none

theorem flatMap_onward (step : Stride ω α) (next : α → Run ω → List β) (each : β → List γ)
    (run : Run ω) : (onward step next run).flatMap each =
      onward step (fun answer run => (next answer run).flatMap each) run := by
  unfold onward
  rcases step.run.run run with ⟨_ | _, _⟩ <;> rfl

end Onward

/-! ## One turn -/

section Calls

variable {plan : Plan} {namesOnly : Bool} {run run' : Run ω}

/-- An event brings about one call at most, and that call is about a directory. -/
theorem displaysAt_cases (plan : Plan) (namesOnly : Bool) (event : Entry) (run : Run ω) :
    displaysAt plan namesOnly event run = [] ∨
      event.kind = .directory ∧
      (event.isHidden && !event.isRoot && !plan.config.showHidden) = false ∧
      ∃ entries run', Settles (onSource (Source.children (some event) namesOnly)) run entries run' ∧
        displaysAt plan namesOnly event run = [⟨some event, entries, run'⟩] := by
  unfold displaysAt
  split
  next kind =>
    split
    · exact .inl rfl
    next shown =>
      refine (onward_cases _ _ run).imp_right fun ⟨entries, run', settles, same⟩ => ?_
      exact ⟨kind, by simpa using shown, entries, run', settles, same⟩
  next => exact .inl rfl

theorem of_mem_displaysAt {event : Entry} {call : Display ω}
    (member : call ∈ displaysAt plan namesOnly event run) :
    event.kind = .directory ∧
      (event.isHidden && !event.isRoot && !plan.config.showHidden) = false ∧
      ∃ entries run', Settles (onSource (Source.children (some event) namesOnly)) run entries run' ∧
        call = ⟨some event, entries, run'⟩ := by
  rcases displaysAt_cases plan namesOnly event run with
    none | ⟨kind, shown, entries, run', settles, one⟩
  · rw [none] at member
    cases member
  · rw [one] at member
    exact ⟨kind, shown, entries, run', settles, List.mem_singleton.mp member⟩

/-- A turn makes one call at most, which is about its event. -/
def Turn.IsTold (turn : Turn ω) : Prop :=
  turn.calls = [] ∨ ∃ entries run, turn.calls = [⟨turn.event, entries, run⟩]

/-- The roots are shown in one call, unless they cannot be had. -/
theorem calls_rootsTurn (run : Run ω) : (rootsTurn run).calls = [] ∨
    ∃ entries run', Settles (onSource (Source.children none false)) run entries run' ∧
      (rootsTurn run).calls = [⟨none, entries, run'⟩] :=
  onward_cases (onSource (Source.children none false)) _ run

theorem isTold_rootsTurn (run : Run ω) : (rootsTurn run).IsTold := by
  refine (calls_rootsTurn run).imp_right ?_
  rintro ⟨entries, run', -, one⟩
  exact ⟨entries, run', one⟩

variable (plan)

theorem isTold_followTurns (namesOnly : Bool) (fuel : Nat) (run : Run ω) :
    ∀ turn ∈ followTurns plan namesOnly fuel run, turn.IsTold ∧ turn.event.isSome = true := by
  induction fuel generalizing run with
  | zero => exact List.forall_mem_nil _
  | succ fuel ih =>
    rw [followTurns]
    rcases onward_cases (onSource Source.read) _ run with none | ⟨event, run₁, -, same⟩
    · rw [none]
      exact List.forall_mem_nil _
    rw [same]
    cases event with
    | none => exact List.forall_mem_nil _
    | some event =>
      refine List.forall_mem_cons.mpr ⟨⟨?_, rfl⟩, ?_⟩
      · refine (displaysAt_cases plan namesOnly event run₁).imp_right ?_
        rintro ⟨-, -, entries, run', -, one⟩
        exact ⟨entries, run', one⟩
      · rcases onward_cases (react plan namesOnly event)
          (fun _ => followTurns plan namesOnly fuel) run₁ with none | ⟨_, run₂, -, same⟩
        · rw [none]
          exact List.forall_mem_nil _
        · rw [same]
          exact ih run₂

/-- The roots come first, and then the events of the walk. -/
theorem events_listTurns (paths : List String) (run : Run ω) :
    (∀ turn ∈ listTurns plan paths run, turn.IsTold) ∧
    (listTurns plan paths run = [] ∨ ∃ first rest, listTurns plan paths run = first :: rest ∧
      first.event = none ∧ ∀ turn ∈ rest, turn.event.isSome = true) := by
  unfold listTurns
  rcases onward_cases (onSource (Source.start paths)) _ (run.atStart paths) with
    none | ⟨_, run₀, -, same⟩
  · rw [none]
    exact ⟨List.forall_mem_nil _, .inl rfl⟩
  rw [same]
  have rest : ∀ turn ∈ onward (showRoots plan) (fun _ => walkTurns plan) run₀,
      turn.IsTold ∧ turn.event.isSome = true := by
    rcases onward_cases (showRoots plan) (fun _ => walkTurns plan) run₀ with
      none | ⟨_, run₂, -, same⟩
    · rw [none]
      exact List.forall_mem_nil _
    rw [same, walkTurns]
    split
    · exact List.forall_mem_nil _
    · exact isTold_followTurns plan _ _ run₂
  refine ⟨List.forall_mem_cons.mpr
    ⟨isTold_rootsTurn run₀, fun turn member => (rest turn member).1⟩, ?_⟩
  exact .inr ⟨_, _, rfl, rfl, fun turn member => (rest turn member).2⟩

/-- A call of turns is the call of one of them. -/
theorem exists_turn_of_call {turns : List (Turn ω)} (told : ∀ turn ∈ turns, turn.IsTold)
    {before after : List (Display ω)} {call : Display ω}
    (split : turns.flatMap Turn.calls = before ++ call :: after) :
    ∃ earlier turn later, turns = earlier ++ turn :: later ∧
      earlier.flatMap Turn.calls = before ∧ turn.calls = [call] := by
  induction turns generalizing before with
  | nil => cases before <;> cases split
  | cons turn turns ih =>
    obtain ⟨first, others⟩ := List.forall_mem_cons.mp told
    rw [List.flatMap_cons] at split
    rcases first with none | ⟨entries, run, one⟩
    · rw [none, List.nil_append] at split
      obtain ⟨earlier, turn', later, rfl, rfl, calls⟩ := ih others split
      exact ⟨turn :: earlier, turn', later, rfl, by rw [List.flatMap_cons, none]; rfl, calls⟩
    · rw [one] at split
      cases before with
      | nil =>
        cases split
        exact ⟨[], turn, turns, rfl, rfl, one⟩
      | cons root before =>
        obtain ⟨rfl, rest⟩ := List.cons.inj split
        obtain ⟨earlier, turn', later, rfl, rfl, calls⟩ := ih others rest
        exact ⟨turn :: earlier, turn', later, rfl, by rw [List.flatMap_cons, one]; rfl, calls⟩

end Calls

/-! ## Listings -/

section Listings

variable {plan : Plan} {paths : List String} {run run' : Run ω}

/-- The walk is closed however the run ends. -/
theorem run_list (plan : Plan) (paths : List String) (run : Run ω) :
    (list plan paths).run.run run =
      match (onSource (Source.start paths)).run.run (run.atStart paths) with
      | (.error abort, run₀) => (.error abort, run₀)
      | (.ok _, run₀) =>
        match (walkRoots plan).run.run run₀ with
        | (.error abort, run₁) => (.error abort, { run₁ with source := run₁.source.close })
        | (.ok _, run₁) => finish.run.run { run₁ with source := run₁.source.close } := by
  have opened : (list plan paths).run.run run =
      (do
        onSource (Source.start paths)
        try walkRoots plan
        finally modify fun run => { run with source := run.source.close }
        finish : Stride ω RunState).run.run (run.atStart paths) := rfl
  rw [opened, run_bind]
  rcases (onSource (Source.start paths)).run.run (run.atStart paths) with ⟨_ | _, run₀⟩
  · rfl
  dsimp only
  rw [run_bind]
  rw [run_finally]
  rcases (walkRoots plan).run.run run₀ with ⟨_ | _, run₁⟩ <;> rfl

/-- A run has failed in the end if it has failed before or its policy has. -/
theorem run_finish (run : Run ω) :
    finish.run.run run =
      (.ok { run.state with hasFailed := run.state.hasFailed || run.session.policy.hasFailed },
        { run with state := { run.state with
          hasFailed := run.state.hasFailed || run.session.policy.hasFailed } }) := by
  have looked : finish.run.run run =
      (do
        if run.session.policy.hasFailed then
          changeState fun state => { state with hasFailed := true }
        return (← get).state : Stride ω RunState).run.run run := rfl
  rw [looked]
  cases run.session.policy.hasFailed with
  | true => rw [Bool.or_true]; rfl
  | false => rw [Bool.or_false]; rfl

theorem session_finish (run : Run ω) : (finish.run.run run).2.session = run.session := by
  rw [run_finish]

/-- A listing that comes to its end has started its walk, gone over the roots and finished. -/
theorem settles_list {state : RunState} (settles : Settles (list plan paths) run state run') :
    ∃ run₀ run₁, Settles (onSource (Source.start paths)) (run.atStart paths) () run₀ ∧
      Settles (walkRoots plan) run₀ () run₁ ∧
      Settles finish { run₁ with source := run₁.source.close } state run' := by
  unfold Settles at settles
  rw [run_list] at settles
  rcases starts : (onSource (Source.start paths)).run.run (run.atStart paths) with ⟨_ | _, run₀⟩
  · rw [starts] at settles
    cases settles
  rw [starts] at settles
  dsimp only at settles
  rcases walks : (walkRoots plan).run.run run₀ with ⟨_ | _, run₁⟩
  · rw [walks] at settles
    cases settles
  · rw [walks] at settles
    exact ⟨run₀, run₁, starts, walks, settles⟩

theorem walkRoots_eq_bind (plan : Plan) :
    (walkRoots plan : Stride ω Unit) = showRoots plan >>= fun _ => walkOn plan :=
  (bind_assoc _ _ _).symm

/-- A run over the roots shows them, and then it follows its walk unless directories are listed
themselves. -/
theorem settles_walkRoots {run₀ : Run ω} (walks : Settles (walkRoots plan) run₀ () run') :
    ∃ run₂, Settles (showRoots plan) run₀ () run₂ ∧
      (plan.config.listDirectory = true ∧ run' = run₂ ∨
        plan.config.listDirectory = false ∧
        Settles (follow plan (!plan.config.recursive && run₂.source.options.skipStatus)
          (run₂.source.budget run₂.session.world.files + 1)) run₂ () run') := by
  rw [walkRoots_eq_bind] at walks
  obtain ⟨_, run₂, shows, walks⟩ := Settles.of_bind walks
  refine ⟨run₂, shows, ?_⟩
  unfold walkOn at walks
  cases directories : plan.config.listDirectory with
  | true =>
    rw [directories] at walks
    cases walks
    exact .inl ⟨rfl, rfl⟩
  | false =>
    rw [directories, if_pos (by rfl)] at walks
    obtain ⟨_, _, looks, walks⟩ := Settles.of_bind walks
    cases looks
    exact .inr ⟨rfl, walks⟩

end Listings

/-! ## What turns hand on -/

section Handing

variable {plan : Plan} {paths : List String} {run run' : Run ω}
  {each : Turn ω → List γ} {good : Nat → List γ → Run ω → Prop} {fine : List γ → Turn ω → Prop}

/-- `Opens plan paths run each good fine`: the turn that shows the roots is fine, and it leaves what
is good. -/
def Opens (plan : Plan) (paths : List String) (run : Run ω) (each : Turn ω → List γ)
    (good : Nat → List γ → Run ω → Prop) (fine : List γ → Turn ω → Prop) : Prop :=
  ∀ ⦃run₀⦄, Settles (onSource (Source.start paths)) (run.atStart paths) () run₀ →
    fine [] (rootsTurn run₀) ∧
    ∀ run₂, Settles (showRoots plan) run₀ () run₂ →
      run₂.source.options = plan.options ∧
      good (run₂.source.budget run₂.session.world.files + 1) (each (rootsTurn run₀)) run₂

/-- `Hands plan namesOnly each good fine`: from what is good before an event is taken, with what
`each` of the turns so far has left and the fuel that is left, follows that the turn is fine, and
what is good after it. -/
def Hands (plan : Plan) (namesOnly : Bool) (each : Turn ω → List γ)
    (good : Nat → List γ → Run ω → Prop) (fine : List γ → Turn ω → Prop) : Prop :=
  ∀ ⦃fuel log run event run₁⦄, good (fuel + 1) log run →
    Settles (onSource Source.read) run (some event) run₁ →
    fine log ⟨run, some event, displaysAt plan namesOnly event run₁⟩ ∧
    ∀ run₂, Settles (react plan namesOnly event) run₁ () run₂ →
      good fuel (log ++ each ⟨run, some event, displaysAt plan namesOnly event run₁⟩) run₂

namespace Hands

section Following

variable {namesOnly : Bool} {fuel : Nat} {log : List γ}
  (hands : Hands plan namesOnly each good fine) (start : good fuel log run)

include hands start

theorem follow {before after : List (Turn ω)} {turn : Turn ω}
    (split : followTurns plan namesOnly fuel run = before ++ turn :: after) :
    fine (log ++ before.flatMap each) turn := by
  induction fuel generalizing run log before with
  | zero => cases before <;> cases split
  | succ fuel ih =>
    rw [followTurns] at split
    rcases onward_cases (onSource Source.read) _ run with none | ⟨event, run₁, reads, same⟩
    · rw [none] at split
      cases before <;> cases split
    rw [same] at split
    cases event with
    | none => cases before <;> cases split
    | some event =>
      obtain ⟨now, later⟩ := hands start reads
      cases before with
      | nil =>
        cases split
        rw [List.flatMap_nil, List.append_nil]
        exact now
      | cons first before =>
        obtain ⟨rfl, rest⟩ := List.cons.inj split
        rcases onward_cases (react plan namesOnly event)
          (fun _ => followTurns plan namesOnly fuel) run₁ with none | ⟨_, run₂, reacts, same⟩
        · rw [none] at rest
          cases before <;> cases rest
        · rw [same] at rest
          rw [List.flatMap_cons, ← List.append_assoc]
          exact ih (later run₂ reacts) rest

/-- A run that follows its walk to the end has handed on what is good, up to where the walk has no
other event or the fuel is used up. -/
theorem follow_ends (ran : Settles (Run.follow plan namesOnly fuel) run () run') :
    let log' := log ++ (followTurns plan namesOnly fuel run).flatMap each
    good 0 log' run' ∨
      ∃ left last, good (left + 1) log' last ∧ Settles (onSource Source.read) last none run' := by
  induction fuel generalizing run log with
  | zero =>
    cases ran
    left
    rw [followTurns, List.flatMap_nil, List.append_nil]
    exact start
  | succ fuel ih =>
    obtain ⟨event, run₁, reads, ran⟩ := Settles.of_bind ran
    rw [followTurns, onward_of_settles reads]
    cases event with
    | none =>
      cases ran
      right
      rw [List.flatMap_nil, List.append_nil]
      exact ⟨fuel, run, start, reads⟩
    | some event =>
      obtain ⟨_, run₂, reacts, ran⟩ := Settles.of_bind ran
      have rest := ih ((hands start reads).2 run₂ reacts) ran
      dsimp only
      rwa [onward_of_settles reacts, List.flatMap_cons, ← List.append_assoc]

end Following

variable (hands : Hands plan (Recursion.namesOnly plan) each good fine)
  (opens : Opens plan paths run each good fine)

include hands opens

/-- A listing shows its roots first, and then what it follows the walk to. -/
theorem list {before after : List (Turn ω)} {turn : Turn ω}
    (split : listTurns plan paths run = before ++ turn :: after) :
    fine (before.flatMap each) turn := by
  unfold listTurns at split
  rcases onward_cases (onSource (Source.start paths)) _ (run.atStart paths) with
    none | ⟨_, run₀, starts, same⟩
  · rw [none] at split
    cases before <;> cases split
  rw [same] at split
  obtain ⟨first, onwards⟩ := opens starts
  cases before with
  | nil =>
    cases split
    exact first
  | cons root before =>
    obtain ⟨rfl, rest⟩ := List.cons.inj split
    rcases onward_cases (showRoots plan) (fun _ => walkTurns plan) run₀ with
      none | ⟨_, run₂, shows, same⟩
    · rw [none] at rest
      cases before <;> cases rest
    obtain ⟨options, start⟩ := onwards run₂ shows
    rw [same, walkTurns, options] at rest
    split at rest
    · cases before <;> cases rest
    · exact hands.follow start rest

/-- What was handed on, once the walk over the roots has come to its end: what the roots have left,
or what is good for all turns, up to where the walk has no other event or the fuel is used up. -/
theorem walkRoots_ends {run₀ : Run ω}
    (starts : Settles (onSource (Source.start paths)) (run.atStart paths) () run₀)
    (walks : Settles (walkRoots plan) run₀ () run') :
    let log := (listTurns plan paths run).flatMap each
    (∃ left, listTurns plan paths run = [rootsTurn run₀] ∧ good left log run') ∨ good 0 log run' ∨
      ∃ left last, good (left + 1) log last ∧ Settles (onSource Source.read) last none run' := by
  obtain ⟨run₂, shows, walks⟩ := settles_walkRoots walks
  obtain ⟨options, start⟩ := (opens starts).2 run₂ shows
  have turns : listTurns plan paths run = rootsTurn run₀ :: walkTurns plan run₂ := by
    rw [listTurns, onward_of_settles starts, onward_of_settles shows]
  rw [options] at walks
  rw [turns, walkTurns, options, List.flatMap_cons]
  rcases walks with ⟨directories, rfl⟩ | ⟨directories, walks⟩
  · left
    rw [if_pos directories, List.flatMap_nil, List.append_nil]
    exact ⟨_, rfl, start⟩
  · right
    rw [if_neg (Bool.eq_false_iff.mp directories)]
    exact hands.follow_ends start walks

end Hands
end Handing

/-! ## What calls hand on -/

section Calling

variable {plan : Plan} {paths : List String} {run run' : Run ω}
  {good : Nat → List (Display ω) → Run ω → Prop} {fine : List (Display ω) → Display ω → Prop}

/-- `Carries plan namesOnly good fine`: from what is good before an event, with the calls so far and
the fuel that is left, follows that the call at the event is fine, and what is good after it. -/
def Carries (plan : Plan) (namesOnly : Bool) (good : Nat → List (Display ω) → Run ω → Prop)
    (fine : List (Display ω) → Display ω → Prop) : Prop :=
  ∀ {fuel log run event run₁}, good (fuel + 1) log run →
    Settles (onSource Source.read) run (some event) run₁ →
    (∀ call ∈ displaysAt plan namesOnly event run₁, fine log call) ∧
    ∀ run₂, Settles (react plan namesOnly event) run₁ () run₂ →
      good fuel (log ++ displaysAt plan namesOnly event run₁) run₂

/-- `Begins plan paths run good fine`: the call that displays the roots is fine, and it leaves what
is good. -/
def Begins (plan : Plan) (paths : List String) (run : Run ω)
    (good : Nat → List (Display ω) → Run ω → Prop)
    (fine : List (Display ω) → Display ω → Prop) : Prop :=
  ∀ {run₀ entries run₁}, Settles (onSource (Source.start paths)) (run.atStart paths) () run₀ →
    Settles (onSource (Source.children none false)) run₀ entries run₁ →
    fine [] ⟨none, entries, run₁⟩ ∧
    ∀ run₂, Settles (display plan none entries) run₁ () run₂ →
      run₂.source.options = plan.options ∧
      good (run₂.source.budget run₂.session.world.files + 1) [⟨none, entries, run₁⟩] run₂

theorem Carries.hands {namesOnly : Bool} (carries : Carries plan namesOnly good fine) :
    Hands plan namesOnly Turn.calls good fun log turn => ∀ call ∈ turn.calls, fine log call :=
  fun _ _ _ _ _ => carries

theorem Begins.opens (begins : Begins plan paths run good fine) :
    Opens plan paths run Turn.calls good fun log turn => ∀ call ∈ turn.calls, fine log call := by
  intro run₀ starts
  refine ⟨fun call member => ?_, fun run₂ shows => ?_⟩
  · rcases calls_rootsTurn run₀ with none | ⟨entries, run₁, lists, one⟩
    · rw [none] at member
      cases member
    · rw [one] at member
      cases List.mem_singleton.mp member
      exact (begins starts lists).1
  · obtain ⟨entries, run₁, lists, displays⟩ := Settles.of_bind shows
    have one : (rootsTurn run₀).calls = [⟨none, entries, run₁⟩] := onward_of_settles lists
    rw [one]
    exact (begins starts lists).2 run₂ displays

variable (begins : Begins plan paths run good fine)
  (carries : Carries plan (Recursion.namesOnly plan) good fine)

include begins carries

/-- A listing displays its roots first, and then what it follows the walk to. -/
theorem list_displays {before after : List (Display ω)} {call : Display ω}
    (split : listDisplays plan paths run = before ++ call :: after) : fine before call := by
  obtain ⟨earlier, turn, later, split', rfl, calls⟩ :=
    exists_turn_of_call (events_listTurns plan paths run).1 split
  refine carries.hands.list begins.opens split' call ?_
  rw [calls]
  exact List.mem_cons_self

/-- What was displayed, once the walk over the roots has come to its end: the roots alone, or what
is good for the calls so far, up to where the walk has no other event or the fuel is used up. -/
theorem walkRoots_ends {run₀ : Run ω}
    (starts : Settles (onSource (Source.start paths)) (run.atStart paths) () run₀)
    (walks : Settles (walkRoots plan) run₀ () run') :
    (∀ call ∈ listDisplays plan paths run, call.parent = none) ∨
      good 0 (listDisplays plan paths run) run' ∨
      ∃ left last, good (left + 1) (listDisplays plan paths run) last ∧
        Settles (onSource Source.read) last none run' := by
  refine (carries.hands.walkRoots_ends begins.opens starts walks).imp_left ?_
  rintro ⟨_, one, -⟩ call member
  rw [listDisplays, one, List.flatMap_singleton] at member
  rcases isTold_rootsTurn run₀ with none | ⟨entries, run, calls⟩
  · rw [none] at member
    cases member
  · rw [calls] at member
    cases List.mem_singleton.mp member
    rfl

end Calling
end Run
end DirList
