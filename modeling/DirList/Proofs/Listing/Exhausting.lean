import DirList.Proofs.Listing.Beside
import DirList.Proofs.Listing.Policies
import DirList.Proofs.Listing.Taking

/-!
# Directories that there is no memory for

Where there is no memory for the names in a long line, the listing gives up the directory that it is
about to write, and goes on. Beside the same listing in a world with memory for all names, it reads
the same events and displays the same lists of entries. Of the lists that there is memory for it
writes the same blocks, and of the others it writes nothing. The listing with memory goes as far,
unless it is given up for a date that cannot be told.

Results:
1. `Paces.bind`: both runs go on in a step, or the one with memory is given up for a date.
2. `paces_display`, `paces_react`: so they do in a call, and at an event.
3. `alongside_turns`: so both have the same turns, as far as the listing with memory goes.
4. `comesOf_turns`: the outcome of a listing is that of its turns.
5. `exhausted_listing`: what a listing does without memory.
-/

namespace DirList

open FileSystem Walk

namespace Run

variable {ω α β γ δ : Type} {world : World} {plan : Plan} {run run' : Run ω}
  {parent : Option Entry} {entries : Option (List Entry)}

/-! ## Keeping pace -/

/-- `Together world step run run'`: what becomes of runs that take the same step, one in the world,
and one in the world with memory for all names.

* `onward`: both settle, and have come to the same point again.
* `stopped`: both are given up, and for the same reason. -/
inductive Together (world : World) (step : Stride ω α) (run run' : Run ω) : Prop
  | onward {answer : α} {run₁ run₁' : Run ω} : Settles step run answer run₁ →
      Settles step run' answer run₁' → Abreast world run₁ run₁' → Together world step run run'
  | stopped {abort : Abort} : (step.run.run run).1 = .error abort →
      (step.run.run run').1 = .error abort → Together world step run run'

/-- What comes after a step that runs take together. -/
theorem Together.onwards {step : Stride ω α} {related : List γ → List δ → Prop}
    {next : α → Run ω → List γ} {next' : α → Run ω → List δ}
    (together : Together world step run run') (none : related [] [])
    (rest : ∀ answer run₁ run₁', Settles step run answer run₁ → Settles step run' answer run₁' →
      Abreast world run₁ run₁' → related (next answer run₁) (next' answer run₁')) :
    related (Run.onward step next run) (Run.onward step next' run') := by
  cases together with
  | onward settles settles' abreast₁ =>
    rw [onward_of_settles settles, onward_of_settles settles']
    exact rest _ _ _ settles settles' abreast₁
  | stopped stops stops' =>
    rw [onward_of_error stops, onward_of_error stops']
    exact none

/-- Whether a step is given up for a date that cannot be told. -/
def IsCut (step : Stride ω α) (run : Run ω) : Prop :=
  ∃ fault, (step.run.run run).1 = .error (.undatable fault)

theorem IsCut.bind {step : Stride ω α} (cut : IsCut step run) (next : α → Stride ω β) :
    IsCut (step >>= next) run :=
  cut.imp fun _ stopped => run_bind_of_error stopped next

theorem IsCut.after {step : Stride ω α} {next : α → Stride ω β} {answer : α} {run₁ : Run ω}
    (settles : Settles step run answer run₁) (cut : IsCut (next answer) run₁) :
    IsCut (step >>= next) run :=
  cut.imp fun _ stopped => (congrArg Prod.fst (run_bind_of_settles settles next)).trans stopped

/-- `Paces world step run`: a run that has come to the same point takes the step together with it,
unless the one with memory is given up for a date. -/
def Paces (world : World) (step : Stride ω α) (run : Run ω) : Prop :=
  ∀ ⦃run'⦄, Abreast world run run' → Together world step run run' ∨ IsCut step run'

namespace Paces

variable {step : Stride ω α}

theorem pure (answer : α) (run : Run ω) : Paces world (Pure.pure answer) run :=
  fun _ abreast => .inl (.onward rfl rfl abreast)

theorem bind {next : α → Stride ω β} (first : Paces world step run)
    (second : ∀ answer run₁, Settles step run answer run₁ → Paces world (next answer) run₁) :
    Paces world (step >>= next) run := by
  intro run' abreast
  rcases first abreast with together | cut
  · cases together with
    | onward settles settles' abreast₁ =>
      refine (second _ _ settles abreast₁).imp (fun together => ?_) (.after settles')
      cases together with
      | onward later later' abreast₂ =>
        exact .onward (settles.bind later) (settles'.bind later') abreast₂
      | stopped stops stops' =>
        have ran := congrArg Prod.fst (run_bind_of_settles settles next)
        have ran' := congrArg Prod.fst (run_bind_of_settles settles' next)
        exact .stopped (ran.trans stops) (ran'.trans stops')
    | stopped stops stops' =>
      exact .inl (.stopped (run_bind_of_error stops next) (run_bind_of_error stops' next))
  · exact .inr (cut.bind next)

end Paces

/-- `Alongside related cut all all'`: the elements are related one by one. The second list ends with
the first one, or before it where it is `cut`. -/
inductive Alongside (related : γ → δ → Prop) (cut : Prop) : List γ → List δ → Prop
  | nil : Alongside related cut [] []
  | cons {one : γ} {other : δ} {all : List γ} {all' : List δ} : related one other →
      Alongside related cut all all' → Alongside related cut (one :: all) (other :: all')
  | cut {all : List γ} : cut → Alongside related cut all []

section Alongside

variable {related : γ → δ → Prop} {cut cut' : Prop} {all : List γ} {all' : List δ}

theorem Alongside.mono (alongside : Alongside related cut all all') (imp : cut → cut') :
    Alongside related cut' all all' := by
  induction alongside with
  | nil => exact .nil
  | cons first _ rest => exact .cons first rest
  | cut cuts => exact .cut (imp cuts)

/-- The second list is related to the beginning of the first one. -/
theorem Alongside.exists_forall₂ (alongside : Alongside related cut all all') :
    ∃ front others, all = front ++ others ∧ List.Forall₂ related front all' ∧
      (others = [] ∨ cut) := by
  induction alongside with
  | nil => exact ⟨[], [], rfl, .nil, .inl rfl⟩
  | cons first _ rest =>
    obtain ⟨front, others, rfl, related, ends⟩ := rest
    exact ⟨_ :: front, others, rfl, .cons first related, ends⟩
  | @cut all cuts => exact ⟨[], all, rfl, .nil, .inr cuts⟩

/-- What comes after a step in which runs keep pace. -/
theorem Paces.onward {step : Stride ω α} {next : α → Run ω → List γ} {next' : α → Run ω → List δ}
    (paces : Paces world step run) (abreast : Abreast world run run') (cuts : IsCut step run' → cut)
    (rest : ∀ answer run₁ run₁', Settles step run answer run₁ → Settles step run' answer run₁' →
      Abreast world run₁ run₁' → Alongside related cut (next answer run₁) (next' answer run₁')) :
    Alongside related cut (Run.onward step next run) (Run.onward step next' run') := by
  rcases paces abreast with together | ⟨fault, stopped⟩
  · exact together.onwards .nil rest
  · rw [onward_of_error stopped]
    exact .cut (cuts ⟨fault, stopped⟩)

end Alongside

/-- An action on the source asks the files, which are the same. -/
theorem together_onSource {ε : Type} [GivesUp ε]
    {action : Source ω → Access (Except ε α × Source ω)} (abreast : Abreast world run run')
    (unworn : ∀ answer run₁, Settles (onSource action) run answer run₁ →
      run₁.session.world.files = world.files) : Together world (onSource action) run run' := by
  have same : run'.session.world.files = run.session.world.files :=
    abreast.attends'.files.trans abreast.attends.files.symm
  have came := run_onSource action run
  have came' := run_onSource action run'
  rw [abreast.source, same] at came'
  rcases ran : (action run.source).run.run run.session.world.files with
    ⟨_ | ⟨_ | answer, source⟩, files⟩
  all_goals rw [ran] at came came'
  · exact .stopped (congrArg Prod.fst came) (congrArg Prod.fst came')
  · exact .stopped (congrArg Prod.fst came) (congrArg Prod.fst came')
  · have unworn' : files = world.files := unworn answer _ came
    exact .onward came came' ⟨rfl,
      ⟨abreast.attends.serves.among files, unworn', abreast.attends.now⟩,
      ⟨abreast.attends'.serves.among files, unworn', abreast.attends'.now⟩⟩

theorem paces_report (error : ListingError) : Paces world (report error : Stride ω Unit) run := by
  intro run' abreast
  have ran := run_report error run
  have ran' := run_report error run'
  rw [Policy.handle_lenient abreast.attends.serves.lenient] at ran
  rw [Policy.handle_lenient abreast.attends'.serves.lenient] at ran'
  exact .inl (.onward ran ran' ⟨abreast.source,
    ⟨abreast.attends.serves.reports error, abreast.attends.files, abreast.attends.now⟩,
    ⟨abreast.attends'.serves.reports error, abreast.attends'.files, abreast.attends'.now⟩⟩)

/-- What is read at an event has the statuses that its lines show. -/
theorem described_of_isKnown {entries : Option (List Entry)} (works : plan.Works)
    (known : IsKnown plan entries) :
    plan.config.isLong = true → ∀ entry ∈ entries.getD [], entry.Described := by
  intro long
  refine known ?_
  rw [works.options, Config.walkOptions, long]
  rfl

/-- Runs keep pace in a call: where a date cannot be told, the one with memory is given up. -/
theorem paces_display (static : world.files.IsStatic) (calm : world.files.IsCalm)
    (names : world.HasStaticNames) (works : plan.Works)
    (described : plan.config.isLong = true → ∀ entry ∈ entries.getD [], entry.Described) :
    Paces world (display plan parent entries) run := by
  intro run' abreast
  obtain ⟨run₁, ran, source, attends⟩ :=
    exists_display static calm names works parent abreast.attends described
  have static' : world.withMemory.files.IsStatic := static
  obtain ⟨run₁', ran', source', attends'⟩ := exists_display static' calm
    world.hasStaticNames_withMemory works parent abreast.attends' described
  rw [World.lacking?_withMemory, Option.elim_none] at ran'
  cases dates : Recursion.undatable plan.config
    ((entries.getD []).filter (Recursion.isShown plan.config parent)) with
  | none =>
    have settles : Settles (display plan parent entries) run () run₁ := by
      rw [Settles, ran, dates]
      cases world.lacking? plan.config parent (entries.getD []) <;> rfl
    rw [dates] at ran'
    exact .inl (.onward settles ran' ⟨source'.trans (abreast.source.trans source.symm), attends,
      attends'⟩)
  | some fault =>
    rw [dates] at ran'
    exact .inr ⟨fault, congrArg Prod.fst ran'⟩

/-! ## Listings -/

section Turns

variable {used : List Nat} {walk : Walk} {run run' : Run Walk} {event : Entry}
  (static : world.files.IsStatic)

include static

variable (plan) in
/-- Runs go on together where the one follows its walk. -/
theorem together_of_follows {α ε : Type} [GivesUp ε]
    {action : Source Walk → Access (Except ε α × Source Walk)}
    (abreast : Abreast world run run')
    (follows : ∀ answer run₁, Settles (onSource action) run answer run₁ →
      ∃ used walk, Follows world.files plan used walk run₁) :
    Together world (onSource action) run run' := by
  refine together_onSource abreast fun answer run₁ settles => ?_
  obtain ⟨_, _, follows₁⟩ := follows answer run₁ settles
  exact follows₁.wears.eq_of_isStatic static

theorem paces_skip (follows : Follows world.files plan used walk run)
    (at_ : walk.here? = some event) : Paces world (skip event) run := by
  refine fun run' abreast => .inl (together_of_follows plan static abreast fun _ run₁ settles => ?_)
  obtain ⟨run₁', skips, -, follows₁⟩ := follows.skip at_
  obtain ⟨-, rfl⟩ := skips.unique settles
  exact ⟨_, _, follows₁⟩

theorem together_children (follows : Follows world.files plan used walk run)
    (abreast : Abreast world run run') (directory : Option Entry) (namesOnly : Bool) :
    Together world (onSource (Source.children directory namesOnly)) run run' := by
  refine together_of_follows plan static abreast fun entries run₁ settles => ?_
  obtain ⟨_, -, -, follows₁⟩ := follows.children settles
  exact ⟨_, _, follows₁⟩

variable (works : plan.Works)

include works

/-- The same is displayed at an event. -/
theorem beside_displaysAt (follows : Follows world.files plan used walk run) (namesOnly : Bool)
    (abreast : Abreast world run run') :
    List.Forall₂ (Display.Beside world plan) (displaysAt plan namesOnly event run)
      (displaysAt plan namesOnly event run') := by
  unfold displaysAt
  split
  · split
    · exact .nil
    · exact (together_children static follows abreast _ _).onwards .nil fun _ _ _ _ _ abreast₁ =>
        .cons (beside_display works.renderer works.blockSize abreast₁) .nil
  · exact .nil

variable (calm : world.files.IsCalm) (names : world.HasStaticNames)

include calm names

/-- Runs keep pace at an event. -/
theorem paces_react (follows : Follows world.files plan used walk run)
    (started : walk.started = true) (current : walk.current = some event) :
    Paces world (react plan (Recursion.namesOnly plan) event) run := by
  unfold react
  cases kind : event.kind with
  | directory =>
    have at_ : walk.here? = some event := here?_eq_some.mpr ⟨current, kind⟩
    dsimp only
    unfold enter
    split
    · exact paces_skip static follows at_
    · have lists : Paces world (onSource (Source.children (some event)
          (Recursion.namesOnly plan))) run :=
        fun run' abreast => .inl (together_children static follows abreast _ _)
      refine lists.bind fun entries run₁ settles => ?_
      obtain ⟨walk₁, -, lists, follows₁⟩ := follows.children settles
      have known := isKnown_of_lists follows started lists
      have at₁ : walk₁.here? = some event := lists.here.trans at_
      have described := described_of_isKnown works known
      refine (paces_display static calm names works described).bind fun _ run₂ displays => ?_
      have extends_ := (orderly_display works.renderer (some event) entries).settles displays
      split
      · exact paces_skip static (follows₁.extend extends_) at₁
      · exact .pure _ _
  | cycle | unreadable | error => exact paces_report _
  | finished | file | symlink | dangling | other | dot | noStatus | unasked => exact .pure _ _

/-- The turns in which the events of the walk are followed. -/
theorem alongside_followTurns (follows : Follows world.files plan used walk run) (fuel : Nat)
    (abreast : Abreast world run run') :
    Alongside (Turn.Beside world plan)
      (IsCut (follow plan (Recursion.namesOnly plan) fuel) run')
      (followTurns plan (Recursion.namesOnly plan) fuel run)
      (followTurns plan (Recursion.namesOnly plan) fuel run') := by
  induction fuel generalizing used walk run run' with
  | zero => exact .nil
  | succ fuel ih =>
    have together : Together world (onSource Source.read) run run' :=
      together_of_follows plan static abreast fun event run₁ reads => by
        obtain ⟨_, -, -, follows₁⟩ := follows.read reads
        exact ⟨_, _, follows₁⟩
    refine together.onwards .nil fun event run₁ run₁' reads reads' abreast₁ => ?_
    cases event with
    | none => exact .nil
    | some event =>
      obtain ⟨walk₁, -, answers, follows₁⟩ := follows.read reads
      have paces := paces_react static works calm names follows₁ answers.started answers.current
      refine .cons ⟨rfl, beside_displaysAt static works follows₁ _ abreast₁⟩ ?_
      refine paces.onward abreast₁ (fun cut => .after reads' (cut.bind _))
        fun _ run₂ run₂' reacts reacts' abreast₂ => ?_
      obtain ⟨walk₂, -, follows₂⟩ := follows₁.reacts works.renderer answers.current reacts
      exact (ih follows₂ abreast₂).mono fun cut => .after reads' (.after reacts' cut)

/-- The turns once the roots were shown. -/
theorem alongside_walkTurns (follows : Follows world.files plan used walk run)
    (abreast : Abreast world run run') :
    Alongside (Turn.Beside world plan) (IsCut (walkOn plan) run') (walkTurns plan run)
      (walkTurns plan run') := by
  have files : run'.session.world.files = run.session.world.files :=
    abreast.attends'.files.trans abreast.attends.files.symm
  unfold walkTurns walkOn
  cases plan.config.listDirectory with
  | true => exact .nil
  | false =>
    have options : run'.source.options = plan.options := by
      rw [abreast.source, follows.source]
      rfl
    rw [if_neg Bool.false_ne_true, if_neg Bool.false_ne_true, ← abreast.source, ← files, options]
    refine (alongside_followTurns static works calm names follows _ abreast).mono fun cut => ?_
    refine .after (.get run') ?_
    dsimp only
    rw [options]
    exact cut

end Turns

/-! ## What turns come to -/

/-- The errors that are handed to the policy in a turn: those that its event stands for, and those
of its calls. -/
def Turn.added (plan : Plan) (turn : Turn ω) : List ListingError :=
  turn.event.elim [] complaints ++ turn.calls.flatMap (Display.added plan)

/-- `ComesOf plan world kind paths turns outcome`: the outcome of listing paths is that of the turns.

* `taken`: the turns are those that the listing takes. It ends as the last of them does, and with
  what that leaves, unless there are no turns since the walk cannot be opened at all.
* `output`: what was written is what the calls of the turns write.
* `errors`: what was recorded is what the turns hand over, and one more error if there are no turns.
* `held`: no names are held any more.
* `status`: it has failed if there are errors, unless the listing is given up, for a null character
  in a path or for a date that cannot be told of an entry that the turns show. -/
structure ComesOf (plan : Plan) (world : World) (kind : PolicyKind) (paths : List String)
    (turns : List (Turn Walk)) (outcome : Outcome) : Prop where
  taken : ∃ answer last,
    Listed plan (pathsOrDefault paths) (fresh plan world kind) turns answer last ∧
    (turns ≠ [] → outcome.status.map (fun _ => ()) = answer ∧ outcome.session = last.session)
  output : outcome.session.output = texts plan (turns.flatMap Turn.calls)
  errors : ∃ fatal, outcome.session.policy.errors = turns.flatMap (Turn.added plan) ++ fatal ∧
    (fatal = [] ∨ turns = [] ∧ ∃ error : ListingError, error.isFatal = true ∧ fatal = [error])
  held : outcome.session.held = []
  status : outcome.status = .ok (if outcome.session.policy.errors = [] then 0 else 1) ∨
    ∃ abort, outcome.status = .error abort ∧
      Halts plan.config world paths (shown plan (turns.flatMap Turn.calls)) abort

section Outcomes

variable {config : Config} {kind : PolicyKind} {paths : List String}

/-- The outcome of a listing is that of its turns. -/
theorem comesOf_turns {outcome : Outcome} (planned : Plan.ofConfig .standard config = .ok plan)
    (field : ∃ field, config.timeField = .known field) (lenient : kind ≠ .failFast)
    (given : listPaths .standard world kind paths config = .ok outcome) :
    ComesOf plan world kind paths (turns plan world kind paths) outcome := by
  have standard := Plan.select_of_planned planned
  obtain ⟨⟨fatal, errors, ends⟩, -⟩ := listing_records planned lenient given
  have taken := listed_of_given planned given
  have held := held_listPaths planned lenient given
  have output := listPaths_output planned given
  have status := status_of_lenient planned field lenient given
  obtain ⟨rfl, -, -, accepted⟩ := Plan.ofConfig_eq_ok planned
  have sized := Config.blockSize_ne_zero accepted
  refine ⟨taken, output, ⟨fatal, ?_, ends⟩, held, status⟩
  have idle : IsIdle world (fresh plan world kind).session := ⟨world.informs_fresh lenient, rfl⟩
  have before := isIdle_displays sized standard (pathsOrDefault paths) (fresh plan world kind) idle
  have same : ∀ turn ∈ turns plan world kind paths, turn.errors plan = turn.added plan := by
    intro turn among
    refine congrArg (_ ++ ·) (List.flatMap_congr fun call made => ?_)
    have idle' := before call (List.mem_flatMap.mpr ⟨turn, among, made⟩)
    exact (Display.added_eq_recorded standard sized idle'.informs).symm
  rw [errors, List.flatMap_congr same]

/-- A listing that is given up for a date ends so. -/
theorem exists_undatable_of_isCut {outcome : Outcome}
    (planned : Plan.ofConfig .standard config = .ok plan)
    (given : listPaths .standard world kind paths config = .ok outcome)
    (cut : IsCut (list plan (pathsOrDefault paths)) (fresh plan world kind)) :
    ∃ fault, outcome.status = .error (.undatable fault) := by
  obtain ⟨fault, stopped⟩ := cut
  obtain ⟨_, given', concludes⟩ := exists_concludes world kind paths planned
  cases given.symm.trans given'
  rcases ran : (list plan (pathsOrDefault paths)).run.run (fresh plan world kind) with ⟨_, run⟩
  rw [ran] at concludes stopped
  cases stopped
  cases concludes
  exact ⟨fault, rfl⟩

/-- A walk over the roots that is given up for a date gives the listing up. -/
theorem IsCut.of_walkRoots {run₀ : Run ω}
    (starts : Settles (onSource (Source.start paths)) (run.atStart paths) () run₀)
    (cut : IsCut (walkRoots plan) run₀) : IsCut (list plan paths) run := by
  obtain ⟨fault, stopped⟩ := cut
  refine ⟨fault, ?_⟩
  rw [run_list, starts]
  dsimp only
  rcases ran : (walkRoots plan).run.run run₀ with ⟨_ | _, run₁⟩
  all_goals
    rw [ran] at stopped
    cases stopped
  rfl

/-- The turns of a listing in a world that does not change, and of the same listing with memory for
all names. -/
theorem alongside_turns (static : world.files.IsStatic) (calm : world.files.IsCalm)
    (names : world.HasStaticNames) (works : plan.Works) (lenient : kind ≠ .failFast)
    (paths : List String) :
    Alongside (Turn.Beside world.forget plan)
      (IsCut (list plan (pathsOrDefault paths)) (fresh plan world.withMemory kind))
      (turns plan world kind paths) (turns plan world.withMemory kind paths) := by
  have names' : world.forget.HasStaticNames := ⟨names.owners, names.groups⟩
  have static' : world.forget.files.IsStatic := static
  have begun : Abreast world.forget ((fresh plan world kind).atStart (pathsOrDefault paths))
      ((fresh plan world.withMemory kind).atStart (pathsOrDefault paths)) :=
    ⟨rfl, ⟨world.serves_fresh lenient, rfl, rfl⟩, ⟨world.withMemory.serves_fresh lenient, rfl, rfl⟩⟩
  have starts : Together world.forget (onSource (Source.start (pathsOrDefault paths)))
      ((fresh plan world kind).atStart (pathsOrDefault paths)) _ :=
    together_of_follows plan static' begun fun _ run₀ started => by
      obtain ⟨walk, follows, -⟩ := exists_follows_of_start started
      exact ⟨_, walk, follows⟩
  refine starts.onwards .nil fun _ run₀ run₀' started started' abreast₀ => ?_
  have lists : ∀ ⦃run₀'⦄, Abreast world.forget run₀ run₀' →
      Together world.forget (onSource (Source.children none false)) run₀ run₀' := by
    refine fun _ abreast => together_of_follows plan static' abreast fun entries run₁ lists => ?_
    obtain ⟨walk, follows, -⟩ := exists_follows_of_roots started lists
    exact ⟨_, walk, follows⟩
  have shows : Paces world.forget (showRoots plan) run₀ := by
    refine .bind (fun _ abreast => .inl (lists abreast)) fun entries run₁ lists => ?_
    obtain ⟨walk, -, -, rfl, described, -⟩ := exists_follows_of_roots started lists
    exact paces_display static' calm names' works fun _ => described
  refine .cons ⟨rfl, ?_⟩ ?_
  · exact (lists abreast₀).onwards .nil fun entries run₁ run₁' _ _ abreast₁ =>
      .cons (beside_display works.renderer works.blockSize abreast₁) .nil
  · refine shows.onward abreast₀ (fun cut => .of_walkRoots started' ?_)
      fun _ run₂ run₂' shows shows' abreast₂ => ?_
    · rw [walkRoots_eq_bind]
      exact cut.bind _
    obtain ⟨entries, run₁, lists, displays⟩ := Settles.of_bind shows
    obtain ⟨walk, follows, -⟩ := exists_follows_of_roots started lists
    have extends_ := (orderly_display works.renderer none entries).settles displays
    have others := alongside_walkTurns static' works calm names' (follows.extend extends_) abreast₂
    refine others.mono fun cut => .of_walkRoots started' ?_
    rw [walkRoots_eq_bind]
    exact .after shows' cut

/-- What a listing does without memory. It is made up of its turns, and so is the listing with
memory for all names. Turn by turn both read the same events and display the same lists: those that
there is memory for are written alike and with the same errors, and the others are given up. The
listing without memory goes on after that. The one with memory goes as far, unless it is given up
for a date that cannot be told. -/
theorem exhausted_listing (static : world.files.IsStatic) (calm : world.files.IsCalm)
    (names : world.HasStaticNames) (planned : Plan.ofConfig .standard config = .ok plan)
    (field : ∃ field, config.timeField = .known field) (lenient : kind ≠ .failFast)
    (paths : List String) :
    ∃ outcome outcome', listPaths .standard world kind paths config = .ok outcome ∧
      listPaths .standard world.withMemory kind paths config = .ok outcome' ∧
      ComesOf plan world kind paths (turns plan world kind paths) outcome ∧
      ComesOf plan world.withMemory kind paths (turns plan world.withMemory kind paths) outcome' ∧
      ∃ front others, turns plan world kind paths = front ++ others ∧
        List.Forall₂ (Turn.Beside world.forget plan) front
          (turns plan world.withMemory kind paths) ∧
        (others = [] ∨ ∃ fault, outcome'.status = .error (.undatable fault)) := by
  obtain ⟨outcome, given, -⟩ := exists_concludes world kind paths planned
  obtain ⟨outcome', given', -⟩ := exists_concludes world.withMemory kind paths planned
  have works := Plan.works_of_planned planned field
  have alongside := alongside_turns static calm names works lenient paths
  obtain ⟨front, others, same, beside, ends⟩ := alongside.exists_forall₂
  exact ⟨outcome, outcome', given, given', comesOf_turns planned field lenient given,
    comesOf_turns planned field lenient given', front, others, same, beside,
    ends.imp_right (exists_undatable_of_isCut planned given')⟩

end Outcomes

/-! ## Samples -/

/-- In the directory `d` there is memory for `s`, but not for `a`. -/
theorem run_withoutMemory :
    ∃ plan outcome, Plan.ofConfig .standard thorough = .ok plan ∧
      listPaths .standard exhausted .collect ["d"] thorough = .ok outcome ∧
      (displays plan exhausted .collect ["d"]).map (fun call =>
        (call.entries.getD []).map fun entry =>
          (entry.name, exhausted.lacks thorough call.parent entry)) =
      [[("d", false)], [("a", true), ("s", false)], [("x", false)]] :=
  exists_of_observed (by decide +kernel)

/-- With memory for all names, the listing comes to its end. -/
theorem run_exhausted_withMemory :
    ∃ plan outcome, Plan.ofConfig .standard thorough = .ok plan ∧
      listPaths .standard exhausted.withMemory .collect ["d"] thorough = .ok outcome ∧
      outcome.status.toOption = some 0 :=
  exists_of_observed (by decide +kernel)

theorem hasStaticNames_exhausted : exhausted.HasStaticNames :=
  ⟨by unfold NameTable.IsStatic; decide, by unfold NameTable.IsStatic; decide⟩

theorem exists_beside {beside : α → β → Prop} {all : List α} {all' : List β}
    (related : List.Forall₂ beside all all') {one : α} (member : one ∈ all) :
    ∃ other ∈ all', beside one other := by
  obtain ⟨i, inside, rfl⟩ := List.getElem_of_mem member
  have inside' : i < all'.length := related.length_eq ▸ inside
  exact ⟨all'[i], List.getElem_mem inside', related.get inside inside'⟩

/-- The list of `d` is given up at `a`, and what else is displayed is displayed as with memory. -/
theorem exhausted_listing_sample :
    PolicyKind.collect ≠ .failFast ∧ exhausted.HasStaticNames ∧
    ∃ plan outcome outcome', Plan.ofConfig .standard thorough = .ok plan ∧
      listPaths .standard exhausted .collect ["d"] thorough = .ok outcome ∧
      listPaths .standard exhausted.withMemory .collect ["d"] thorough = .ok outcome' ∧
      ComesOf plan exhausted .collect ["d"] (turns plan exhausted .collect ["d"]) outcome ∧
      ComesOf plan exhausted.withMemory .collect ["d"]
        (turns plan exhausted.withMemory .collect ["d"]) outcome' ∧
      List.Forall₂ (Turn.Beside exhausted.forget plan) (turns plan exhausted .collect ["d"])
        (turns plan exhausted.withMemory .collect ["d"]) ∧
      ∃ call ∈ displays plan exhausted .collect ["d"], ∃ entry, entry.name = "a" ∧
        GivenUp plan [] entry call := by
  have lenient : PolicyKind.collect ≠ .failFast := by decide
  obtain ⟨plan, _, planned, -, displayed⟩ := run_withoutMemory
  obtain ⟨_, last, planned', ended, ran⟩ := run_exhausted_withMemory
  cases planned.symm.trans planned'
  have same := (Plan.ofConfig_eq_ok planned).1
  obtain ⟨outcome, outcome', given, given', comes, comes', front, others, whole, beside, ends⟩ :=
    exhausted_listing (isStatic_of_faults faults_exhausted) (isCalm_of_faults faults_exhausted)
      hasStaticNames_exhausted planned ⟨_, rfl⟩ lenient ["d"]
  obtain rfl : outcome' = last := Except.ok.inj (given'.symm.trans ended)
  obtain rfl : others = [] := by
    refine ends.resolve_right fun ⟨_, cut⟩ => ?_
    rw [cut] at ran
    cases ran
  rw [List.append_nil] at whole
  rw [← whole] at beside
  refine ⟨lenient, hasStaticNames_exhausted, plan, outcome, outcome', planned, given, given', comes,
    comes', beside, ?_⟩
  have second : [("a", true), ("s", false)] ∈ (displays plan exhausted .collect ["d"]).map
      fun call => (call.entries.getD []).map fun entry =>
        (entry.name, exhausted.lacks thorough call.parent entry) := by
    rw [displayed]
    decide
  obtain ⟨call, member, seen⟩ := List.mem_map.mp second
  obtain ⟨entry, after, listed, first, -⟩ := List.map_eq_cons_iff.mp seen
  obtain ⟨name, lacks⟩ := Prod.mk.inj first
  rw [displays_eq_flatMap] at member
  obtain ⟨turn, among, made⟩ := List.mem_flatMap.mp member
  obtain ⟨turn', -, turns⟩ := exists_beside beside among
  obtain ⟨call', -, calls⟩ := exists_beside turns.calls made
  rw [← same] at lacks
  refine ⟨call, displays_eq_flatMap plan _ _ _ ▸ member, entry, name, ?_⟩
  exact calls.givenUp [] entry after listed (List.forall_mem_nil _) lacks

/-- A world with a directory `d`, in which there is no memory for the owner of a file that was
modified so late that no date can be told, and with a directory `e` next to it. -/
def exhaustedUndated : World :=
  let leaf := Client.sampleSketch .leaf 0o100644
  let undated := { leaf.status with owner := 7, modified := ⟨72057594037927936, 0⟩ }
  { (default : World) with
    files := .ofTree (.node "" (Client.sampleSketch .directory 0o040755) [
      .node "d" (Client.sampleSketch .directory 0o040755) [
        .node "a" { leaf with status := undated } []],
      .node "e" (Client.sampleSketch .directory 0o040755) [sampleFile]])
    owners := { exhausting := [(7, .always ())] } }

/-- Without memory for the file, the directory `e` is displayed after `d`. With memory for it, the
listing is given up in `d`. -/
theorem exists_cut_with_memory :
    exhaustedUndated.HasStaticNames ∧ ∃ plan outcome outcome',
      Plan.ofConfig .standard longLines = .ok plan ∧
      listPaths .standard exhaustedUndated .collect ["d", "e"] longLines = .ok outcome ∧
      listPaths .standard exhaustedUndated.withMemory .collect ["d", "e"] longLines = .ok outcome' ∧
      outcome.status.toOption = some 1 ∧
      (displays plan exhaustedUndated .collect ["d", "e"]).map (fun call =>
        call.parent.map Entry.name) = [none, some "d", some "e"] ∧
      outcome'.status = .error (.undatable (.system .tooLarge)) ∧
      (displays plan exhaustedUndated.withMemory .collect ["d", "e"]).map (fun call =>
        call.parent.map Entry.name) = [none, some "d"] := by
  obtain ⟨plan, outcome, planned, given, ran⟩ : ∃ plan outcome,
      Plan.ofConfig .standard longLines = .ok plan ∧
      listPaths .standard exhaustedUndated .collect ["d", "e"] longLines = .ok outcome ∧
      (outcome.status.toOption, (displays plan exhaustedUndated .collect ["d", "e"]).map fun call =>
        call.parent.map Entry.name) = (some 1, [none, some "d", some "e"]) :=
    exists_of_observed (by decide +kernel)
  obtain ⟨_, outcome', planned', given', ran'⟩ : ∃ plan outcome,
      Plan.ofConfig .standard longLines = .ok plan ∧
      listPaths .standard exhaustedUndated.withMemory .collect ["d", "e"] longLines = .ok outcome ∧
      (outcome.status,
        (displays plan exhaustedUndated.withMemory .collect ["d", "e"]).map fun call =>
          call.parent.map Entry.name) =
        (.error (.undatable (.system .tooLarge)), [none, some "d"]) :=
    exists_of_observed (by decide +kernel)
  cases planned.symm.trans planned'
  obtain ⟨status, displayed⟩ := Prod.mk.inj ran
  obtain ⟨status', displayed'⟩ := Prod.mk.inj ran'
  have names : exhaustedUndated.HasStaticNames :=
    ⟨by unfold NameTable.IsStatic; decide, by unfold NameTable.IsStatic; decide⟩
  exact ⟨names, plan, outcome, outcome', planned, given, given', status, displayed, status',
    displayed'⟩

end Run
end DirList
