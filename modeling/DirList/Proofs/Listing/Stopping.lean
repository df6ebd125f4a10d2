import DirList.Proofs.Listing.Following

/-!
# Why runs are given up

Once its walk is open, a run is given up for the reasons that jobs are given up for, and for no
other. Some of these are about an entry that is shown, and then one of the calls of the run has
shown it.

Results:
1. `Follows.stops_react`: why a run is given up at an event.
2. `stops_walkRoots`: why it is given up once its walk is open.
3. `list_stops`: why it is given up at all.
4. `turns_of_fatal`: a run that cannot open its walk has no turns.
-/

namespace DirList.Run

open FileSystem Walk

/-! ## What is shown -/

/-- The entries that a call shows. -/
def Display.visible {ω : Type} (config : Config) (call : Display ω) : List Entry :=
  (call.entries.getD []).filter (Recursion.isShown config call.parent)

/-- The entries that calls show. -/
def shown {ω : Type} (plan : Plan) (calls : List (Display ω)) : List Entry :=
  calls.flatMap (Display.visible plan.config)

/-- An entry that calls show is shown by one of them. -/
theorem of_mem_shown {ω : Type} {plan : Plan} {calls : List (Display ω)} {entry : Entry}
    (member : entry ∈ shown plan calls) :
    ∃ call ∈ calls, entry ∈ call.entries.getD [] ∧
      Recursion.isShown plan.config call.parent entry = true := by
  obtain ⟨call, made, member⟩ := List.mem_flatMap.mp member
  exact ⟨call, made, List.mem_filter.mp member⟩

theorem shown_append {ω : Type} (plan : Plan) (calls calls' : List (Display ω)) :
    shown plan (calls ++ calls') = shown plan calls ++ shown plan calls' :=
  List.flatMap_append

section Excuses

variable {walk : Walk} {run run' : Run Walk} {config : Config}

/-- What excuses a step excuses those before it. -/
theorem Keeps.stops {α : Type} {shown : List Entry} {step : Stride Walk α} {start : Run Walk}
    (keeps : Keeps run run') (stops : Stops (Excused config shown run') step start) :
    Stops (Excused config shown run) step start :=
  fun abort stopped => Excuse.back keeps.files keeps.kind (stops abort stopped)

theorem Interrupts.stops {α : Type} {namesOnly : Bool} {shown : List Entry} {step : Stride Walk α}
    (interrupts : Interrupts walk namesOnly run)
    (interrupted : step.run.run run = (.error .interrupted, run')) :
    Stops (Excused config shown run) step run := by
  intro abort stopped
  rw [interrupted] at stopped
  cases stopped
  obtain ⟨directory, stop, _, given⟩ := interrupts
  refine .interrupted fun calm => ?_
  exact listing_ne_error calm .refl walk namesOnly directory stop (congrArg Prod.fst given)

end Excuses

/-! ## Runs -/

section Runs

variable {base : FileSystem} {plan : Plan} {used : List Nat} {walk : Walk} {run : Run Walk}
  {event : Entry} {all : List Entry}

theorem Follows.stops_children (follows : Follows base plan used walk run)
    (directory : Option Entry) (namesOnly : Bool) :
    Stops (Excused plan.config all run) (onSource (Source.children directory namesOnly)) run := by
  obtain ⟨_, _, _, lists, -⟩ | ⟨⟨_, interrupted⟩, interrupts⟩ :=
    follows.children_cases directory namesOnly
  · exact .of_settles lists
  · exact interrupts.stops interrupted

theorem Follows.stops_read (follows : Follows base plan used walk run) :
    Stops (Excused plan.config all run) (onSource Source.read) run := by
  obtain ⟨_, _, _, reads, -⟩ | ⟨⟨_, interrupted⟩, interrupts⟩ := follows.read_cases
  · exact .of_settles reads
  · exact interrupts.stops interrupted

variable (standard : RendererTable.standard.select plan.config = .ok plan.renderer)

include standard

/-- Why a call is given up. -/
theorem stops_display {parent : Option Entry} {entries : Option (List Entry)}
    (within : shown plan [⟨parent, entries, run⟩] ⊆ all) :
    Stops (Excused plan.config all run) (display plan parent entries) run := by
  rw [shown, List.flatMap_singleton] at within
  exact fun abort stopped =>
    Excuse.mono within ((orderly_display standard parent entries run).2 abort stopped)

/-- Why a run is given up at an event. -/
theorem Follows.stops_react (follows : Follows base plan used walk run)
    (current : walk.current = some event)
    (within : shown plan (displaysAt plan (Recursion.namesOnly plan) event run) ⊆ all) :
    Stops (Excused plan.config all run) (react plan (Recursion.namesOnly plan) event) run := by
  unfold displaysAt at within
  unfold react
  cases kind : event.kind with
  | directory =>
    have at_ : walk.here? = some event := here?_eq_some.mpr ⟨current, kind⟩
    rw [kind] at within
    dsimp only at within ⊢
    unfold enter
    split
    · obtain ⟨_, skips, -⟩ := follows.skip at_
      exact .of_settles skips
    next visible =>
      rw [if_neg visible] at within
      refine (follows.stops_children _ _).bind fun entries run₁ listed => ?_
      rw [onward_of_settles listed] at within
      obtain ⟨walk₁, looks, lists, follows₁⟩ := follows.children listed
      refine (looks.keeps.stops (stops_display standard within)).bind fun _ run₂ displayed => ?_
      have extends_ := (orderly_display standard (some event) entries).settles displayed
      split
      · obtain ⟨_, skips, -⟩ := (follows₁.extend extends_).skip (lists.here.trans at_)
        exact .of_settles skips
      · exact .of_settles (.pure () run₂)
  | cycle | unreadable | error => exact (orderly_report rfl run).2
  | finished | file | symlink | dangling | other | dot | noStatus | unasked =>
    exact .of_settles (.pure () run)

/-- Why a run is given up while it follows its walk. -/
theorem Follows.stops_follow {fuel : Nat} (follows : Follows base plan used walk run)
    (within : shown plan
      ((followTurns plan (Recursion.namesOnly plan) fuel run).flatMap Turn.calls) ⊆ all) :
    Stops (Excused plan.config all run) (follow plan (Recursion.namesOnly plan) fuel) run := by
  induction fuel generalizing used walk run with
  | zero => exact .of_settles (.pure () run)
  | succ fuel ih =>
    unfold follow
    refine follows.stops_read.bind fun event run₁ reads => ?_
    rw [followTurns, onward_of_settles reads] at within
    obtain ⟨walk₁, looks, reads', follows₁⟩ := follows.read reads
    cases event with
    | none => exact .of_settles (.pure () run₁)
    | some event =>
      dsimp only at within
      rw [List.flatMap_cons, shown_append, List.append_subset] at within
      have reacts := follows₁.stops_react standard reads'.current within.1
      refine (looks.keeps.stops reacts).bind fun _ run₂ reacted => ?_
      obtain ⟨_, reacts', follows₂⟩ := follows₁.reacts standard reads'.current reacted
      have rest := within.2
      rw [onward_of_settles reacted] at rest
      exact (looks.keeps.trans reacts'.keeps).stops (ih follows₂ rest)

/-- Why a run is given up once its walk is open. -/
theorem stops_walkRoots {world : World} {kind : PolicyKind} {paths : List String} {run₀ : Run Walk}
    (starts : Settles (onSource (Source.start paths)) ((fresh plan world kind).atStart paths) ()
      run₀)
    (within : shown plan (listDisplays plan paths (fresh plan world kind)) ⊆ all) :
    Stops (Excused plan.config all ((fresh plan world kind).atStart paths)) (walkRoots plan)
      run₀ := by
  obtain ⟨_, follows, -, -, looks₀⟩ := exists_follows_of_start starts
  rw [listDisplays, listTurns, onward_of_settles starts, List.flatMap_cons, shown_append,
    List.append_subset] at within
  obtain ⟨roots, others⟩ := within
  unfold walkRoots
  refine (looks₀.keeps.stops (follows.stops_children none false)).bind fun entries run₁ listed => ?_
  obtain ⟨walk, follows₁, -, rfl, -, looks⟩ := exists_follows_of_roots starts listed
  unfold rootsTurn at roots
  rw [onward_of_settles listed] at roots
  refine (looks.keeps.stops (stops_display standard roots)).bind fun _ run₂ displayed => ?_
  have extends_ := (orderly_display standard none _).settles displayed
  have follows₂ := follows₁.extend extends_
  have held : run₂.source.options = plan.options := by
    rw [follows₂.source]
    rfl
  have shows : Settles (showRoots plan) run₀ () run₂ := listed.bind displayed
  rw [onward_of_settles shows, walkTurns, held] at others
  cases directories : plan.config.listDirectory with
  | true => exact .of_settles (.pure () run₂)
  | false =>
    rw [directories, if_neg Bool.false_ne_true] at others
    refine Stops.bind (.of_settles (.get run₂)) fun seen run₃ same => ?_
    cases same
    rw [held]
    exact (looks.keeps.trans extends_.keeps).stops (follows₂.stops_follow standard others)

omit standard in
/-- What keeps a walk from being started is an error that ends a walk, or a null character. -/
theorem yields_fatal_start {files : FileSystem} (serial : Nat) (paths : List String)
    (options : WalkOptions) (comparator : Option Comparator) :
    files.Yields (Walk.start serial paths options comparator) fun answer =>
      ∀ failure, answer = .error failure →
        (∃ error, Source.refusal paths failure = .listing error ∧ error.isFatal = true) ∨
        Source.refusal paths failure = .nullPath ∧ ∃ path ∈ paths, Path.hasNull path = true := by
  unfold Walk.start
  cases unfit : Walk.unfit paths with
  | none =>
    refine (yields_readRoots _ serial paths).bind fun found _ => ?_
    split
    next error _ =>
      refine Yields.pure fun _ same => Except.error.inj same ▸ .inl ?_
      cases error <;> exact ⟨_, rfl, rfl⟩
    · exact Yields.pure fun _ no => nomatch no
  | some failure =>
    unfold Walk.unfit at unfit
    split_ifs at unfit with empty unnamed null
    · cases unfit
      exact Yields.pure fun _ same => Except.error.inj same ▸ .inl ⟨_, rfl, rfl⟩
    · cases unfit
      exact Yields.pure fun _ same => Except.error.inj same ▸ .inl ⟨_, rfl, rfl⟩
    · cases unfit
      exact (yields_readRoots _ _ _).bind fun _ _ => Yields.pure fun _ same =>
        Except.error.inj same ▸ .inr ⟨rfl, List.any_eq_true.mp null⟩

omit standard in
/-- A listing is given up while its walk is started, or once the walk is open. -/
theorem list_error_cases {paths : List String} {run run' : Run Walk} {abort : Abort}
    (stopped : (list plan paths).run.run run = (.error abort, run')) :
    (onSource (Source.start paths)).run.run (run.atStart paths) = (.error abort, run') ∨
    ∃ run₀, Settles (onSource (Source.start paths)) (run.atStart paths) () run₀ ∧
      ((walkRoots plan).run.run run₀).1 = .error abort := by
  rw [run_list] at stopped
  rcases starts : (onSource (Source.start paths)).run.run (run.atStart paths) with
    ⟨abort' | _, run₀⟩
  · rw [starts] at stopped
    cases stopped
    exact .inl rfl
  rw [starts] at stopped
  dsimp only at stopped
  rcases walks : (walkRoots plan).run.run run₀ with ⟨abort' | _, run₁⟩
  · rw [walks] at stopped
    cases stopped
    exact .inr ⟨run₀, starts, congrArg Prod.fst walks⟩
  · rw [walks] at stopped
    obtain ⟨_, _, finishes, -⟩ := exists_finish { run₁ with source := run₁.source.close }
    cases finishes.symm.trans stopped

/-- Why a run is given up: it has an excuse, or its walk could not be started. -/
theorem list_stops {world : World} {kind : PolicyKind} {paths : List String} {abort : Abort}
    (stopped : (list plan paths).run.run (fresh plan world kind) = (.error abort, run)) :
    Excuse plan.config (shown plan (listDisplays plan paths (fresh plan world kind)))
        (Session.fresh world kind) abort ∨
      (∃ error, abort = .listing error ∧ error.isFatal = true ∧ run.session.policy.kind = kind) ∨
      abort = .nullPath ∧ ∃ path ∈ paths, Path.hasNull path = true := by
  rcases list_error_cases stopped with starts | ⟨run₀, starts, walks⟩
  · rw [run_start] at starts
    have spared := fun calm : world.files.IsCalm =>
      spares_start calm 0 paths plan.options plan.comparator world.files .refl
    rcases ran : (Walk.start 0 paths plan.options plan.comparator).run.run world.files with
      ⟨stop | failure | walk, files⟩
    · rw [ran] at starts spared
      cases starts
      cases stop
      exact .inl (.interrupted fun calm => spared calm rfl)
    · rw [ran] at starts
      cases starts
      have fatal := (yields_fatal_start 0 paths plan.options plan.comparator world.files .refl).2
      rw [ran] at fatal
      refine .inr ((fatal _ rfl failure rfl).imp ?_ ?_)
      · rintro ⟨error, same, fatal⟩
        exact ⟨error, congrArg GivesUp.abort same, fatal, rfl⟩
      · exact And.imp_left (congrArg GivesUp.abort)
    · rw [ran] at starts
      cases starts
  · exact .inl (stops_walkRoots standard starts (List.Subset.refl _) _ walks)

/-- A walk that cannot be opened leaves no turns. -/
theorem listTurns_of_fatal {world : World} {kind : PolicyKind} {paths : List String}
    {error : ListingError} (fatal : error.isFatal = true)
    (stopped : (list plan paths).run.run (fresh plan world kind) =
      (.error (.listing error), run)) : listTurns plan paths (fresh plan world kind) = [] := by
  rcases list_error_cases stopped with starts | ⟨run₀, starts, walks⟩
  · exact onward_of_error (congrArg Prod.fst starts)
  · have excuse := stops_walkRoots standard starts (List.Subset.refl _) _ walks
    cases fatal.symm.trans (excuse.mild error rfl)

end Runs

theorem turns_of_fatal {config : Config} {plan : Plan} {world : World} {kind : PolicyKind}
    {paths : List String} {run : Run Walk} {error : ListingError}
    (planned : Plan.ofConfig .standard config = .ok plan) (fatal : error.isFatal = true)
    (stopped : (list plan (pathsOrDefault paths)).run.run (fresh plan world kind) =
      (.error (.listing error), run)) : turns plan world kind paths = [] :=
  listTurns_of_fatal (Plan.select_of_planned planned) fatal stopped

end DirList.Run
