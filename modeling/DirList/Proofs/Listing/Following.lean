import DirList.Proofs.Listing.Displaying
import DirList.Proofs.Listing.Simulation

/-!
# Runs and their walks in any world

A run drives its walk while calls fail and succeed as the schedules have it. What can happen at one
event is said once, case by case, whatever the world answers.

Results:
1. `Walk.Sound.reads`, `Walk.Sound.answers`, `Walk.Sound.skip`: what the steps of a run keep of its
   walk.
2. `Follows.read_cases`, `Follows.children_cases`: reading and listing through the source.
3. `Follows.reacts`: what a run does at an event.
4. `begins_of_roots`: a run that displays its roots follows a walk at its start.
-/

namespace DirList

open FileSystem Walk

/-! ## The walk of a run -/

/-- `Sound base used walk`: what is true of an open walk over `base` of which only directories were
skipped that it had reported. The numbers `used` are those of its events. -/
structure Walk.Sound (base : FileSystem) (used : List Nat) (walk : Walk) : Prop where
  isOpen : walk.closed = false
  unlisted : walk.here? = none → walk.listed = none
  numbered : Numbered used walk
  skipped : ∀ serial ∈ walk.skipped, serial ∈ used
  here : ∀ directory, walk.here? = some directory → directory.serial ∈ used
  holds : Holds (Entry.Grounded base) (fun directory entries =>
    ∃ serial, Listing base walk.options.logical directory serial entries) walk

namespace Walk.Sound

variable {base files files' : FileSystem} {used : List Nat} {walk walk' : Walk}

/-- A directory has a number of its own. -/
theorem opened_of_here {event : Option Entry} {directory : Entry}
    (reads : Reads walk files event walk' files') (at_ : walk'.here? = some directory) :
    opened event = [directory.serial] := by
  obtain ⟨current, kind⟩ := here?_eq_some.mp at_
  cases reads.current.symm.trans current
  simp [opened, isClosing, kind]

theorem reads (sound : Sound base used walk) (wears : base.Wears files) {event : Option Entry}
    (reads : Reads walk files event walk' files') : Sound base (used ++ opened event) walk' := by
  have same := reads.sameWalk
  refine ⟨same.closed.trans sound.isOpen, fun _ => reads.listed sound.unlisted,
    sound.numbered.reads reads sound.unlisted, fun serial skip => ?_, fun directory at_ => ?_, ?_⟩
  · rw [same.skipped] at skip
    exact List.mem_append_left _ (sound.skipped serial skip)
  · rw [opened_of_here reads at_]
    exact List.mem_append_right _ List.mem_cons_self
  · rw [same.options]
    refine (sound.holds.reads reads (fun _ _ _ given => ⟨_, listing_spec wears given⟩) ?_).1
    intro directory entries kind grounded ⟨_, listing⟩ entry member
    exact grounded_of_isChildOf grounded kind (listing.child entry member)
      (listing.found entry member)

theorem answers (sound : Sound base used walk) (wears : base.Wears files) {namesOnly : Bool}
    {answer : Option (List Entry)} (lists : Lists walk files namesOnly answer walk' files') :
    Sound base used walk' := by
  have same := lists.sameWalk
  refine ⟨same.closed.trans sound.isOpen, fun away => ?_, sound.numbered.answers lists, ?_, ?_, ?_⟩
  · rw [lists.here] at away
    cases lists with
    | roots | nowhere => exact sound.unlisted away
    | fail => rfl
    | give _ at_ => cases away.symm.trans at_
  · rw [same.skipped]
    exact sound.skipped
  · rw [lists.here]
    exact sound.here
  · rw [same.options]
    exact sound.holds.answers lists fun _ _ _ given => ⟨_, listing_spec wears given⟩

theorem skip (sound : Sound base used walk) {directory : Entry}
    (at_ : walk.here? = some directory) : Sound base used (walk.skip directory) where
  isOpen := sound.isOpen
  unlisted := sound.unlisted
  numbered := ⟨sound.numbered.nodup, sound.numbered.below, sound.numbered.opening⟩
  skipped := fun serial skip => (List.mem_cons.mp skip).elim
    (fun same => same ▸ sound.here directory at_) (sound.skipped serial)
  here := sound.here
  holds := ⟨sound.holds.roots, sound.holds.awaited, sound.holds.here, sound.holds.frames,
    sound.holds.listed⟩

/-- A directory just reported is not skipped yet. -/
theorem not_skipped (sound : Sound base used walk) {event : Option Entry} {directory : Entry}
    (reads : Reads walk files event walk' files') (at_ : walk'.here? = some directory) :
    directory.serial ∉ walk'.skipped := by
  have numbered := sound.numbered.reads reads sound.unlisted
  have distinct := numbered.nodup.sublist (List.sublist_append_left _ _)
  rw [opened_of_here reads at_] at distinct
  intro skip
  rw [reads.sameWalk.skipped] at skip
  exact List.disjoint_of_nodup_append distinct (sound.skipped _ skip) List.mem_cons_self

/-- An event makes the load smaller. -/
theorem load_lt (sound : Sound base used walk) (wears : base.Wears files) {event : Entry}
    (reads : Reads walk files (some event) walk' files') : walk'.load base < walk.load base := by
  have holds : Holds (Entry.Grounded base)
      (ReadIn base walk.options.logical walk.here?.toList) walk := by
    refine ⟨sound.holds.roots, sound.holds.awaited, sound.holds.here, sound.holds.frames,
      fun entries known => ?_⟩
    obtain ⟨directory, at_, listing⟩ := sound.holds.listed entries known
    refine ⟨directory, at_, ?_, listing⟩
    rw [at_]
    exact List.mem_cons_self
  exact load_lt_of_reads holds wears reads

/-- A walk that was just started is sound. -/
theorem ofStarts {serial : Nat} {paths : List String} {options : WalkOptions}
    {comparator : Option Comparator} (starts : Starts base serial paths options comparator walk) :
    Sound base [] walk where
  isOpen := by rw [starts.fresh]
  unlisted := fun _ => starts.unlisted
  numbered := .ofStarts starts
  skipped := by
    rw [starts.fresh]
    exact List.forall_mem_nil _
  here := fun _ at_ => nomatch starts.nowhere.symm.trans at_
  holds := .ofStarts starts starts.roots.grounded

end Walk.Sound

/-! ## A run and its walk -/

namespace Run

/-- `Looks run run'`: the run has done nothing but ask its source. -/
structure Looks {ω : Type} (run run' : Run ω) : Prop where
  state : run'.state = run.state
  policy : run'.session.policy = run.session.policy
  files : run.session.world.files.Wears run'.session.world.files

/-- `Follows base plan used walk run`: the run drives `walk` by the plan, in a world whose files
were `base` at first. -/
structure Follows (base : FileSystem) (plan : Plan) (used : List Nat) (walk : Walk)
    (run : Run Walk) : Prop where
  source : run.source = held plan 1 walk
  wears : base.Wears run.session.world.files
  options : walk.options = plan.options
  comparator : walk.comparator = plan.comparator
  sound : walk.Sound base used

variable {base : FileSystem} {plan : Plan} {used : List Nat} {walk : Walk} {run run' : Run Walk}
  {namesOnly : Bool} {event : Entry}

/-- A walk whose listing is interrupted has the run interrupted. -/
def Interrupts (walk : Walk) (namesOnly : Bool) (run : Run Walk) : Prop :=
  ∃ directory stop files',
    walk.listing namesOnly directory run.session.world.files = (.error stop, files')

namespace Follows

/-- The run reads what its walk reads. -/
theorem read_cases (follows : Follows base plan used walk run) :
    (∃ event run' walk', Settles (onSource Source.read) run event run' ∧ Looks run run' ∧
      Reads walk run.session.world.files event walk' run'.session.world.files ∧
      Follows base plan (used ++ opened event) walk' run') ∨
    (∃ run', (onSource Source.read).run.run run = (.error .interrupted, run')) ∧
      Interrupts walk false run := by
  have came := run_onSource Source.read run
  rw [follows.source, read_held, run_bind] at came
  rcases Walk.read_cases follows.sound.isOpen run.session.world.files with
    ⟨event, walk', files', ran, reads⟩ | ⟨directory, stop, files', ran, stops⟩
  · rw [ran] at came
    have wears := reads.wears
    refine .inl ⟨event, _, walk', came, ⟨rfl, rfl, wears⟩, reads, rfl, follows.wears.trans wears,
      reads.sameWalk.options.trans follows.options,
      reads.sameWalk.comparator.trans follows.comparator, follows.sound.reads follows.wears reads⟩
  · rw [ran] at came
    exact .inr ⟨⟨_, came⟩, directory, stop, files', stops⟩

theorem read (follows : Follows base plan used walk run) {event : Option Entry}
    (settles : Settles (onSource Source.read) run event run') :
    ∃ walk', Looks run run' ∧
      Reads walk run.session.world.files event walk' run'.session.world.files ∧
      Follows base plan (used ++ opened event) walk' run' := by
  obtain ⟨_, _, walk', settles', looks, reads, follows'⟩ | ⟨⟨_, stopped⟩, -⟩ := follows.read_cases
  case inr => cases stopped.symm.trans settles
  obtain ⟨rfl, rfl⟩ := settles.unique settles'
  exact ⟨walk', looks, reads, follows'⟩

/-- The run lists what its walk lists. -/
theorem children_cases (follows : Follows base plan used walk run) (directory : Option Entry)
    (namesOnly : Bool) :
    (∃ answer run' walk',
      Settles (onSource (Source.children directory namesOnly)) run answer run' ∧ Looks run run' ∧
      Lists walk run.session.world.files namesOnly answer walk' run'.session.world.files ∧
      Follows base plan used walk' run') ∨
    (∃ run', (onSource (Source.children directory namesOnly)).run.run run =
      (.error .interrupted, run')) ∧ Interrupts walk namesOnly run := by
  have came := run_onSource (Source.children directory namesOnly) run
  rw [follows.source, children_held, run_bind] at came
  rcases Walk.children_cases walk namesOnly run.session.world.files with
    ⟨answer, walk', files', ran, lists⟩ | ⟨directory, stop, files', ran, stops⟩
  · rw [ran] at came
    have wears := lists.wears
    refine .inl ⟨answer, _, walk', came, ⟨rfl, rfl, wears⟩, lists, rfl, follows.wears.trans wears,
      lists.sameWalk.options.trans follows.options,
      lists.sameWalk.comparator.trans follows.comparator,
      follows.sound.answers follows.wears lists⟩
  · rw [ran] at came
    exact .inr ⟨⟨_, came⟩, directory, stop, files', stops⟩

theorem children (follows : Follows base plan used walk run) {directory : Option Entry}
    {namesOnly : Bool} {answer : Option (List Entry)}
    (settles : Settles (onSource (Source.children directory namesOnly)) run answer run') :
    ∃ walk', Looks run run' ∧
      Lists walk run.session.world.files namesOnly answer walk' run'.session.world.files ∧
      Follows base plan used walk' run' := by
  obtain ⟨_, _, walk', settles', looks, lists, follows'⟩ | ⟨⟨_, stopped⟩, -⟩ :=
    follows.children_cases directory namesOnly
  case inr => cases stopped.symm.trans settles
  obtain ⟨rfl, rfl⟩ := settles.unique settles'
  exact ⟨walk', looks, lists, follows'⟩

/-- The run skips the directory that its walk has just reported. -/
theorem skip (follows : Follows base plan used walk run) {directory : Entry}
    (at_ : walk.here? = some directory) :
    ∃ run', Settles (Run.skip directory) run () run' ∧ Looks run run' ∧
      Follows base plan used (walk.skip directory) run' := by
  have settles : Settles (Run.skip directory) run ()
      { run with source := held plan 1 (walk.skip directory) } := by
    unfold Settles Run.skip
    rw [run_onSource, follows.source]
    rfl
  exact ⟨_, settles, ⟨rfl, rfl, .refl⟩, rfl, follows.wears, follows.options, follows.comparator,
    follows.sound.skip at_⟩

/-- Whatever only adds to the session leaves the walk where it is. -/
theorem extend (follows : Follows base plan used walk run) (extends_ : Extends run run') :
    Follows base plan used walk run' := by
  obtain ⟨_, adds⟩ := extends_.session
  exact { follows with
    source := extends_.source.trans follows.source
    wears := follows.wears.trans adds.files }

end Follows

/-! ## Events -/

/-- The walk once a directory was displayed: the run keeps it out of the directory unless the
listing is recursive or nothing was found there. -/
def leftBehind (plan : Plan) (walk : Walk) (directory : Entry) (entries : Option (List Entry)) :
    Walk :=
  if !plan.config.recursive && !(entries.getD []).isEmpty then walk.skip directory else walk

/-- `Reacts plan namesOnly event walk run calls walk' run'`: what a run does at an event.

* `ignore`: the event is about no directory to be entered. One that could not be listed is reported.
* `pass`: a directory is passed over.
* `enter`: a directory is listed and displayed. -/
inductive Reacts (plan : Plan) (namesOnly : Bool) (event : Entry) (walk : Walk) (run : Run Walk) :
    List (Display Walk) → Walk → Run Walk → Prop
  | ignore {run' : Run Walk} : event.kind ≠ .directory → Extends run run' →
      (event.kind = .unreadable →
        .ofCode .node event.name event.errorCode ∈ run'.session.policy.errors) →
      Reacts plan namesOnly event walk run [] walk run'
  | pass {run' : Run Walk} : event.kind = .directory →
      Recursion.isPassedOver plan.config event = true → Looks run run' →
      Reacts plan namesOnly event walk run [] (walk.skip event) run'
  | enter {entries : Option (List Entry)} {walk₁ : Walk} {run₁ run₂ run' : Run Walk} :
      event.kind = .directory → Recursion.isPassedOver plan.config event = false →
      Looks run run₁ →
      Lists walk run.session.world.files namesOnly entries walk₁ run₁.session.world.files →
      Settles (display plan (some event) entries) run₁ () run₂ → Extends run₁ run₂ →
      Looks run₂ run' →
      Reacts plan namesOnly event walk run [⟨some event, entries, run₁⟩]
        (leftBehind plan walk₁ event entries) run'

/-- The walk is still at the event. -/
theorem Reacts.unmoved {calls : List (Display Walk)} {walk' : Walk}
    (reacts : Reacts plan namesOnly event walk run calls walk' run') :
    walk'.current = walk.current ∧ walk'.frames = walk.frames ∧ walk'.pending = walk.pending := by
  cases reacts with
  | ignore | pass => exact ⟨rfl, rfl, rfl⟩
  | enter _ _ _ lists =>
    obtain ⟨current, frames, pending, -⟩ := lists.unmoved
    unfold leftBehind
    split <;> exact ⟨current, frames, pending⟩

/-- `Keeps run run'`: the run goes on with its errors, under the same kind of policy, and calls have
worn the files. -/
structure Keeps {ω : Type} (run run' : Run ω) : Prop where
  state : Goes run.state run'.state
  kind : run'.session.policy.kind = run.session.policy.kind
  errors : run.session.policy.errors <+: run'.session.policy.errors
  files : run.session.world.files.Wears run'.session.world.files

theorem Looks.keeps (looks : Looks run run') : Keeps run run' := by
  refine ⟨?_, ?_, ?_, looks.files⟩
  · rw [looks.state]
    exact .refl _
  · rw [looks.policy]
  · rw [looks.policy]

theorem Extends.keeps (extends_ : Extends run run') : Keeps run run' := by
  obtain ⟨_, adds⟩ := extends_.session
  exact ⟨extends_.state, adds.kind, adds.errors, adds.files⟩

theorem Keeps.trans {run'' : Run Walk} (first : Keeps run run') (second : Keeps run' run'') :
    Keeps run run'' :=
  ⟨first.state.trans second.state, second.kind.trans first.kind,
    first.errors.trans second.errors, first.files.trans second.files⟩

theorem Reacts.keeps {calls : List (Display Walk)} {walk' : Walk}
    (reacts : Reacts plan namesOnly event walk run calls walk' run') : Keeps run run' := by
  cases reacts with
  | ignore _ extends_ => exact extends_.keeps
  | pass _ _ looks => exact looks.keeps
  | enter _ _ looks _ _ extends_ looks' =>
    exact looks.keeps.trans (extends_.keeps.trans looks'.keeps)

theorem mem_errors_of_report {error : ListingError}
    (settles : Settles (report error) run () run') : error ∈ run'.session.policy.errors := by
  unfold Settles at settles
  rw [run_report] at settles
  obtain ⟨-, rfl⟩ := Prod.mk.inj settles
  dsimp only
  rw [Policy.errors_handle]
  exact List.mem_append_right _ List.mem_cons_self

section Standard

variable (standard : RendererTable.standard.select plan.config = .ok plan.renderer)

include standard

/-- What a run does at the beginning of a visit. -/
theorem Follows.enters (follows : Follows base plan used walk run)
    (at_ : walk.here? = some event) (settles : Settles (enter plan namesOnly event) run () run') :
    ∃ walk', Reacts plan namesOnly event walk run (displaysAt plan namesOnly event run) walk' run' ∧
      Follows base plan used walk' run' := by
  have kind := (here?_eq_some.mp at_).2
  have hidden : Recursion.isPassedOver plan.config event =
      (event.isHidden && !event.isRoot && !plan.config.showHidden) := rfl
  unfold enter at settles
  unfold displaysAt
  rw [kind]
  dsimp only
  rw [← hidden] at settles ⊢
  cases passed : Recursion.isPassedOver plan.config event with
  | true =>
    rw [passed, if_pos rfl] at settles
    rw [if_pos rfl]
    obtain ⟨run'', skips, looks, follows'⟩ := follows.skip at_
    obtain ⟨-, rfl⟩ := settles.unique skips
    exact ⟨_, .pass kind passed looks, follows'⟩
  | false =>
    rw [passed, if_neg Bool.false_ne_true] at settles
    rw [if_neg Bool.false_ne_true]
    obtain ⟨entries, run₁, listed, settles⟩ := Settles.of_bind settles
    obtain ⟨_, run₂, displays, settles⟩ := Settles.of_bind settles
    rw [onward_of_settles listed]
    obtain ⟨walk₁, looks, lists, follows₁⟩ := follows.children listed
    have extends_ := (orderly_display standard (some event) entries).settles displays
    have follows₂ := follows₁.extend extends_
    have at₁ : walk₁.here? = some event := lists.here.trans at_
    have left : Looks run₂ run' ∧
        Follows base plan used (leftBehind plan walk₁ event entries) run' := by
      unfold leftBehind
      split at settles
      next leaves =>
        rw [if_pos leaves]
        obtain ⟨run'', skips, looks', follows'⟩ := follows₂.skip at₁
        obtain ⟨-, rfl⟩ := settles.unique skips
        exact ⟨looks', follows'⟩
      next stays =>
        cases settles
        rw [if_neg stays]
        exact ⟨⟨rfl, rfl, .refl⟩, follows₂⟩
    exact ⟨_, .enter kind passed looks lists displays extends_ left.1, left.2⟩

/-- What a run does at an event. -/
theorem Follows.reacts (follows : Follows base plan used walk run)
    (current : walk.current = some event)
    (settles : Settles (react plan namesOnly event) run () run') :
    ∃ walk', Reacts plan namesOnly event walk run (displaysAt plan namesOnly event run) walk' run' ∧
      Follows base plan used walk' run' := by
  by_cases kind : event.kind = .directory
  · unfold react at settles
    rw [kind] at settles
    exact follows.enters standard (here?_eq_some.mpr ⟨current, kind⟩) settles
  have none : displaysAt plan namesOnly event run = [] :=
    (displaysAt_cases plan namesOnly event run).resolve_right fun entered => kind entered.1
  rw [none]
  have reports : ∀ {error : ListingError}, error.isFatal = false →
      (event.kind = .unreadable → error = .ofCode .node event.name event.errorCode) →
      Settles (report error) run () run' →
      ∃ walk', Reacts plan namesOnly event walk run [] walk' run' ∧
        Follows base plan used walk' run' := by
    intro error mild same settles
    have extends_ := extends_of_report mild settles
    refine ⟨walk, .ignore kind extends_ fun unreadable => ?_, follows.extend extends_⟩
    rw [← same unreadable]
    exact mem_errors_of_report settles
  unfold react at settles
  cases kind' : event.kind with
  | directory => exact absurd kind' kind
  | cycle =>
    rw [kind'] at settles
    exact reports rfl (fun no => by cases kind'.symm.trans no) settles
  | unreadable | error =>
    rw [kind'] at settles
    exact reports rfl (fun _ => rfl) settles
  | finished | file | symlink | dangling | other | dot | noStatus | unasked =>
    rw [kind'] at settles
    cases settles
    refine ⟨walk, .ignore kind (refl_of Extends run) fun no => ?_, follows⟩
    cases kind'.symm.trans no

end Standard

/-! ## The beginning of a run -/

section Beginning

variable {world : World} {kind : PolicyKind} {paths : List String} {run₀ : Run Walk}

/-- A run starts its walk with the files of its world. -/
theorem run_start (plan : Plan) (world : World) (kind : PolicyKind) (paths : List String) :
    (onSource (Source.start paths)).run.run ((fresh plan world kind).atStart paths) =
      match (Walk.start 0 paths plan.options plan.comparator).run.run world.files with
      | (.error _, files) =>
        (.error .interrupted, (fresh plan { world with files } kind).atStart paths)
      | (.ok (.error failure), files) =>
        (.error (GivesUp.abort (Source.refusal paths failure)),
          (fresh plan { world with files } kind).atStart paths)
      | (.ok (.ok walk), files) =>
        (.ok (), { (fresh plan { world with files } kind).atStart paths with
          source := held plan 1 walk }) := by
  have asks : (Source.start paths (plan.source Walk.walker)).run.run world.files =
      match (Walk.start 0 paths plan.options plan.comparator).run.run world.files with
      | (.error stop, files) => (.error stop, files)
      | (.ok (.error failure), files) =>
        (.ok (.error (Source.refusal paths failure), plan.source Walk.walker), files)
      | (.ok (.ok walk), files) => (.ok (.ok (), held plan 1 walk), files) := by
    unfold Source.start
    rw [run_bind]
    have same : ((plan.source Walk.walker).close.walker.start
        (plan.source Walk.walker).close.nextSerial paths (plan.source Walk.walker).close.options
        (plan.source Walk.walker).close.comparator) =
        Walk.start 0 paths plan.options plan.comparator := rfl
    rw [same]
    rcases (Walk.start 0 paths plan.options plan.comparator).run.run world.files with
      ⟨_ | _ | _, _⟩ <;> rfl
  have asked : (Source.start paths ((fresh plan world kind).atStart paths).source).run.run
      ((fresh plan world kind).atStart paths).session.world.files =
      (Source.start paths (plan.source Walk.walker)).run.run world.files := rfl
  rw [run_onSource, asked, asks]
  rcases (Walk.start 0 paths plan.options plan.comparator).run.run world.files with
    ⟨_ | _ | _, _⟩ <;> rfl

/-- A run that has started its walk follows it. -/
theorem exists_follows_of_start
    (starts : Settles (onSource (Source.start paths)) ((fresh plan world kind).atStart paths) ()
      run₀) :
    ∃ walk, Follows world.files plan [] walk run₀ ∧
      Starts world.files 0 paths plan.options plan.comparator walk ∧
      (∀ entry ∈ walk.roots, entry.Described) ∧
      Looks ((fresh plan world kind).atStart paths) run₀ := by
  obtain ⟨wears, spec⟩ := yields_start 0 paths plan.options plan.comparator world.files .refl
  obtain ⟨-, described⟩ :=
    yields_described_start 0 paths plan.options plan.comparator world.files .refl
  unfold Settles at starts
  rw [run_start] at starts
  rcases ran : (Walk.start 0 paths plan.options plan.comparator).run.run world.files with
    ⟨_ | _ | walk, files⟩
  · rw [ran] at starts
    cases starts
  · rw [ran] at starts
    cases starts
  · rw [ran] at starts wears spec described
    cases starts
    have started := spec (.ok walk) rfl walk rfl
    exact ⟨walk, ⟨rfl, wears, started.sameOptions, started.sameComparator, .ofStarts started⟩,
      started, described (.ok walk) rfl walk rfl, rfl, rfl, wears⟩

/-- A run that is about to display its roots has read them, and its walk is at its start. -/
theorem exists_follows_of_roots {entries : Option (List Entry)} {run₁ : Run Walk}
    (starts : Settles (onSource (Source.start paths)) ((fresh plan world kind).atStart paths) ()
      run₀)
    (lists : Settles (onSource (Source.children none false)) run₀ entries run₁) :
    ∃ walk, Follows world.files plan [] walk run₁ ∧
      Starts world.files 0 paths plan.options plan.comparator walk ∧ entries = some walk.roots ∧
      (∀ entry ∈ walk.roots, entry.Described) ∧
      Looks ((fresh plan world kind).atStart paths) run₁ := by
  obtain ⟨walk, follows, started, described, looks⟩ := exists_follows_of_start starts
  obtain ⟨walk₁, looks', answers, follows₁⟩ := follows.children lists
  have fresh : walk.started = false := by
    rw [started.fresh]
  have unmoved : walk₁ = walk ∧ entries = some walk.roots := by
    generalize run₁.session.world.files = files' at answers
    cases answers with
    | nowhere begun | fail begun | give begun => cases fresh.symm.trans begun
    | roots => exact ⟨rfl, rfl⟩
  obtain ⟨rfl, listed⟩ := unmoved
  exact ⟨walk₁, follows₁, started, listed, described, looks'.state.trans looks.state,
    looks'.policy.trans looks.policy, looks.files.trans looks'.files⟩

/-- Displaying the roots leaves the options of the plan. -/
theorem options_of_roots (standard : RendererTable.standard.select plan.config = .ok plan.renderer)
    {entries : Option (List Entry)} {run₁ run₂ : Run Walk}
    (starts : Settles (onSource (Source.start paths)) ((fresh plan world kind).atStart paths) ()
      run₀)
    (lists : Settles (onSource (Source.children none false)) run₀ entries run₁)
    (displays : Settles (display plan none entries) run₁ () run₂) :
    run₂.source.options = plan.options := by
  obtain ⟨_, follows, -⟩ := exists_follows_of_roots starts lists
  rw [(follows.extend ((orderly_display standard none entries).settles displays)).source]
  rfl

/-- What is good once the roots were displayed, and what is fine of the call that displays them, may
be told from the walk that the run follows from there. -/
theorem begins_of_roots (standard : RendererTable.standard.select plan.config = .ok plan.renderer)
    {good : Nat → List (Display Walk) → Run Walk → Prop}
    {fine : List (Display Walk) → Display Walk → Prop}
    (roots : ∀ {walk run₁}, Follows world.files plan [] walk run₁ →
      Starts world.files 0 paths plan.options plan.comparator walk →
      (∀ entry ∈ walk.roots, entry.Described) →
      Looks ((fresh plan world kind).atStart paths) run₁ →
      fine [] ⟨none, some walk.roots, run₁⟩ ∧
      ∀ {run₂}, Settles (display plan none (some walk.roots)) run₁ () run₂ → Extends run₁ run₂ →
        Follows world.files plan [] walk run₂ →
        good (walk.budget run₂.session.world.files + 1) [⟨none, some walk.roots, run₁⟩] run₂) :
    Begins plan paths (fresh plan world kind) good fine := by
  intro run₀ entries run₁ starts lists
  obtain ⟨walk, follows, started, rfl, described, looks⟩ := exists_follows_of_roots starts lists
  obtain ⟨first, onwards⟩ := roots follows started described looks
  refine ⟨first, fun run₂ displays => ?_⟩
  have extends_ := (orderly_display standard none _).settles displays
  have follows₂ := follows.extend extends_
  rw [follows₂.source]
  exact ⟨rfl, onwards displays extends_ follows₂⟩

end Beginning

end Run
end DirList
