import DirList.Proofs.Listing.Flat
import DirList.Proofs.Listing.Stopping

/-!
# What a listing accounts for

Where a directory cannot be listed, nothing is displayed for it, and its error is left to the walk:
it tries again when it goes into the directory, and reports the error if that fails too. So what was
displayed of a directory is complete, or an error is recorded about it, unless its scans fail at
first and succeed later.

Results:
1. `carries_accounting`: a directory that could not be listed is accounted for at the next event.
2. `accounted_of_settles`: so every directory is accounted for once the walk has come to its end.
3. `accounted_of_status`: what the exit status of a listing says of the directories displayed.
4. `complete_of_static`: in a file system that does not change, success means that all is displayed.
-/

namespace DirList.Run

open FileSystem Walk

/-! ## Accounts -/

/-- `Accounted base options errors directory entries`: what was displayed of a directory is
accounted for.

* `listed`: it is all that the directory holds.
* `reported`: there was nothing to display, and an error was recorded about the directory.
* `recovered`: there was nothing to display, and the directory recovers. -/
inductive Accounted (base : FileSystem) (options : WalkOptions) (errors : List ListingError)
    (directory : Entry) : Option (List Entry) → Prop
  | listed {serial : Nat} {entries : List Entry} :
      Listing base options.logical directory serial entries →
      Complete base options directory entries →
      Accounted base options errors directory (some entries)
  | reported {error : SystemError} :
      .ofCode .node directory.name error.codeOrZero ∈ errors →
      Accounted base options errors directory none
  | recovered : base.Recovers directory.accessPath → Accounted base options errors directory none

/-- `Pending walk early files directory`: a directory could not be listed when the files were worn
no further than `early`, and the walk is about to try again. -/
structure Pending (walk : Walk) (early files : FileSystem) (directory : Entry) : Prop where
  at_ : walk.here? = some directory
  unskipped : directory.serial ∉ walk.skipped
  unlisted : walk.listed = none
  failed : ∃ error, ((Call.scan directory.accessPath).run.run early).1 = .error (.system error)
  later : early.Wears files

/-- `Accounting base plan fuel log run`: every directory displayed so far is accounted for, or it is
about to be tried again. -/
def Accounting (base : FileSystem) (plan : Plan) (fuel : Nat) (log : List (Display Walk))
    (run : Run Walk) : Prop :=
  ∃ used walk, Follows base plan used walk run ∧ walk.load base < fuel ∧
    ∀ call ∈ log, ∀ directory, call.parent = some directory →
      Accounted base plan.options run.session.policy.errors directory call.entries ∨
      call.entries = none ∧ ∃ early, base.Wears early ∧
        Pending walk early run.session.world.files directory

section Turns

variable {base files files' early : FileSystem} {plan : Plan} {walk walk' : Walk}
  {run run' : Run Walk} {used : List Nat} {errors errors' : List ListingError}
  {options : WalkOptions} {directory event : Entry} {calls : List (Display Walk)}

/-- What is accounted for stays so as more errors are recorded. -/
theorem Accounted.mono {entries : Option (List Entry)}
    (accounted : Accounted base options errors directory entries) (more : errors <+: errors') :
    Accounted base options errors' directory entries := by
  cases accounted with
  | listed listing complete => exact .listed listing complete
  | reported recorded => exact .reported (more.subset recorded)
  | recovered recovers => exact .recovered recovers

/-- A directory tried again is reported, or it recovers. -/
theorem Pending.tried {event : Option Entry} (pending : Pending walk early files directory)
    (wears : base.Wears early) (reads : Reads walk files event walk' files') :
    (∃ error, event = some (refused directory error)) ∨ base.Recovers directory.accessPath := by
  obtain ⟨at_, unskipped, unlisted, ⟨error, fails⟩, later⟩ := pending
  cases reads with
  | go away => cases at_.symm.trans away
  | pass at' skipped =>
    cases at_.symm.trans at'
    exact absurd skipped unskipped
  | resume _ _ listed => cases unlisted.symm.trans listed
  | @refuse _ error _ at' =>
    cases at_.symm.trans at'
    exact .inl ⟨error, rfl⟩
  | enter at' _ _ given =>
    cases at_.symm.trans at'
    obtain ⟨found, scanned⟩ := scan_of_listing given
    exact .inr ⟨early, files, error, found, wears, later, fails, scanned⟩

/-- A directory displayed at an event is all there, or about to be tried again. -/
theorem accounted_of_reacts (follows : Follows base plan used walk run)
    (started : walk.started = true) (current : walk.current = some event)
    (unskipped : ∀ directory, walk.here? = some directory → directory.serial ∉ walk.skipped)
    (reacts : Reacts plan (Recursion.namesOnly plan) event walk run calls walk' run') :
    ∀ call ∈ calls, ∀ directory, call.parent = some directory →
      Accounted base plan.options run'.session.policy.errors directory call.entries ∨
      call.entries = none ∧ ∃ early, base.Wears early ∧
        Pending walk' early run'.session.world.files directory := by
  cases reacts with
  | ignore | pass => exact List.forall_mem_nil _
  | @enter entries walk₁ run₁ run₂ _ kind _ looks lists _ extends_ looks' =>
    intro call member directory parent
    cases List.mem_singleton.mp member
    cases parent
    have at_ : walk.here? = some event := here?_eq_some.mpr ⟨current, kind⟩
    rcases lists.cases_here started at_ with
      ⟨error, rfl, unlisted, fails⟩ | ⟨listed, rfl, -, given⟩
    · right
      have sorts : ∀ entries, ∃ sorted, sortEntries walk.comparator entries = .ok sorted := by
        rw [follows.comparator]
        exact plan.sorts
      have stays : leftBehind plan walk₁ event none = walk₁ := by
        unfold leftBehind
        exact if_neg (by simp)
      rw [stays]
      have later := lists.wears.trans (extends_.keeps.files.trans looks'.files)
      refine ⟨rfl, _, follows.wears, lists.here.trans at_, ?_, unlisted,
        ⟨error, scan_of_unlisted sorts fails⟩, later⟩
      rw [lists.sameWalk.skipped]
      exact unskipped event at_
    · left
      have listing := listing_spec follows.wears given
      have complete := listing_complete follows.wears given
      rw [follows.options] at listing complete
      exact .listed listing complete

section Standard

variable (standard : RendererTable.standard.select plan.config = .ok plan.renderer)

include standard

/-- A directory that could not be listed is accounted for at the next event. -/
theorem carries_accounting :
    Carries plan (Recursion.namesOnly plan) (Accounting base plan) fun _ _ => True := by
  rintro fuel log run event run₁ ⟨used, walk, follows, enough, accounts⟩ reads
  refine ⟨fun _ _ => trivial, fun run₂ reacts => ?_⟩
  obtain ⟨walk₁, looks, reads', follows₁⟩ := follows.read reads
  have current := reads'.current
  obtain ⟨walk₂, reacts', follows₂⟩ := follows₁.reacts standard current reacts
  obtain ⟨same, frames, roots⟩ := reacts'.unmoved
  have more := reacts'.keeps.errors
  refine ⟨_, walk₂, follows₂, ?_, fun call member directory parent => ?_⟩
  · rw [load_of_unmoved same frames roots]
    exact Nat.lt_of_lt_of_le (follows.sound.load_lt follows.wears reads') (Nat.le_of_lt_succ enough)
  rcases List.mem_append.mp member with earlier | now
  · left
    rcases accounts call earlier directory parent with accounted | ⟨unlisted, early, wears, pending⟩
    · rw [← looks.policy] at accounted
      exact accounted.mono more
    rw [unlisted]
    rcases pending.tried wears reads' with ⟨error, refused⟩ | recovers
    · cases refused
      cases reacts' with
      | ignore _ _ reported => exact .reported (reported rfl)
      | pass kind => cases kind
    · exact .recovered recovers
  · exact accounted_of_reacts follows₁ reads'.started current
      (fun directory at_ => follows.sound.not_skipped reads' at_) reacts' call now directory parent

end Standard
end Turns

/-! ## Listings -/

section Listings

variable {plan : Plan} {world : World} {kind : PolicyKind} {paths : List String}
  (standard : RendererTable.standard.select plan.config = .ok plan.renderer)

include standard

theorem begins_accounting :
    Begins plan paths (fresh plan world kind) (Accounting world.files plan) fun _ _ => True := by
  apply begins_of_roots standard
  intro walk _ _ _ _ _
  refine ⟨trivial, fun _ _ follows => ?_⟩
  refine ⟨_, walk, follows, Nat.lt_succ_of_le (load_le_budget follows.wears), ?_⟩
  intro call member directory parent
  cases List.mem_singleton.mp member
  cases parent

/-- Every directory displayed is accounted for once the walk over the roots has come to its end. -/
theorem accounted_of_settles {run₀ run' : Run Walk}
    (starts : Settles (onSource (Source.start paths)) ((fresh plan world kind).atStart paths) ()
      run₀)
    (walks : Settles (walkRoots plan) run₀ () run') :
    ∀ call ∈ listDisplays plan paths (fresh plan world kind), ∀ directory,
      call.parent = some directory →
      Accounted world.files plan.options run'.session.policy.errors directory call.entries := by
  intro call member directory parent
  rcases walkRoots_ends (begins_accounting standard) (carries_accounting standard) starts walks with
    roots | ⟨_, walk, -, none, -⟩ | ⟨left, last, ⟨used, walk, follows, -, accounts⟩, ends⟩
  · cases parent.symm.trans (roots call member)
  · exact absurd none (Nat.not_lt_zero _)
  · obtain ⟨_, looks, reads, -⟩ := follows.read ends
    rw [looks.policy]
    refine (accounts call member directory parent).resolve_right fun ⟨_, _, _, pending⟩ => ?_
    cases reads.exhausted.1.symm.trans pending.at_

omit standard in
/-- What the exit status of a listing says: there was no error if it is 0, and every directory
displayed is accounted for. -/
theorem accounted_of_status {config : Config} {outcome : Outcome} {status : Nat}
    (planned : Plan.ofConfig .standard config = .ok plan)
    (given : listPaths .standard world kind paths config = .ok outcome)
    (ended : outcome.status = .ok status) :
    (outcome.session.policy.errors ≠ [] → status = 1) ∧
    ∀ call ∈ displays plan world kind paths, ∀ directory, call.parent = some directory →
      Accounted world.files config.walkOptions outcome.session.policy.errors directory
        call.entries := by
  obtain ⟨same, options, -⟩ := Plan.ofConfig_eq_ok planned
  have standard := Plan.select_of_planned planned
  rw [← options]
  obtain ⟨_, given', concludes⟩ := exists_concludes world kind paths planned
  cases given.symm.trans given'
  rcases ran : (list plan (pathsOrDefault paths)).run.run (fresh plan world kind) with
    ⟨stop | state, run⟩
  all_goals rw [ran] at concludes
  · cases concludes with
    | aborted => cases ended
    | fatal fatal =>
      rw [displays_eq_flatMap, turns_of_fatal planned fatal ran]
      refine ⟨fun _ => ?_, List.forall_mem_nil _⟩
      dsimp only at ended
      split at ended
      · cases ended
      · exact (Except.ok.inj ended).symm
  · cases concludes
    cases ended
    obtain ⟨run₀, run₁, starts, walks, finishes⟩ := settles_list ran
    obtain ⟨_, _, finishes', kept, failed⟩ :=
      exists_finish { run₁ with source := run₁.source.close }
    obtain ⟨rfl, rfl⟩ := finishes.unique finishes'
    dsimp only at kept ⊢
    rw [kept]
    refine ⟨fun some => ?_, accounted_of_settles standard starts walks⟩
    have recorded : run₁.session.policy.hasFailed = true := by
      simpa [Policy.hasFailed] using some
    have hasFailed : state.hasFailed = true := failed.mpr (.inr recorded)
    rw [RunState.exitStatus, hasFailed]
    rfl

omit standard in
/-- In a file system that does not change, a listing that succeeds has displayed all that the
directories hold. -/
theorem complete_of_static {config : Config} {outcome : Outcome} (static : world.files.IsStatic)
    (planned : Plan.ofConfig .standard config = .ok plan)
    (given : listPaths .standard world kind paths config = .ok outcome)
    (ended : outcome.status = .ok 0) :
    ∀ call ∈ displays plan world kind paths, ∀ directory, call.parent = some directory →
      ∃ entries, call.entries = some entries ∧
        Complete world.files config.walkOptions directory entries := by
  intro call member directory parent
  obtain ⟨failed, accounts⟩ := accounted_of_status planned given ended
  have accounted := accounts call member directory parent
  generalize call.entries = entries at accounted
  cases accounted with
  | listed _ complete => exact ⟨_, rfl, complete⟩
  | reported recorded => exact absurd (failed (List.ne_nil_of_mem recorded)) nofun
  | recovered recovers => exact absurd recovers (static.not_recovers _)

end Listings

/-! ## A directory that recovers -/

/-- The run keeps silent about a directory that recovers, and displays nothing of it. -/
theorem run_refusedOnce :
    ∃ plan outcome, Plan.ofConfig .standard {} = .ok plan ∧
      listPaths .standard (refusedOnce [sampleFile]) .collect ["d"] {} = .ok outcome ∧
      (outcome.status.toOption, outcome.session.policy.errors,
        (displays plan (refusedOnce [sampleFile]) .collect ["d"]).map fun call =>
          (call.parent.map Entry.accessPath, call.entries.isNone)) =
      (some 0, [], [(none, false), (some "d", true)]) :=
  exists_of_observed (by decide +kernel)

/-- The directory is displayed without entries. -/
theorem exists_display_refused {plan : Plan}
    (displayed : ((displays plan (refusedOnce [sampleFile]) .collect ["d"]).map fun call =>
      (call.parent.map Entry.accessPath, call.entries.isNone)) =
      [(none, false), (some "d", true)]) :
    ∃ call ∈ displays plan (refusedOnce [sampleFile]) .collect ["d"], ∃ directory,
      call.parent = some directory ∧ directory.accessPath = "d" ∧ call.entries = none := by
  obtain ⟨call, member, directory, parent, path, none⟩ :=
    exists_of_seen displayed (.tail _ (.head _))
  exact ⟨call, member, directory, parent, path, Option.isNone_iff_eq_none.mp none⟩

/-- What was displayed of a directory is a listing of it, and no name is missing. Where there was no
listing, an error about the directory was recorded and the exit status is 1, or the directory
recovers. -/
theorem listing_accounts {plan : Plan} {world : World} {kind : PolicyKind} {paths : List String}
    {config : Config} {outcome : Outcome} {status : Nat}
    (planned : Plan.ofConfig .standard config = .ok plan)
    (given : listPaths .standard world kind paths config = .ok outcome)
    (ended : outcome.status = .ok status) :
    ∀ call ∈ displays plan world kind paths, ∀ directory, call.parent = some directory →
      (∃ entries serial, call.entries = some entries ∧
        Listing world.files config.walkOptions.logical directory serial entries ∧
        Complete world.files config.walkOptions directory entries) ∨
      call.entries = none ∧
        (status = 1 ∧ (∃ error : SystemError,
          .ofCode .node directory.name error.codeOrZero ∈ outcome.session.policy.errors) ∨
        world.files.Recovers directory.accessPath) := by
  intro call member directory parent
  obtain ⟨failed, accounts⟩ := accounted_of_status planned given ended
  have accounted := accounts call member directory parent
  generalize call.entries = entries at accounted
  cases accounted with
  | listed listing complete => exact .inl ⟨_, _, rfl, listing, complete⟩
  | reported recorded =>
    exact .inr ⟨rfl, .inl ⟨failed (List.ne_nil_of_mem recorded), _, recorded⟩⟩
  | recovered recovers => exact .inr ⟨rfl, .inr recovers⟩

/-- The listing of a directory that cannot be scanned at first succeeds, so the directory
recovers. -/
theorem listing_accounts_sample :
    ∃ directory : Entry, directory.accessPath = "d" ∧
      (refusedOnce [sampleFile]).files.Recovers directory.accessPath := by
  obtain ⟨plan, outcome, planned, given, ran⟩ := run_refusedOnce
  obtain ⟨status, ran⟩ := Prod.mk.inj ran
  obtain ⟨-, displayed⟩ := Prod.mk.inj ran
  obtain ⟨call, member, directory, parent, path, unlisted⟩ := exists_display_refused displayed
  have ended := ok_of_toOption status
  have accounts := listing_accounts planned given ended call member directory parent
  rcases accounts with ⟨_, _, listed, -⟩ | ⟨-, ⟨no, -⟩ | recovers⟩
  · cases unlisted.symm.trans listed
  · cases no
  · exact ⟨directory, path, recovers⟩

/-- Nothing was displayed of a directory that holds a file, and the listing succeeds. -/
theorem exists_unlisted_unreported :
    ∃ plan outcome, Plan.ofConfig .standard {} = .ok plan ∧
      listPaths .standard (refusedOnce [sampleFile]) .collect ["d"] {} = .ok outcome ∧
      outcome.status = .ok 0 ∧ outcome.session.policy.errors = [] ∧
      ∃ call ∈ displays plan (refusedOnce [sampleFile]) .collect ["d"], ∃ directory,
        call.parent = some directory ∧ directory.accessPath = "d" ∧ call.entries = none := by
  obtain ⟨plan, outcome, planned, given, ran⟩ := run_refusedOnce
  obtain ⟨status, ran⟩ := Prod.mk.inj ran
  obtain ⟨errors, displayed⟩ := Prod.mk.inj ran
  exact ⟨plan, outcome, planned, given, ok_of_toOption status, errors,
    exists_display_refused displayed⟩

end DirList.Run
