import DirList.Proofs.Walk.Reading

/-!
# What a walk can do

Reading an event and listing the directory just reported are said once, case by case. What every
step keeps follows from the cases.

Results:
1. `reads_of_run`, `lists_of_run`: the cases of reading and of listing.
2. `next_advance`: the cases of going on where no directory is entered.
3. `Holds.reads`, `Holds.answers`: what is true of the roots and passes from directories to their
   entries is true of every entry of a walk.
4. `Numbered.reads`, `Numbered.answers`: no two entries of a walk have the same number.
-/

namespace DirList.Walk

open FileSystem

/-! ## Where a walk is -/

/-- The entries that were not reached yet. -/
def awaited (walk : Walk) : List Entry :=
  walk.frames.flatMap Frame.pending ++ walk.pending

section Here

variable {walk : Walk}

theorem here?_eq_some {directory : Entry} :
    walk.here? = some directory ↔
      walk.current = some directory ∧ directory.kind = .directory := by
  unfold here?
  rw [Option.filter_eq_some_iff]
  simp

/-- A walk without an event is not at the start of a directory. -/
theorem here?_of_none (nothing : walk.current = none) : walk.here? = none := by
  rw [here?, nothing]
  rfl

/-- A walk at an event of another kind is not at the start of a directory. -/
theorem here?_of_current {event : Entry} (current : walk.current = some event)
    (other : event.kind ≠ .directory) : walk.here? = none := by
  rw [here?, current]
  simp [other]

end Here

namespace Starts

variable {walk : Walk} {files : FileSystem} {serial : Nat} {paths : List String}
  {options : WalkOptions} {comparator : Option Comparator}

theorem sameOptions (starts : Starts files serial paths options comparator walk) :
    walk.options = options := by
  rw [starts.fresh]

theorem sameComparator (starts : Starts files serial paths options comparator walk) :
    walk.comparator = comparator := by
  rw [starts.fresh]

theorem nowhere (starts : Starts files serial paths options comparator walk) :
    walk.here? = none := by
  rw [starts.fresh]
  rfl

theorem noFrames (starts : Starts files serial paths options comparator walk) :
    walk.frames = [] := by
  rw [starts.fresh]

theorem unlisted (starts : Starts files serial paths options comparator walk) :
    walk.listed = none := by
  rw [starts.fresh]

theorem awaited (starts : Starts files serial paths options comparator walk) :
    walk.awaited = walk.roots := by
  rw [starts.fresh]
  rfl

end Starts

/-! ## Cases -/

/-- The walk once it was asked for an event. -/
def begun (walk : Walk) : Walk :=
  { walk with started := true }

/-- The walk inside a directory of which it has not reached any entry. -/
def entered (walk : Walk) (directory : Entry) (entries : List Entry) (count : Nat) : Walk :=
  { walk with
    started := true
    listed := none
    frames := ⟨directory, entries⟩ :: walk.frames
    nextSerial := walk.nextSerial + count }

/-- The walk at another event of the directory just reported. -/
def left (walk : Walk) (event : Entry) : Walk :=
  { walk with started := true, listed := none, current := some event }

/-- The directory at the end of its visit. -/
def finished (directory : Entry) : Entry :=
  { directory with kind := .finished }

/-- The directory that could not be listed. -/
def refused (directory : Entry) (error : SystemError) : Entry :=
  { directory with kind := .unreadable, errorCode := error.codeOrZero }

/-- `Next walk event walk'`: the next event where no directory is entered. -/
inductive Next (walk : Walk) : Option Entry → Walk → Prop
  | exhausted : walk.frames = [] → walk.pending = [] → Next walk none { walk with current := none }
  | root {root : Entry} {rest : List Entry} : walk.frames = [] → walk.pending = root :: rest →
      Next walk (some root) { walk with pending := rest, current := some root }
  | finish {frame : Frame} {frames : List Frame} : walk.frames = frame :: frames →
      frame.pending = [] →
      Next walk (some (finished frame.directory))
        { walk with frames, current := some (finished frame.directory) }
  | child {frame : Frame} {frames : List Frame} {entry : Entry} {rest : List Entry} :
      walk.frames = frame :: frames → frame.pending = entry :: rest →
      Next walk (some entry)
        { walk with frames := { frame with pending := rest } :: frames, current := some entry }

theorem next_advance (walk : Walk) : Next walk walk.advance.1 walk.advance.2 := by
  unfold advance report
  split
  next noFrames =>
    split
    next noRoots => exact .exhausted noFrames noRoots
    next root rest pending => exact .root noFrames pending
  next frame frames framed =>
    split
    next done => exact .finish framed done
    next entry rest pending => exact .child framed pending

/-- The answer to listing a directory, with the file system afterwards. -/
def listing (walk : Walk) (namesOnly : Bool) (directory : Entry) (files : FileSystem) :
    Except Interrupted (Except SystemError (List Entry)) × FileSystem :=
  (readDirectory walk.options walk.comparator namesOnly directory walk.nextSerial).run.run files

/-- `Reads walk files event walk' files'`: asked for an event, the walk gives `event`.

* `go`: it was not at the start of a directory.
* `pass`: it was at one that is to be skipped.
* `refuse`: it was at one that cannot be listed.
* `resume`: it was at one that has been listed already, and enters it.
* `enter`: it lists the one it was at, and enters it. -/
inductive Reads (walk : Walk) (files : FileSystem) :
    Option Entry → Walk → FileSystem → Prop
  | go : walk.here? = none → Reads walk files walk.begun.advance.1 walk.begun.advance.2 files
  | pass {directory : Entry} : walk.here? = some directory → directory.serial ∈ walk.skipped →
      Reads walk files (some (finished directory)) (walk.left (finished directory)) files
  | refuse {directory : Entry} {error : SystemError} {files' : FileSystem} :
      walk.here? = some directory → directory.serial ∉ walk.skipped → walk.listed = none →
      walk.listing false directory files = (.ok (.error error), files') →
      Reads walk files (some (refused directory error)) (walk.left (refused directory error)) files'
  | resume {directory : Entry} {entries : List Entry} :
      walk.here? = some directory → directory.serial ∉ walk.skipped →
      walk.listed = some entries →
      Reads walk files (walk.entered directory entries 0).advance.1
        (walk.entered directory entries 0).advance.2 files
  | enter {directory : Entry} {entries : List Entry} {files' : FileSystem} :
      walk.here? = some directory → directory.serial ∉ walk.skipped → walk.listed = none →
      walk.listing false directory files = (.ok (.ok entries), files') →
      Reads walk files (walk.entered directory entries entries.length).advance.1
        (walk.entered directory entries entries.length).advance.2 files'

/-- `Lists walk files namesOnly answer walk' files'`: asked for the entries of the directory just
reported, the walk gives `answer`. -/
inductive Lists (walk : Walk) (files : FileSystem) (namesOnly : Bool) :
    Option (List Entry) → Walk → FileSystem → Prop
  | roots : walk.started = false → Lists walk files namesOnly (some walk.roots) walk files
  | nowhere : walk.started = true → walk.here? = none →
      Lists walk files namesOnly none walk files
  | fail {directory : Entry} {error : SystemError} {files' : FileSystem} :
      walk.started = true → walk.here? = some directory →
      walk.listing namesOnly directory files = (.ok (.error error), files') →
      Lists walk files namesOnly none { walk with listed := none } files'
  | give {directory : Entry} {entries : List Entry} {files' : FileSystem} :
      walk.started = true → walk.here? = some directory →
      walk.listing namesOnly directory files = (.ok (.ok entries), files') →
      Lists walk files namesOnly (some entries)
        { walk with
          listed := if namesOnly then none else some entries
          nextSerial := walk.nextSerial + entries.length } files'

/-! ## The cases are all -/

section Cases

variable {walk walk' : Walk} {files files' : FileSystem}

theorem run_descend (walk : Walk) (directory : Entry) (files : FileSystem) :
    (walk.begun.descend directory).run.run files =
      if directory.serial ∈ walk.skipped then
        (.ok (some (finished directory), walk.left (finished directory)), files)
      else
        match walk.listed with
        | some entries => (.ok (walk.entered directory entries 0).advance, files)
        | none =>
          match walk.listing false directory files with
          | (.error stop, files') => (.error stop, files')
          | (.ok (.error error), files') =>
            (.ok (some (refused directory error), walk.left (refused directory error)), files')
          | (.ok (.ok entries), files') =>
            (.ok (walk.entered directory entries entries.length).advance, files') := by
  have same : walk.begun.skipped.contains directory.serial =
      decide (directory.serial ∈ walk.skipped) := by
    rw [List.contains_eq_mem]
    rfl
  unfold descend
  dsimp only
  rw [same]
  by_cases skip : directory.serial ∈ walk.skipped
  · simp only [skip, decide_true, if_true]
    rfl
  · simp only [skip, decide_false, if_false, Bool.false_eq_true]
    show StateT.run (ExceptT.run (match walk.listed with
      | some entries => _
      | none => _)) files = _
    cases walk.listed with
    | some entries => rfl
    | none =>
      dsimp only
      rw [run_bind]
      have same : (readDirectory walk.begun.options walk.begun.comparator false directory
          walk.begun.nextSerial).run.run files = walk.listing false directory files := rfl
      rw [same]
      rcases walk.listing false directory files with ⟨_ | _ | _, files'⟩ <;> rfl

theorem run_read (isOpen : walk.closed = false) (files : FileSystem) :
    walk.read.run.run files =
      match (match walk.here? with
        | some directory => (walk.begun.descend directory).run.run files
        | none => (.ok walk.begun.advance, files)) with
      | (.ok (event, walk'), files') => (.ok (.ok event, walk'), files')
      | (.error stop, files') => (.error stop, files') := by
  unfold read
  rw [if_neg (by simp [isOpen])]
  dsimp only
  cases walk.here? with
  | none => rfl
  | some directory =>
    dsimp only
    rw [run_bind]
    have same : ({ walk with started := true }.descend directory).run.run files =
        (walk.begun.descend directory).run.run files := rfl
    rw [same]
    rcases (walk.begun.descend directory).run.run files with ⟨_ | _, _⟩ <;> rfl

/-- Reading gives an event, or the listing it needs is interrupted. -/
theorem read_cases (isOpen : walk.closed = false) (files : FileSystem) :
    (∃ event walk' files', walk.read.run.run files = (.ok (.ok event, walk'), files') ∧
      Reads walk files event walk' files') ∨
    ∃ directory stop files', walk.read.run.run files = (.error stop, files') ∧
      walk.listing false directory files = (.error stop, files') := by
  rw [run_read isOpen]
  cases here : walk.here? with
  | none => exact .inl ⟨_, _, _, rfl, .go here⟩
  | some directory =>
    dsimp only
    rw [run_descend]
    by_cases skip : directory.serial ∈ walk.skipped
    · rw [if_pos skip]
      exact .inl ⟨_, _, _, rfl, .pass here skip⟩
    rw [if_neg skip]
    cases known : walk.listed with
    | some entries => exact .inl ⟨_, _, _, rfl, .resume here skip known⟩
    | none =>
      -- Only here the file system is asked.
      rcases listing : walk.listing false directory files with ⟨stop | error | entries, files'⟩
      · exact .inr ⟨directory, _, _, rfl, listing⟩
      · exact .inl ⟨_, _, _, rfl, .refuse here skip known listing⟩
      · exact .inl ⟨_, _, _, rfl, .enter here skip known listing⟩

theorem reads_of_run {answer : Except ListingError (Option Entry)} (isOpen : walk.closed = false)
    (ran : walk.read.run.run files = (.ok (answer, walk'), files')) :
    ∃ event, answer = .ok event ∧ Reads walk files event walk' files' := by
  rcases read_cases isOpen files with ⟨event, _, _, ran', reads⟩ | ⟨_, _, _, ran', -⟩
  · cases ran.symm.trans ran'
    exact ⟨event, rfl, reads⟩
  · cases ran.symm.trans ran'

/-- Only a listing can be interrupted while an event is read. -/
theorem stops_of_run {stop : Interrupted} (isOpen : walk.closed = false)
    (ran : walk.read.run.run files = (.error stop, files')) :
    ∃ directory, walk.listing false directory files = (.error stop, files') := by
  rcases read_cases isOpen files with ⟨_, _, _, ran', -⟩ | ⟨directory, _, _, ran', stops⟩
  · cases ran.symm.trans ran'
  · cases ran.symm.trans ran'
    exact ⟨directory, stops⟩

theorem run_of_reads {event : Option Entry} (isOpen : walk.closed = false)
    (reads : Reads walk files event walk' files') :
    walk.read.run.run files = (.ok (.ok event, walk'), files') := by
  rw [run_read isOpen]
  cases reads with
  | go here => rw [here]
  | pass here skip =>
    rw [here]
    dsimp only
    rw [run_descend, if_pos skip]
  | refuse here noSkip known listing =>
    rw [here]
    dsimp only
    rw [run_descend, if_neg noSkip, known]
    dsimp only
    rw [listing]
  | resume here noSkip known =>
    rw [here]
    dsimp only
    rw [run_descend, if_neg noSkip, known]
  | enter here noSkip known listing =>
    rw [here]
    dsimp only
    rw [run_descend, if_neg noSkip, known]
    dsimp only
    rw [listing]

theorem run_children (walk : Walk) (namesOnly : Bool) (files : FileSystem) :
    (walk.children namesOnly).run.run files =
      if walk.started = false then (.ok (some walk.roots, walk), files)
      else
        match walk.here? with
        | none => (.ok (none, walk), files)
        | some directory =>
          match walk.listing namesOnly directory files with
          | (.error stop, files') => (.error stop, files')
          | (.ok (.error _), files') => (.ok (none, { walk with listed := none }), files')
          | (.ok (.ok entries), files') =>
            (.ok (some entries, { walk with
              listed := if namesOnly then none else some entries
              nextSerial := walk.nextSerial + entries.length }), files') := by
  unfold children
  cases walk.started with
  | false => rfl
  | true =>
    simp only [Bool.not_true, Bool.false_eq_true, if_false, Bool.true_eq_false]
    cases walk.here? with
    | none => rfl
    | some directory =>
      dsimp only
      rw [run_bind]
      have same : (readDirectory walk.options walk.comparator namesOnly directory
          walk.nextSerial).run.run files = walk.listing namesOnly directory files := rfl
      rw [same]
      rcases walk.listing namesOnly directory files with ⟨_ | _ | _, files'⟩ <;> rfl

/-- Listing gives an answer, or it is interrupted. -/
theorem children_cases (walk : Walk) (namesOnly : Bool) (files : FileSystem) :
    (∃ answer walk' files',
      (walk.children namesOnly).run.run files = (.ok (answer, walk'), files') ∧
      Lists walk files namesOnly answer walk' files') ∨
    ∃ directory stop files', (walk.children namesOnly).run.run files = (.error stop, files') ∧
      walk.listing namesOnly directory files = (.error stop, files') := by
  rw [run_children]
  by_cases fresh : walk.started = false
  · rw [if_pos fresh]
    exact .inl ⟨_, _, _, rfl, .roots fresh⟩
  · have started : walk.started = true := by simpa using fresh
    rw [if_neg fresh]
    cases here : walk.here? with
    | none => exact .inl ⟨_, _, _, rfl, .nowhere started here⟩
    | some directory =>
      dsimp only
      rcases listing : walk.listing namesOnly directory files with ⟨stop | error | entries, files'⟩
      · exact .inr ⟨directory, _, _, rfl, listing⟩
      · exact .inl ⟨_, _, _, rfl, .fail started here listing⟩
      · exact .inl ⟨_, _, _, rfl, .give started here listing⟩

theorem lists_of_run {namesOnly : Bool} {answer : Option (List Entry)}
    (ran : (walk.children namesOnly).run.run files = (.ok (answer, walk'), files')) :
    Lists walk files namesOnly answer walk' files' := by
  rcases children_cases walk namesOnly files with ⟨_, _, _, ran', lists⟩ | ⟨_, _, _, ran', -⟩
  · cases ran.symm.trans ran'
    exact lists
  · cases ran.symm.trans ran'

theorem stops_of_children {namesOnly : Bool} {stop : Interrupted}
    (ran : (walk.children namesOnly).run.run files = (.error stop, files')) :
    ∃ directory, walk.listing namesOnly directory files = (.error stop, files') := by
  rcases children_cases walk namesOnly files with
    ⟨_, _, _, ran', -⟩ | ⟨directory, _, _, ran', stops⟩
  · cases ran.symm.trans ran'
  · cases ran.symm.trans ran'
    exact ⟨directory, stops⟩

theorem run_of_lists {namesOnly : Bool} {answer : Option (List Entry)}
    (lists : Lists walk files namesOnly answer walk' files') :
    (walk.children namesOnly).run.run files = (.ok (answer, walk'), files') := by
  rw [run_children]
  cases lists with
  | roots fresh => rw [if_pos fresh]
  | nowhere started here => rw [if_neg (by simp [started]), here]
  | fail started here listing =>
    rw [if_neg (by simp [started]), here]
    dsimp only
    rw [listing]
  | give started here listing =>
    rw [if_neg (by simp [started]), here]
    dsimp only
    rw [listing]

/-- What a listing gives, in any state of wear. -/
theorem listing_spec {base : FileSystem} {namesOnly : Bool} {directory : Entry}
    {entries : List Entry} (wears : base.Wears files)
    (given : walk.listing namesOnly directory files = (.ok (.ok entries), files')) :
    Listing base walk.options.logical directory walk.nextSerial entries := by
  have spec := (yields_readDirectory walk.options walk.comparator namesOnly directory
    walk.nextSerial files wears).2
  have ran : ((readDirectory walk.options walk.comparator namesOnly directory
      walk.nextSerial).run.run files).1 = .ok (.ok entries) := congrArg Prod.fst given
  exact spec _ ran entries rfl

theorem listing_wears {namesOnly : Bool} {directory : Entry}
    {answer : Except Interrupted (Except SystemError (List Entry))}
    (given : walk.listing namesOnly directory files = (answer, files')) : files.Wears files' := by
  have wears := (yields_readDirectory walk.options walk.comparator namesOnly directory
    walk.nextSerial files .refl).1
  have ran : ((readDirectory walk.options walk.comparator namesOnly directory
      walk.nextSerial).run.run files).2 = files' := congrArg Prod.snd given
  rwa [ran] at wears

theorem Reads.wears {event : Option Entry} (reads : Reads walk files event walk' files') :
    files.Wears files' := by
  cases reads with
  | go | pass | resume => exact .refl
  | refuse _ _ _ given | enter _ _ _ given => exact listing_wears given

theorem Lists.wears {namesOnly : Bool} {answer : Option (List Entry)}
    (lists : Lists walk files namesOnly answer walk' files') : files.Wears files' := by
  cases lists with
  | roots | nowhere => exact .refl
  | fail _ _ given | give _ _ given => exact listing_wears given

end Cases

/-! ## What does not change -/

/-- Two states of one walk. -/
structure SameWalk (walk walk' : Walk) : Prop where
  options : walk'.options = walk.options
  comparator : walk'.comparator = walk.comparator
  roots : walk'.roots = walk.roots
  closed : walk'.closed = walk.closed
  skipped : walk'.skipped = walk.skipped

section Steps

variable {walk walk' : Walk} {files files' : FileSystem} {event : Option Entry}

theorem Next.sameWalk (next : Next walk event walk') : SameWalk walk walk' := by
  cases next <;> exact ⟨rfl, rfl, rfl, rfl, rfl⟩

theorem Next.started (next : Next walk event walk') : walk'.started = walk.started := by
  cases next <;> rfl

theorem Next.current (next : Next walk event walk') : walk'.current = event := by
  cases next <;> rfl

theorem Next.listed (next : Next walk event walk') : walk'.listed = walk.listed := by
  cases next <;> rfl

theorem Next.directories (next : Next walk event walk') :
    ∀ frame' ∈ walk'.frames, ∃ frame ∈ walk.frames, frame'.directory = frame.directory := by
  intro frame' member
  cases next with
  | exhausted | root => exact ⟨frame', member, rfl⟩
  | finish framed =>
    rw [framed]
    exact ⟨frame', List.mem_cons_of_mem _ member, rfl⟩
  | child framed =>
    rw [framed]
    rcases List.mem_cons.mp member with rfl | below
    · exact ⟨_, List.mem_cons_self, rfl⟩
    · exact ⟨frame', List.mem_cons_of_mem _ below, rfl⟩

/-- Going on takes the first awaited entry, or ends the visit of a directory, or ends the walk. -/
theorem Next.awaited (next : Next walk event walk') :
    event = none ∧ walk'.awaited = walk.awaited ∨
      (∃ entry, event = some entry ∧ walk.awaited = entry :: walk'.awaited) ∨
      ∃ frame ∈ walk.frames, event = some (finished frame.directory) ∧
        walk'.awaited = walk.awaited := by
  cases next with
  | exhausted => exact .inl ⟨rfl, rfl⟩
  | root noFrames pending =>
    refine .inr (.inl ⟨_, rfl, ?_⟩)
    simp only [Walk.awaited, noFrames, pending, List.flatMap_nil, List.nil_append]
  | finish framed done =>
    refine .inr (.inr ⟨_, framed ▸ List.mem_cons_self, rfl, ?_⟩)
    simp only [Walk.awaited, framed, done, List.flatMap_cons, List.nil_append]
  | child framed pending =>
    refine .inr (.inl ⟨_, rfl, ?_⟩)
    simp only [Walk.awaited, framed, pending, List.flatMap_cons, List.cons_append]

theorem awaited_entered (walk : Walk) (directory : Entry) (entries : List Entry) (count : Nat) :
    (walk.entered directory entries count).awaited = entries ++ walk.awaited := by
  simp only [Walk.awaited, entered, List.flatMap_cons, List.append_assoc]

theorem Reads.sameWalk (reads : Reads walk files event walk' files') : SameWalk walk walk' := by
  cases reads with
  | go =>
    have same := (next_advance walk.begun).sameWalk
    exact ⟨same.options, same.comparator, same.roots, same.closed, same.skipped⟩
  | pass | refuse => exact ⟨rfl, rfl, rfl, rfl, rfl⟩
  | @resume directory entries =>
    have same := (next_advance (walk.entered directory entries 0)).sameWalk
    exact ⟨same.options, same.comparator, same.roots, same.closed, same.skipped⟩
  | @enter directory entries =>
    have same := (next_advance (walk.entered directory entries entries.length)).sameWalk
    exact ⟨same.options, same.comparator, same.roots, same.closed, same.skipped⟩

theorem Reads.started (reads : Reads walk files event walk' files') : walk'.started = true := by
  cases reads with
  | go | resume | enter => exact (next_advance _).started
  | pass | refuse => rfl

theorem Reads.current (reads : Reads walk files event walk' files') : walk'.current = event := by
  cases reads with
  | go | resume | enter => exact (next_advance _).current
  | pass | refuse => rfl

theorem Reads.listed (reads : Reads walk files event walk' files')
    (unlisted : walk.here? = none → walk.listed = none) : walk'.listed = none := by
  cases reads with
  | go here => exact (next_advance _).listed.trans (unlisted here)
  | resume | enter => exact (next_advance _).listed
  | pass | refuse => rfl

/-- A walk without another event has nothing left to walk, and it had nothing left before. -/
theorem Reads.exhausted (reads : Reads walk files none walk' files') :
    walk.here? = none ∧ walk'.frames = walk.frames ∧ walk'.pending = walk.pending ∧
      walk'.frames = [] ∧ walk'.pending = [] ∧ walk'.current = none := by
  have nothing : ∀ {walk walk' : Walk}, Next walk none walk' →
      walk.frames = [] ∧ walk'.frames = walk.frames ∧ walk'.pending = walk.pending ∧
        walk'.frames = [] ∧ walk'.pending = [] ∧ walk'.current = none := by
    intro walk walk' step
    cases step with
    | exhausted noFrames noRoots => exact ⟨noFrames, rfl, rfl, noFrames, noRoots, rfl⟩
  generalize same : none = event at reads
  cases reads with
  | go here =>
    have step := next_advance walk.begun
    rw [← same] at step ⊢
    exact ⟨here, (nothing step).2⟩
  | pass | refuse => cases same
  | @resume directory entries =>
    have step := next_advance (walk.entered directory entries 0)
    rw [← same] at step
    exact nomatch (nothing step).1
  | @enter directory entries =>
    have step := next_advance (walk.entered directory entries entries.length)
    rw [← same] at step
    exact nomatch (nothing step).1

/-- A walk with nothing left has no other event. -/
theorem Reads.of_exhausted (reads : Reads walk files event walk' files')
    (noFrames : walk.frames = []) (noRoots : walk.pending = []) (nothing : walk.current = none) :
    event = none := by
  have away := here?_of_none nothing
  cases reads with
  | go =>
    have step := next_advance walk.begun
    generalize walk.begun.advance.1 = event, walk.begun.advance.2 = walk' at step
    cases step with
    | exhausted => rfl
    | root _ some => cases noRoots.symm.trans some
    | finish some => cases noFrames.symm.trans some
    | child some => cases noFrames.symm.trans some
  | pass here | refuse here | resume here | enter here => cases away.symm.trans here

theorem Lists.sameWalk {namesOnly : Bool} {answer : Option (List Entry)}
    (lists : Lists walk files namesOnly answer walk' files') : SameWalk walk walk' := by
  cases lists <;> exact ⟨rfl, rfl, rfl, rfl, rfl⟩

/-- Listing leaves the walk where it is. -/
theorem Lists.unmoved {namesOnly : Bool} {answer : Option (List Entry)}
    (lists : Lists walk files namesOnly answer walk' files') :
    walk'.current = walk.current ∧ walk'.frames = walk.frames ∧ walk'.pending = walk.pending ∧
      walk'.started = walk.started := by
  cases lists <;> exact ⟨rfl, rfl, rfl, rfl⟩

theorem Lists.here {namesOnly : Bool} {answer : Option (List Entry)}
    (lists : Lists walk files namesOnly answer walk' files') : walk'.here? = walk.here? := by
  rw [here?, lists.unmoved.1, here?]

/-- At the start of a directory, listing gives what the directory has. -/
theorem Lists.of_here {namesOnly : Bool} {answer : Option (List Entry)} {directory : Entry}
    (lists : Lists walk files namesOnly answer walk' files') (started : walk.started = true)
    (at_ : walk.here? = some directory) :
    (∃ error, answer = none ∧
      walk.listing namesOnly directory files = (.ok (.error error), files')) ∨
    ∃ entries, answer = some entries ∧
      walk.listing namesOnly directory files = (.ok (.ok entries), files') := by
  cases lists with
  | roots fresh => cases started.symm.trans fresh
  | nowhere _ away => cases at_.symm.trans away
  | fail _ at' given =>
    cases at_.symm.trans at'
    exact .inl ⟨_, rfl, given⟩
  | give _ at' given =>
    cases at_.symm.trans at'
    exact .inr ⟨_, rfl, given⟩

/-! ## What passes from directories to their entries -/

/-- `Holds P lists walk`: every entry that the walk has at hand satisfies `P`, and what it has
listed already is what `lists` says of the directory just reported. -/
structure Holds (P : Entry → Prop) (lists : Entry → List Entry → Prop) (walk : Walk) : Prop where
  roots : ∀ entry ∈ walk.roots, P entry
  awaited : ∀ entry ∈ walk.awaited, P entry
  here : ∀ directory, walk.here? = some directory → P directory
  frames : ∀ frame ∈ walk.frames, frame.directory.kind = .directory ∧ P frame.directory
  listed : ∀ entries, walk.listed = some entries →
    ∃ directory, walk.here? = some directory ∧ lists directory entries

/-- The last event of the visit of a directory that satisfies `P`. -/
def Closes (P : Entry → Prop) (event : Entry) : Prop :=
  ∃ directory, directory.kind = .directory ∧ P directory ∧
    (event = finished directory ∨ ∃ error, event = refused directory error)

/-- Whether an event of this kind is the last one of a visit. -/
def isClosing (kind : Kind) : Bool :=
  kind = .finished || kind = .unreadable

theorem Closes.isClosing {P : Entry → Prop} {event : Entry} (closes : Closes P event) :
    isClosing event.kind = true := by
  obtain ⟨_, _, _, rfl | ⟨_, rfl⟩⟩ := closes <;> rfl

namespace Holds

variable {P : Entry → Prop} {said : Entry → List Entry → Prop}

theorem next (holds : Holds P said walk) (unlisted : walk.listed = none)
    (step : Next walk event walk') :
    Holds P said walk' ∧ ∀ entry, event = some entry → P entry ∨ Closes P entry := by
  have frames : ∀ frame ∈ walk'.frames, frame.directory.kind = .directory ∧ P frame.directory := by
    intro frame' member
    obtain ⟨frame, member, same⟩ := step.directories frame' member
    rw [same]
    exact holds.frames frame member
  -- Apart from what is awaited, only a directory just reported is at hand newly.
  have onwards : (∀ entry ∈ walk'.awaited, P entry) →
      (∀ entry, event = some entry → entry.kind = .directory → P entry) → Holds P said walk' := by
    intro awaited here
    refine ⟨?_, awaited, fun directory at_ => ?_, frames, fun entries known => ?_⟩
    · rw [step.sameWalk.roots]
      exact holds.roots
    · obtain ⟨current, kind⟩ := here?_eq_some.mp at_
      exact here directory (step.current.symm.trans current) kind
    · rw [step.listed, unlisted] at known
      cases known
  rcases step.awaited with ⟨rfl, same⟩ | ⟨entry, rfl, taken⟩ | ⟨frame, member, rfl, same⟩
  · refine ⟨onwards ?_ (fun _ no => nomatch no), fun _ no => nomatch no⟩
    rw [same]
    exact holds.awaited
  · have all : ∀ other ∈ entry :: walk'.awaited, P other := by
      rw [← taken]
      exact holds.awaited
    refine ⟨onwards (fun other later => all other (List.mem_cons_of_mem _ later)) ?_, ?_⟩
    · rintro _ ⟨⟩ _
      exact all entry List.mem_cons_self
    · rintro _ ⟨⟩
      exact .inl (all entry List.mem_cons_self)
  · obtain ⟨kind, known⟩ := holds.frames frame member
    refine ⟨onwards ?_ ?_, ?_⟩
    · rw [same]
      exact holds.awaited
    · rintro _ ⟨⟩ no
      exact nomatch no
    · rintro _ ⟨⟩
      exact .inr ⟨frame.directory, kind, known, .inl rfl⟩

theorem entered (holds : Holds P said walk) {directory : Entry} {entries : List Entry} {count : Nat}
    (here : walk.here? = some directory) (all : ∀ entry ∈ entries, P entry) :
    Holds P said (walk.entered directory entries count) := by
  refine ⟨holds.roots, ?_, holds.here, ?_, fun _ no => nomatch no⟩
  · rw [awaited_entered]
    intro entry member
    rcases List.mem_append.mp member with inside | outside
    · exact all entry inside
    · exact holds.awaited entry outside
  · intro frame member
    rcases List.mem_cons.mp member with rfl | below
    · exact ⟨(here?_eq_some.mp here).2, holds.here directory here⟩
    · exact holds.frames frame below

theorem left (holds : Holds P said walk) {event : Entry} (closing : event.kind ≠ .directory) :
    Holds P said (walk.left event) := by
  refine ⟨holds.roots, holds.awaited, fun directory at_ => ?_, holds.frames,
    fun _ no => nomatch no⟩
  obtain ⟨current, kind⟩ := here?_eq_some.mp at_
  cases current
  exact absurd kind closing

/-- At the start of a walk it is enough to look at the roots. -/
theorem ofStarts {base : FileSystem} {serial : Nat} {paths : List String} {options : WalkOptions}
    {comparator : Option Comparator} (starts : Starts base serial paths options comparator walk)
    (roots : ∀ root ∈ walk.roots, P root) : Holds P said walk := by
  refine ⟨roots, ?_, ?_, ?_, ?_⟩
  · rwa [starts.awaited]
  · exact fun _ no => nomatch starts.nowhere.symm.trans no
  · rw [starts.noFrames]
    exact fun _ no => nomatch no
  · exact fun _ no => nomatch starts.unlisted.symm.trans no

theorem mono {P' : Entry → Prop} {said' : Entry → List Entry → Prop} (holds : Holds P said walk)
    (implies : ∀ entry, P entry → P' entry)
    (implies' : ∀ directory entries, said directory entries → said' directory entries) :
    Holds P' said' walk where
  roots := fun entry member => implies entry (holds.roots entry member)
  awaited := fun entry member => implies entry (holds.awaited entry member)
  here := fun directory at_ => implies directory (holds.here directory at_)
  frames := fun frame member =>
    ⟨(holds.frames frame member).1, implies _ (holds.frames frame member).2⟩
  listed := fun entries known =>
    (holds.listed entries known).imp fun directory said =>
      ⟨said.1, implies' directory entries said.2⟩

/-- Reading keeps what passes from directories to their entries. -/
theorem reads (holds : Holds P said walk) (reads : Reads walk files event walk' files')
    (listing : ∀ directory entries, walk.here? = some directory →
      walk.listing false directory files = (.ok (.ok entries), files') → said directory entries)
    (passes : ∀ directory entries, directory.kind = .directory → P directory →
      said directory entries → ∀ entry ∈ entries, P entry) :
    Holds P said walk' ∧ ∀ entry, event = some entry → P entry ∨ Closes P entry := by
  cases reads with
  | go here =>
    have unlisted : walk.listed = none := by
      cases known : walk.listed with
      | none => rfl
      | some entries =>
        obtain ⟨directory, at_, _⟩ := holds.listed entries known
        cases here.symm.trans at_
    have begun : Holds P said walk.begun :=
      ⟨holds.roots, holds.awaited, holds.here, holds.frames, holds.listed⟩
    exact begun.next unlisted (next_advance _)
  | @pass directory here =>
    have kind := (here?_eq_some.mp here).2
    refine ⟨holds.left nofun, ?_⟩
    rintro _ ⟨⟩
    exact .inr ⟨directory, kind, holds.here directory here, .inl rfl⟩
  | @refuse directory error _ here =>
    have kind := (here?_eq_some.mp here).2
    refine ⟨holds.left nofun, ?_⟩
    rintro _ ⟨⟩
    exact .inr ⟨directory, kind, holds.here directory here, .inr ⟨error, rfl⟩⟩
  | resume here _ known =>
    obtain ⟨directory, at_, said⟩ := holds.listed _ known
    cases here.symm.trans at_
    have all := passes _ _ (here?_eq_some.mp here).2 (holds.here _ here) said
    exact (holds.entered here all).next rfl (next_advance _)
  | enter here _ _ given =>
    have all := passes _ _ (here?_eq_some.mp here).2 (holds.here _ here) (listing _ _ here given)
    exact (holds.entered here all).next rfl (next_advance _)

/-- Listing keeps what passes from directories to their entries. -/
theorem answers {namesOnly : Bool} {answer : Option (List Entry)} (holds : Holds P said walk)
    (given : Lists walk files namesOnly answer walk' files')
    (listing : ∀ directory entries, walk.here? = some directory →
      walk.listing false directory files = (.ok (.ok entries), files') → said directory entries) :
    Holds P said walk' := by
  cases given with
  | roots | nowhere => exact holds
  | fail => exact ⟨holds.roots, holds.awaited, holds.here, holds.frames, nofun⟩
  | give _ here given =>
    refine ⟨holds.roots, holds.awaited, holds.here, holds.frames, fun entries known => ?_⟩
    cases namesOnly with
    | true => cases known
    | false =>
      cases known
      exact ⟨_, here, listing _ _ here given⟩

end Holds

/-! ## Numbers -/

/-- The entries that the walk can come to without listing a directory. -/
def upcoming (walk : Walk) : List Entry :=
  walk.listed.getD [] ++ walk.awaited

/-- The number of an event that is not the end of a visit. -/
def opened : Option Entry → List Nat
  | none => []
  | some event => if isClosing event.kind then [] else [event.serial]

/-- `Counted serial entries`: the entries were numbered from `serial` on, and none of them is the
end of a visit. -/
structure Counted (serial : Nat) (entries : List Entry) : Prop where
  numbered : (entries.map Entry.serial).Perm (List.range' serial entries.length)
  opening : ∀ entry ∈ entries, isClosing entry.kind = false

/-- `Numbered used walk`: the numbers `used` and those of the upcoming entries are all different,
and smaller than that of the next entry. -/
structure Numbered (used : List Nat) (walk : Walk) : Prop where
  nodup : (used ++ walk.upcoming.map Entry.serial).Nodup
  below : ∀ serial ∈ used ++ walk.upcoming.map Entry.serial, serial < walk.nextSerial
  opening : ∀ entry ∈ walk.upcoming, isClosing entry.kind = false

theorem Counted.ofListing {parent : Entry} {followLinks : Bool} {serial : Nat}
    {entries : List Entry} (read : Listing files followLinks parent serial entries) :
    Counted serial entries := by
  refine ⟨read.numbered, fun entry member => ?_⟩
  obtain ⟨notFinished, notUnreadable, -⟩ := (read.found entry member).kind_ne
  simp [isClosing, notFinished, notUnreadable]

theorem Next.nextSerial (next : Next walk event walk') : walk'.nextSerial = walk.nextSerial := by
  cases next <;> rfl

/-- The end of a visit is reported of a directory that is being walked. -/
theorem Next.closing {entry : Entry} (step : Next walk (some entry) walk')
    (opening : ∀ other ∈ walk.awaited, isClosing other.kind = false)
    (closing : isClosing entry.kind = true) :
    ∃ frame ∈ walk.frames, entry = finished frame.directory := by
  rcases step.awaited with ⟨no, -⟩ | ⟨_, same, taken⟩ | ⟨frame, member, same, -⟩
  · cases no
  · cases same
    have no := opening entry (by rw [taken]; exact List.mem_cons_self)
    cases no.symm.trans closing
  · cases same
    exact ⟨frame, member, rfl⟩

/-- `walk.Ends event`: the visit of the directory just reported ends with `event`. -/
def Ends (walk : Walk) (event : Entry) : Prop :=
  ∃ directory, walk.here? = some directory ∧
    (event = finished directory ∨ ∃ error, event = refused directory error)

/-- `Entering walk mid`: `mid` is the walk once it has entered the directory just reported, if there
is one. -/
structure Entering (walk mid : Walk) : Prop where
  pending : mid.pending = walk.pending
  opening : ∀ other ∈ mid.awaited, isClosing other.kind = false
  frames : walk.here? = none ∧ mid.frames = walk.frames ∨
    ∃ directory entries, walk.here? = some directory ∧
      mid.frames = ⟨directory, entries⟩ :: walk.frames

/-- Reading ends the visit of the directory just reported, or it enters it and goes on. -/
theorem Reads.via (reads : Reads walk files event walk' files')
    (opening : ∀ other ∈ walk.upcoming, isClosing other.kind = false) :
    (∃ entry, event = some entry ∧ walk.Ends entry ∧ walk' = walk.left entry) ∨
      ∃ mid, Entering walk mid ∧ Next mid event walk' := by
  have before : ∀ other ∈ walk.awaited, isClosing other.kind = false :=
    fun other member => opening other (List.mem_append_right _ member)
  have inside : ∀ {directory : Entry} {entries : List Entry} {count : Nat},
      walk.here? = some directory → (∀ other ∈ entries, isClosing other.kind = false) →
      Entering walk (walk.entered directory entries count) := by
    intro directory entries count here fresh
    refine ⟨rfl, ?_, .inr ⟨directory, entries, here, rfl⟩⟩
    rw [awaited_entered]
    intro other member
    rcases List.mem_append.mp member with new | old
    · exact fresh other new
    · exact before other old
  cases reads with
  | go here => exact .inr ⟨walk.begun, ⟨rfl, before, .inl ⟨here, rfl⟩⟩, next_advance _⟩
  | @pass directory here => exact .inl ⟨_, rfl, ⟨directory, here, .inl rfl⟩, rfl⟩
  | @refuse directory error _ here => exact .inl ⟨_, rfl, ⟨directory, here, .inr ⟨error, rfl⟩⟩, rfl⟩
  | @resume directory entries here _ known =>
    refine .inr ⟨_, inside here fun other member => ?_, next_advance _⟩
    refine opening other (List.mem_append_left _ ?_)
    rw [known]
    exact member
  | @enter directory entries _ here _ _ given =>
    have counted := Counted.ofListing (listing_spec .refl given)
    exact .inr ⟨_, inside here counted.opening, next_advance _⟩

/-- The end of a visit is reported of the directory just reported, or of one that is being
walked. -/
theorem Reads.closing {entry : Entry} (reads : Reads walk files (some entry) walk' files')
    (opening : ∀ other ∈ walk.upcoming, isClosing other.kind = false)
    (closing : isClosing entry.kind = true) :
    ∃ directory, directory.serial = entry.serial ∧
      (walk.here? = some directory ∨ ∃ frame ∈ walk.frames, frame.directory = directory) := by
  rcases reads.via opening with ⟨_, ⟨⟩, ⟨directory, here, same⟩, -⟩ | ⟨mid, entering, step⟩
  · refine ⟨directory, ?_, .inl here⟩
    rcases same with rfl | ⟨_, rfl⟩ <;> rfl
  · obtain ⟨frame, member, rfl⟩ := step.closing entering.opening closing
    refine ⟨frame.directory, rfl, ?_⟩
    rcases entering.frames with ⟨-, same⟩ | ⟨directory, entries, here, same⟩
    · rw [same] at member
      exact .inr ⟨frame, member, rfl⟩
    · rw [same] at member
      rcases List.mem_cons.mp member with rfl | below
      · exact .inl here
      · exact .inr ⟨frame, below, rfl⟩

/-- The directories being walked after an event: those from before, and the one just reported. -/
theorem Reads.directories (reads : Reads walk files event walk' files')
    (opening : ∀ other ∈ walk.upcoming, isClosing other.kind = false) :
    ∀ frame' ∈ walk'.frames, walk.here? = some frame'.directory ∨
      ∃ frame ∈ walk.frames, frame'.directory = frame.directory := by
  intro frame' member
  rcases reads.via opening with ⟨_, -, -, rfl⟩ | ⟨mid, entering, step⟩
  · exact .inr ⟨frame', member, rfl⟩
  · obtain ⟨frame, member, same⟩ := step.directories frame' member
    rw [same]
    rcases entering.frames with ⟨-, framed⟩ | ⟨directory, entries, here, framed⟩
    · rw [framed] at member
      exact .inr ⟨frame, member, rfl⟩
    · rw [framed] at member
      rcases List.mem_cons.mp member with rfl | below
      · exact .inl here
      · exact .inr ⟨frame, below, rfl⟩

namespace Numbered

variable {used : List Nat}

/-- Numbers stay different where fewer entries are upcoming. -/
theorem ofSublist (numbered : Numbered used walk)
    (fewer : walk'.upcoming.Sublist walk.upcoming) (later : walk.nextSerial ≤ walk'.nextSerial) :
    Numbered used walk' := by
  have numbers : (used ++ walk'.upcoming.map Entry.serial).Sublist
      (used ++ walk.upcoming.map Entry.serial) := (fewer.map _).append_left used
  refine ⟨numbered.nodup.sublist numbers, fun serial member => ?_, fun entry member => ?_⟩
  · exact (numbered.below serial (numbers.subset member)).trans_le later
  · exact numbered.opening entry (fewer.subset member)

theorem next (numbered : Numbered used walk) (unlisted : walk.listed = none)
    (step : Next walk event walk') : Numbered (used ++ opened event) walk' := by
  have before : walk.upcoming = walk.awaited := by
    rw [upcoming, unlisted, Option.getD_none, List.nil_append]
  have after : walk'.upcoming = walk'.awaited := by
    rw [upcoming, step.listed, unlisted, Option.getD_none, List.nil_append]
  have unchanged : walk'.awaited = walk.awaited → Numbered (used ++ []) walk' := by
    intro same
    rw [List.append_nil]
    refine numbered.ofSublist ?_ step.nextSerial.ge
    rw [after, same, before]
  rcases step.awaited with ⟨rfl, same⟩ | ⟨entry, rfl, taken⟩ | ⟨frame, _, rfl, same⟩
  · exact unchanged same
  · have opening : ∀ other ∈ entry :: walk'.awaited, isClosing other.kind = false := by
      rw [← taken, ← before]
      exact numbered.opening
    have number : opened (some entry) = [entry.serial] := by
      rw [opened, opening entry List.mem_cons_self]
      rfl
    -- Its number is used now, and was that of an upcoming entry before.
    have moved : used ++ opened (some entry) ++ walk'.upcoming.map Entry.serial =
        used ++ walk.upcoming.map Entry.serial := by
      rw [after, before, taken, number, List.map_cons, List.append_assoc, List.singleton_append]
    refine ⟨?_, ?_, ?_⟩
    · rw [moved]
      exact numbered.nodup
    · rw [moved, step.nextSerial]
      exact numbered.below
    · rw [after]
      exact fun other later => opening other (List.mem_cons_of_mem _ later)
  · exact unchanged same

/-- Entries that are numbered after all others can be put in front of the awaited ones. -/
theorem insert (numbered : Numbered used walk) {entries : List Entry}
    (counted : Counted walk.nextSerial entries) :
    (used ++ (entries ++ walk.awaited).map Entry.serial).Nodup ∧
      (∀ serial ∈ used ++ (entries ++ walk.awaited).map Entry.serial,
        serial < walk.nextSerial + entries.length) ∧
      ∀ entry ∈ entries ++ walk.awaited, isClosing entry.kind = false := by
  have fresh : ∀ serial ∈ entries.map Entry.serial,
      walk.nextSerial ≤ serial ∧ serial < walk.nextSerial + entries.length :=
    fun serial member => List.mem_range'_1.mp (counted.numbered.mem_iff.mp member)
  have old : ∀ serial ∈ used ++ walk.awaited.map Entry.serial, serial < walk.nextSerial := by
    refine fun serial member => numbered.below serial ?_
    rw [upcoming, List.map_append]
    rcases List.mem_append.mp member with before | after
    · exact List.mem_append_left _ before
    · exact List.mem_append_right _ (List.mem_append_right _ after)
  have kept : (used ++ walk.awaited.map Entry.serial).Nodup := by
    refine numbered.nodup.sublist (List.Sublist.append_left ?_ used)
    rw [upcoming, List.map_append]
    exact List.sublist_append_right _ _
  -- The order of the numbers is of no concern, so that the fresh ones may come first.
  have moved : (used ++ (entries ++ walk.awaited).map Entry.serial).Perm
      (entries.map Entry.serial ++ (used ++ walk.awaited.map Entry.serial)) := by
    rw [List.map_append, ← List.append_assoc, ← List.append_assoc]
    exact List.perm_append_comm.append_right _
  refine ⟨?_, ?_, ?_⟩
  · refine moved.nodup_iff.mpr (List.nodup_append.mpr ⟨?_, kept, ?_⟩)
    · exact counted.numbered.nodup_iff.mpr List.nodup_range'
    · rintro serial new _ before rfl
      exact absurd (old serial before) (Nat.not_lt.mpr (fresh serial new).1)
  · intro serial member
    rcases List.mem_append.mp (moved.mem_iff.mp member) with new | before
    · exact (fresh serial new).2
    · exact Nat.lt_add_right _ (old serial before)
  · intro entry member
    rcases List.mem_append.mp member with new | before
    · exact counted.opening entry new
    · exact numbered.opening entry (List.mem_append_right _ before)

/-- Reading uses a number at most once. -/
theorem reads (numbered : Numbered used walk) (step : Reads walk files event walk' files')
    (unlisted : walk.here? = none → walk.listed = none) :
    Numbered (used ++ opened event) walk' := by
  have closes : ∀ event, isClosing event.kind = true →
      Numbered (used ++ opened (some event)) (walk.left event) := by
    intro event closing
    have number : opened (some event) = [] := by
      rw [opened, closing]
      rfl
    rw [number, List.append_nil]
    exact numbered.ofSublist (List.sublist_append_right _ _) le_rfl
  cases step with
  | go here =>
    have begun : Numbered used walk.begun := ⟨numbered.nodup, numbered.below, numbered.opening⟩
    exact begun.next (unlisted here) (next_advance _)
  | pass => exact closes _ rfl
  | refuse => exact closes _ rfl
  | @resume directory entries here _ known =>
    have same : (walk.entered directory entries 0).upcoming = walk.upcoming := by
      rw [upcoming, upcoming, awaited_entered, known]
      rfl
    have entered : Numbered used (walk.entered directory entries 0) :=
      numbered.ofSublist (same ▸ .refl _) le_rfl
    exact entered.next rfl (next_advance _)
  | @enter directory entries _ _ _ _ given =>
    obtain ⟨nodup, below, opening⟩ := numbered.insert (.ofListing (listing_spec .refl given))
    have same : (walk.entered directory entries entries.length).upcoming =
        entries ++ walk.awaited := by
      rw [upcoming, awaited_entered]
      rfl
    have entered : Numbered used (walk.entered directory entries entries.length) := by
      constructor <;> rw [same]
      · exact nodup
      · exact below
      · exact opening
    exact entered.next rfl (next_advance _)

/-- The roots are numbered first. -/
theorem ofStarts {base : FileSystem} {serial : Nat} {paths : List String} {options : WalkOptions}
    {comparator : Option Comparator} (starts : Starts base serial paths options comparator walk) :
    Numbered [] walk := by
  have upcoming : walk.upcoming = walk.roots := by
    rw [Walk.upcoming, starts.unlisted, starts.awaited]
    rfl
  have next : walk.nextSerial = serial + paths.length := by
    rw [starts.fresh]
  have numbers := starts.roots.numbered
  refine ⟨?_, fun number member => ?_, fun entry member => ?_⟩
  · rw [upcoming]
    exact numbers.nodup_iff.mpr List.nodup_range'
  · rw [upcoming] at member
    rw [next]
    exact (List.mem_range'_1.mp (numbers.mem_iff.mp member)).2
  · rw [upcoming] at member
    obtain ⟨notFinished, notUnreadable, -⟩ := (starts.roots.found entry member).kind_ne
    simp [isClosing, notFinished, notUnreadable]

/-- Listing uses numbers that were not used before. -/
theorem answers (numbered : Numbered used walk) {namesOnly : Bool} {answer : Option (List Entry)}
    (step : Lists walk files namesOnly answer walk' files') :
    Numbered used walk' := by
  cases step with
  | roots | nowhere => exact numbered
  | fail => exact numbered.ofSublist (List.sublist_append_right _ _) le_rfl
  | @give directory entries _ _ _ given =>
    obtain ⟨nodup, below, opening⟩ := numbered.insert (.ofListing (listing_spec .refl given))
    have listed : Numbered used { walk with
        listed := some entries
        nextSerial := walk.nextSerial + entries.length } := ⟨nodup, below, opening⟩
    cases namesOnly with
    | false => exact listed
    -- The names were numbered all the same.
    | true => exact listed.ofSublist (List.sublist_append_right _ _) le_rfl

end Numbered
end Steps
end DirList.Walk
