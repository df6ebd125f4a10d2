import DirList.Proofs.Walk.Numbering

/-!
# What events depend on

Over a file system that does not change, the events of a walk depend on nothing but the directories
that are skipped. Listing a directory leaves them as they are, and skipping one leaves out what is
found inside it.

Results:
1. `Steady.step_read`, `Steady.step_children`, `Steady.step_skipRead`: what a client over a static
   file system does.
2. `Parallel.run_both`: two clients whose walks differ in numbers and listings only are given the
   same.
3. `Steady.excision`: skipping a directory takes out the events of its visit.
4. `events_of_skips`: both for a client that has just started.
-/

namespace DirList.Walk

open FileSystem

/-! ## Clients over a static file system -/

/-- Whether the command reads, lists, or skips what was read. -/
def Command.isOrdinary : Command → Bool
  | .read | .children _ | .skipRead _ => true
  | .skip _ | .change _ => false

/-- Whether the command lists a directory. -/
def Command.isListing : Command → Bool
  | .children _ => true
  | _ => false

/-- `Steady files start client`: a client over a file system that does not change.

* `skipped`: only what was read is skipped.
* `cached`: what the walk has listed is what it would list now, but for the numbers. -/
structure Steady (files : FileSystem) (start : Walk) (client : Client) : Prop where
  tracked : Client.Tracked start client
  same : client.files = files
  running : client.interrupted = false
  skipped : ∀ serial ∈ client.walk.skipped, serial ∈ client.numbers
  cached : ∀ directory entries, client.walk.here? = some directory →
    client.walk.listed = some entries → ∃ entries',
      client.walk.listing false directory files = (.ok (.ok entries'), files) ∧
        entries'.map Entry.unnumbered = entries.map Entry.unnumbered

namespace Steady

variable {files : FileSystem} {start : Walk} {client : Client}

/-- An event that reports a directory has a number that is not skipped. -/
theorem not_skipped (steady : Steady files start client) {directory : Entry} {event : Option Entry}
    {walk' : Walk} {files' : FileSystem} (reads : Reads client.walk files event walk' files')
    (at_ : walk'.here? = some directory) : directory.serial ∉ walk'.skipped := by
  obtain ⟨current, kind⟩ := here?_eq_some.mp at_
  cases reads.current.symm.trans current
  have numbered := steady.tracked.numbered.reads reads steady.tracked.unlisted
  have opens : opened (some directory) = [directory.serial] := by
    simp [opened, isClosing, kind]
  have distinct := numbered.nodup.sublist (List.sublist_append_left _ _)
  rw [opens] at distinct
  intro skip
  rw [reads.sameWalk.skipped] at skip
  exact List.disjoint_of_nodup_append distinct (steady.skipped _ skip) List.mem_cons_self

theorem read (steady : Steady files start client) {event : Entry} {walk' : Walk}
    (reads : Reads client.walk client.files (some event) walk' files) :
    Steady files start { client with
      files := files, walk := walk'
      turns := ⟨client.files, client.walk.skipped, event, none⟩ :: client.turns } where
  tracked := steady.tracked.read reads
  same := rfl
  running := steady.running
  skipped := by
    intro serial skip
    dsimp only at skip
    rw [reads.sameWalk.skipped] at skip
    rw [Client.numbers, Client.numbersOf_cons]
    exact List.mem_append_left _ (steady.skipped serial skip)
  cached := by
    intro directory entries _ listed
    cases (reads.listed steady.tracked.unlisted).symm.trans listed

theorem exhausted (steady : Steady files start client) {walk' : Walk}
    (reads : Reads client.walk client.files none walk' files) :
    Steady files start { client with files := files, walk := walk', ended := true } where
  tracked := steady.tracked.exhausted reads
  same := rfl
  running := steady.running
  skipped := by
    intro serial skip
    dsimp only at skip
    rw [reads.sameWalk.skipped] at skip
    exact steady.skipped serial skip
  cached := by
    intro directory entries _ listed
    cases (reads.listed steady.tracked.unlisted).symm.trans listed

theorem skip (steady : Steady files start client) {turn : Turn} (member : turn ∈ client.turns) :
    Steady files start { client with walk := client.walk.skip turn.event } where
  tracked := steady.tracked.skip turn.event
  same := steady.same
  running := steady.running
  skipped := by
    intro serial skip
    rcases List.mem_cons.mp skip with rfl | before
    · exact steady.tracked.known _ List.suffix_rfl turn member
    · exact steady.skipped serial before
  cached := steady.cached

theorem list (steady : Steady files start client) (static : files.IsStatic) {namesOnly : Bool}
    {answer : Option (List Entry)} {walk' : Walk} {files' : FileSystem}
    (lists : Lists client.walk client.files namesOnly answer walk' files') :
    Steady files start { client with
      files := files', walk := walk', turns := Client.heard namesOnly answer client.turns } := by
  have same : files' = files := by
    have wears := lists.wears
    rw [steady.same] at wears
    exact wears.eq_of_isStatic static
  refine ⟨steady.tracked.list lists, same, steady.running, ?_, ?_⟩
  · intro serial skip
    dsimp only at skip
    rw [lists.sameWalk.skipped] at skip
    rw [Client.numbers, Client.numbersOf, Client.map_event_heard]
    exact steady.skipped serial skip
  · intro directory entries at_ listed
    dsimp only at at_ listed ⊢
    cases lists with
    | roots | nowhere => exact steady.cached directory entries at_ listed
    | fail => cases listed
    | @give directory' entries' _ _ at' given =>
      cases namesOnly with
      | true => cases listed
      | false =>
        cases listed
        have here : some directory' = some directory := at'.symm.trans at_
        cases here
        rw [steady.same, same] at given
        obtain ⟨answer', again, alike⟩ := @exists_alike_listing client.walk
          { client.walk with
            listed := some entries
            nextSerial := client.walk.nextSerial + entries.length } rfl rfl _ _ rfl _ _ _ _ given
        cases alike with
        | entries alike => exact ⟨_, again, alike⟩

/-- What a client does with an event that its walk gives. -/
theorem step_read (steady : Steady files start client) {event : Option Entry} {walk' : Walk}
    (reads : Reads client.walk files event walk' files) :
    Steady files start (client.step .read) ∧ (client.step .read).walk = walk' ∧
      (client.step .read).events = client.events ++ event.toList := by
  have reads' : Reads client.walk client.files event walk' files := by
    rw [steady.same]
    exact reads
  have ran := run_of_reads steady.tracked.isOpen reads'
  cases event with
  | none =>
    have after : client.step .read = { client with
        files := files, walk := walk', ended := true } := by
      unfold Client.step
      rw [if_neg (by simp [steady.running])]
      dsimp only
      rw [ran]
    rw [after]
    exact ⟨steady.exhausted reads', rfl, (List.append_nil _).symm⟩
  | some event =>
    have after : client.step .read = { client with
        files := files, walk := walk'
        turns := ⟨client.files, client.walk.skipped, event, none⟩ :: client.turns } := by
      unfold Client.step
      rw [if_neg (by simp [steady.running])]
      dsimp only
      rw [ran]
    rw [after]
    refine ⟨steady.read reads', rfl, ?_⟩
    simp only [Client.events, List.map_cons, List.reverse_cons, Option.toList_some]

/-- What a client does when it lists a directory. -/
theorem step_children (steady : Steady files start client) (static : files.IsStatic)
    (calm : files.IsCalm) (namesOnly : Bool) :
    Steady files start (client.step (.children namesOnly)) ∧
      (client.step (.children namesOnly)).events = client.events ∧
      ∃ answer, Lists client.walk files namesOnly answer (client.step (.children namesOnly)).walk
        files := by
  have moves := Client.step_cases steady.tracked.isOpen steady.running (.children namesOnly)
  generalize client.step (.children namesOnly) = client' at moves
  cases moves with
  | stop given =>
    rw [steady.same] at given
    exact absurd (congrArg Prod.fst given) (listing_ne_error calm .refl _ _ _ _)
  | @list _ answer walk' files' lists =>
    refine ⟨steady.list static lists, ?_, answer, ?_⟩
    · simp only [Client.events, Client.map_event_heard]
    · have same : files' = files := by
        have wears := lists.wears
        rw [steady.same] at wears
        exact wears.eq_of_isStatic static
      rw [steady.same, same] at lists
      exact lists

/-- What a client does when it has skipped what it read. -/
theorem step_skipRead (steady : Steady files start client) (back : Nat) :
    Steady files start (client.step (.skipRead back)) ∧
      (client.step (.skipRead back)).events = client.events ∧
      (client.step (.skipRead back)).walk = match client.turns[back]? with
        | none => client.walk
        | some turn => client.walk.skip turn.event := by
  have after : client.step (.skipRead back) = match client.turns[back]? with
      | none => client
      | some turn => { client with walk := client.walk.skip turn.event } := by
    unfold Client.step
    rw [if_neg (by simp [steady.running])]
    dsimp only
    cases client.turns[back]? <;> rfl
  rw [after]
  cases found : client.turns[back]? with
  | none => exact ⟨steady, rfl, rfl⟩
  | some turn => exact ⟨steady.skip (List.mem_of_getElem? found), rfl, rfl⟩

/-- The last event is skipped by skipping it, and not by skipping another one. -/
theorem skipped_skipRead (steady : Steady files start client) (back : Nat) {directory : Entry}
    (at_ : client.walk.here? = some directory) :
    directory.serial ∈ (client.step (.skipRead back)).walk.skipped ↔
      back = 0 ∨ directory.serial ∈ client.walk.skipped := by
  obtain ⟨turn, turns, first, rfl, -⟩ := steady.tracked.here directory at_
  rw [(steady.step_skipRead back).2.2, first]
  cases back with
  | zero => exact iff_of_true List.mem_cons_self (.inl rfl)
  | succ back =>
    have known := steady.tracked.known turns (by rw [first]; exact List.suffix_cons _ _)
    have distinct := steady.tracked.numbered.nodup.sublist (List.sublist_append_left _ _)
    have opens : opened (some turn.event) = [turn.event.serial] := by
      simp [opened, isClosing, (here?_eq_some.mp at_).2]
    rw [Client.numbers, first, Client.numbersOf_cons, opens] at distinct
    rw [List.getElem?_cons_succ]
    cases found : turns[back]? with
    | none => simp
    | some other =>
      have differs : turn.event.serial ≠ other.event.serial := by
        intro same
        have inside := known other (List.mem_of_getElem? found)
        exact List.disjoint_of_nodup_append distinct inside (same ▸ List.mem_cons_self)
      simp [Walk.skip, differs]

/-- Where a directory is not skipped, the next event depends on what a listing answers now. -/
theorem reads_unskipped (steady : Steady files start client) {directory : Entry}
    (at_ : client.walk.here? = some directory) (noSkip : directory.serial ∉ client.walk.skipped)
    {answer : Except SystemError (List Entry)}
    (given : client.walk.listing false directory files = (.ok answer, files)) :
    (∃ error, answer = .error error ∧ Reads client.walk files (some (refused directory error))
      (client.walk.left (refused directory error)) files) ∨
    ∃ fresh entries count, answer = .ok fresh ∧
      entries.map Entry.unnumbered = fresh.map Entry.unnumbered ∧
      Reads client.walk files (client.walk.entered directory entries count).advance.1
        (client.walk.entered directory entries count).advance.2 files := by
  cases listed : client.walk.listed with
  | some entries =>
    obtain ⟨fresh, again, alike⟩ := steady.cached directory entries at_ listed
    rw [given] at again
    cases again
    exact .inr ⟨fresh, entries, 0, rfl, alike.symm, .resume at_ noSkip listed⟩
  | none =>
    cases answer with
    | error error => exact .inl ⟨error, rfl, .refuse at_ noSkip listed given⟩
    | ok entries => exact .inr ⟨entries, entries, _, rfl, rfl, .enter at_ noSkip listed given⟩

end Steady

/-! ## Walks that differ in numbers and listings -/

/-- A frame without numbers. -/
def Frame.unnumbered (frame : Frame) : Frame :=
  ⟨frame.directory.unnumbered, frame.pending.map Entry.unnumbered⟩

/-- `Alike walk walk'`: the walks stand at the same place, but for the numbers of entries, and both
skip the directory just reported or neither does. -/
structure Alike (walk walk' : Walk) : Prop where
  options : walk'.options = walk.options
  comparator : walk'.comparator = walk.comparator
  pending : walk'.pending.map Entry.unnumbered = walk.pending.map Entry.unnumbered
  frames : walk'.frames.map Frame.unnumbered = walk.frames.map Frame.unnumbered
  here : walk'.here?.map Entry.unnumbered = walk.here?.map Entry.unnumbered
  skip : ∀ directory directory', walk.here? = some directory → walk'.here? = some directory' →
    (directory'.serial ∈ walk'.skipped ↔ directory.serial ∈ walk.skipped)

/-- What is reported when two walks at the same place go on. -/
structure SameEvent (event event' : Option Entry) (walk walk' : Walk) : Prop where
  event : event'.map Entry.unnumbered = event.map Entry.unnumbered
  pending : walk'.pending.map Entry.unnumbered = walk.pending.map Entry.unnumbered
  frames : walk'.frames.map Frame.unnumbered = walk.frames.map Frame.unnumbered

theorem sameEvent_advance {walk walk' : Walk}
    (pending : walk'.pending.map Entry.unnumbered = walk.pending.map Entry.unnumbered)
    (frames : walk'.frames.map Frame.unnumbered = walk.frames.map Frame.unnumbered) :
    SameEvent walk.advance.1 walk'.advance.1 walk.advance.2 walk'.advance.2 := by
  unfold advance report
  cases framed : walk.frames with
  | nil =>
    rw [framed, List.map_nil, List.map_eq_nil_iff] at frames
    rw [frames]
    dsimp only
    cases left : walk.pending with
    | nil =>
      rw [left, List.map_nil, List.map_eq_nil_iff] at pending
      rw [pending]
      exact ⟨rfl, rfl, rfl⟩
    | cons root rest =>
      rw [left, List.map_cons] at pending
      obtain ⟨root', rest', left', same, others⟩ := List.map_eq_cons_iff.mp pending
      rw [left']
      exact ⟨congrArg some same, others, rfl⟩
  | cons frame outer =>
    rw [framed, List.map_cons] at frames
    obtain ⟨frame', outer', framed', same, others⟩ := List.map_eq_cons_iff.mp frames
    rw [framed']
    dsimp only
    obtain ⟨directory, inside⟩ := Frame.mk.inj same
    cases left : frame.pending with
    | nil =>
      rw [left, List.map_nil, List.map_eq_nil_iff] at inside
      rw [inside]
      refine ⟨?_, pending, others⟩
      exact congrArg some (congrArg finished directory)
    | cons entry rest =>
      rw [left, List.map_cons] at inside
      obtain ⟨entry', rest', left', same', rest⟩ := List.map_eq_cons_iff.mp inside
      rw [left']
      refine ⟨congrArg some same', pending, ?_⟩
      rw [List.map_cons, List.map_cons, others]
      refine congrArg (· :: _) ?_
      rw [Frame.unnumbered, Frame.unnumbered, directory, rest]

/-- `Parallel files start client client'`: two clients over a static file system whose walks stand
at the same place. -/
structure Parallel (files : FileSystem) (start : Walk) (client client' : Client) : Prop where
  left : Steady files start client
  right : Steady files start client'
  alike : Alike client.walk client'.walk

namespace Parallel

variable {files : FileSystem} {start : Walk} {client client' : Client}

theorem refl (steady : Steady files start client) : Parallel files start client client where
  left := steady
  right := steady
  alike := {
    options := rfl
    comparator := rfl
    pending := rfl
    frames := rfl
    here := rfl
    skip := by
      intro directory directory' at_ at'
      cases at_.symm.trans at'
      exact Iff.rfl }

/-- Two events that are the same but for the numbers, with walks at the same place afterwards. -/
theorem exists_same_reads (parallel : Parallel files start client client')
    (static : files.IsStatic) (calm : files.IsCalm) :
    ∃ event walk event' walk', Reads client.walk files event walk files ∧
      Reads client'.walk files event' walk' files ∧ SameEvent event event' walk walk' := by
  obtain ⟨left, right, alike⟩ := parallel
  cases at_ : client.walk.here? with
  | none =>
    have at' : client'.walk.here? = none := by
      have same := alike.here
      rw [at_] at same
      exact Option.map_eq_none_iff.mp same
    exact ⟨_, _, _, _, .go at_, .go at',
      @sameEvent_advance client.walk.begun client'.walk.begun alike.pending alike.frames⟩
  | some directory =>
    obtain ⟨directory', at', same⟩ : ∃ directory', client'.walk.here? = some directory' ∧
        directory'.unnumbered = directory.unnumbered := by
      have same := alike.here
      rw [at_] at same
      exact Option.map_eq_some_iff.mp same
    have skip := alike.skip directory directory' at_ at'
    by_cases skipped : directory.serial ∈ client.walk.skipped
    · refine ⟨_, _, _, _, .pass at_ skipped, .pass at' (skip.mpr skipped), ?_, alike.pending,
        alike.frames⟩
      exact congrArg some (congrArg finished same)
    -- What comes next depends on what the directory answers, asked now or before.
    have skipped' : directory'.serial ∉ client'.walk.skipped := fun no => skipped (skip.mp no)
    obtain ⟨answer, given⟩ := exists_listing static calm client.walk false directory
    obtain ⟨answer', given', answers⟩ :=
      exists_alike_listing alike.options alike.comparator same.symm given
    have reads := left.reads_unskipped at_ skipped given
    have reads' := right.reads_unskipped at' skipped' given'
    cases answers with
    | error error =>
      obtain ⟨_, ⟨⟩, reads⟩ := reads.resolve_right fun ⟨_, _, _, no, _⟩ => nomatch no
      obtain ⟨_, ⟨⟩, reads'⟩ := reads'.resolve_right fun ⟨_, _, _, no, _⟩ => nomatch no
      refine ⟨_, _, _, _, reads, reads', ?_, alike.pending, alike.frames⟩
      exact congrArg some (congrArg (refused · error) same)
    | entries equal =>
      obtain ⟨_, entries, count, ⟨⟩, fresh, reads⟩ :=
        reads.resolve_left fun ⟨_, no, _⟩ => nomatch no
      obtain ⟨_, entries', count', ⟨⟩, fresh', reads'⟩ :=
        reads'.resolve_left fun ⟨_, no, _⟩ => nomatch no
      refine ⟨_, _, _, _, reads, reads', sameEvent_advance alike.pending ?_⟩
      have inside : entries'.map Entry.unnumbered = entries.map Entry.unnumbered :=
        fresh'.trans (equal.trans fresh.symm)
      have frame : Frame.unnumbered ⟨directory', entries'⟩ =
          Frame.unnumbered ⟨directory, entries⟩ := by
        rw [Frame.unnumbered, Frame.unnumbered, same, inside]
      exact List.cons_eq_cons.mpr ⟨frame, alike.frames⟩

/-- Reading gives two such clients the same. -/
theorem read (parallel : Parallel files start client client') (static : files.IsStatic)
    (calm : files.IsCalm) :
    Parallel files start (client.step .read) (client'.step .read) ∧
      ∃ news news', (client.step .read).events = client.events ++ news ∧
        (client'.step .read).events = client'.events ++ news' ∧
        news'.map Entry.unnumbered = news.map Entry.unnumbered := by
  obtain ⟨event, walk, event', walk', reads, reads', same⟩ :=
    parallel.exists_same_reads static calm
  obtain ⟨steady, moved, events⟩ := parallel.left.step_read reads
  obtain ⟨steady', moved', events'⟩ := parallel.right.step_read reads'
  have news : event'.toList.map Entry.unnumbered = event.toList.map Entry.unnumbered := by
    have same := congrArg Option.toList same.event
    rwa [Option.toList_map, Option.toList_map] at same
  have here : ∀ {walk walk₁ : Walk} {event : Option Entry}, Reads walk files event walk₁ files →
      walk₁.here? = event.filter fun entry => entry.kind = .directory := by
    intro walk walk₁ event reads
    rw [here?, reads.current]
  refine ⟨⟨steady, steady', ?_⟩, _, _, events, events', news⟩
  rw [moved, moved']
  refine ⟨?_, ?_, same.pending, same.frames, ?_, ?_⟩
  · rw [reads.sameWalk.options, reads'.sameWalk.options, parallel.alike.options]
  · rw [reads.sameWalk.comparator, reads'.sameWalk.comparator, parallel.alike.comparator]
  · have kinds : ∀ event : Option Entry,
        (event.filter fun entry => entry.kind = .directory).map Entry.unnumbered =
          (event.map Entry.unnumbered).filter fun entry => entry.kind = .directory := by
      intro event
      rw [Option.filter_map]
      rfl
    rw [here reads, here reads', kinds, kinds, same.event]
  · intro directory directory' at_ at'
    -- Neither of them is skipped yet, for their numbers are new.
    exact iff_of_false (parallel.right.not_skipped reads' at') (parallel.left.not_skipped reads at_)

/-- Listing a directory leaves a client where it is. -/
theorem children (parallel : Parallel files start client client') (static : files.IsStatic)
    (calm : files.IsCalm) (namesOnly : Bool) :
    Parallel files start (client.step (.children namesOnly)) client' := by
  obtain ⟨steady, -, answer, lists⟩ := parallel.left.step_children static calm namesOnly
  obtain ⟨-, frames, pending, -⟩ := lists.unmoved
  have same := lists.sameWalk
  have here := lists.here
  have alike := parallel.alike
  refine ⟨steady, parallel.right, ?_, ?_, ?_, ?_, ?_, ?_⟩
  · rw [same.options, alike.options]
  · rw [same.comparator, alike.comparator]
  · rw [pending, alike.pending]
  · rw [frames, alike.frames]
  · rw [here, alike.here]
  · rw [here, same.skipped]
    exact alike.skip

/-- Skipping what was read equally long ago leaves two such clients at the same place. -/
theorem skipRead (parallel : Parallel files start client client') (back : Nat) :
    Parallel files start (client.step (.skipRead back)) (client'.step (.skipRead back)) := by
  obtain ⟨steady, -, walk⟩ := parallel.left.step_skipRead back
  obtain ⟨steady', -, walk'⟩ := parallel.right.step_skipRead back
  have unmoved : ∀ (turns : List Turn) (walk : Walk),
      ∃ skipped, (match turns[back]? with
        | none => walk
        | some turn => walk.skip turn.event) = { walk with skipped } := by
    intro turns walk
    cases turns[back]? with
    | none => exact ⟨walk.skipped, rfl⟩
    | some turn => exact ⟨_, rfl⟩
  obtain ⟨skipped, moved⟩ := unmoved client.turns client.walk
  obtain ⟨skipped', moved'⟩ := unmoved client'.turns client'.walk
  have skip : ∀ directory directory', client.walk.here? = some directory →
      client'.walk.here? = some directory' →
      (directory'.serial ∈ skipped' ↔ directory.serial ∈ skipped) := by
    intro directory directory' at_ at'
    have left := parallel.left.skipped_skipRead back at_
    have right := parallel.right.skipped_skipRead back at'
    rw [walk, moved] at left
    rw [walk', moved'] at right
    rw [left, right, parallel.alike.skip directory directory' at_ at']
  refine ⟨steady, steady', ?_⟩
  rw [walk, walk', moved, moved']
  exact { parallel.alike with skip }

/-- Two such clients are given the same, although only one of them lists directories. -/
theorem run (parallel : Parallel files start client client') (static : files.IsStatic)
    (calm : files.IsCalm) {commands : List Command}
    (ordinary : ∀ command ∈ commands, command.isOrdinary = true) :
    Parallel files start (client.run commands)
        (client'.run (commands.filter fun command => !command.isListing)) ∧
      ∃ news news', (client.run commands).events = client.events ++ news ∧
        (client'.run (commands.filter fun command => !command.isListing)).events =
          client'.events ++ news' ∧
        news'.map Entry.unnumbered = news.map Entry.unnumbered := by
  induction commands generalizing client client' with
  | nil => exact ⟨parallel, [], [], (List.append_nil _).symm, (List.append_nil _).symm, rfl⟩
  | cons command commands ih =>
    have rest : ∀ command ∈ commands, command.isOrdinary = true :=
      fun command member => ordinary command (List.mem_cons_of_mem _ member)
    cases command with
    | read =>
      obtain ⟨parallel', first, first', events, events', same⟩ := parallel.read static calm
      obtain ⟨parallel'', later, later', last, last', same'⟩ := ih parallel' rest
      refine ⟨parallel'', first ++ later, first' ++ later', ?_, ?_, ?_⟩
      · rw [Client.run_cons, last, events, List.append_assoc]
      · rw [List.filter_cons_of_pos rfl, Client.run_cons, last', events', List.append_assoc]
      · rw [List.map_append, List.map_append, same, same']
    | children namesOnly =>
      have quiet := (parallel.left.step_children static calm namesOnly).2.1
      obtain ⟨parallel', later, later', last, last', same⟩ :=
        ih (parallel.children static calm namesOnly) rest
      refine ⟨parallel', later, later', ?_, last', same⟩
      rw [Client.run_cons, last, quiet]
    | skipRead back =>
      have quiet := (parallel.left.step_skipRead back).2.1
      have quiet' := (parallel.right.step_skipRead back).2.1
      obtain ⟨parallel', later, later', last, last', same⟩ := ih (parallel.skipRead back) rest
      refine ⟨parallel', later, later', ?_, ?_, same⟩
      · rw [Client.run_cons, last, quiet]
      · rw [List.filter_cons_of_pos rfl, Client.run_cons, last', quiet']
    | skip | change => cases ordinary _ List.mem_cons_self

/-- What they are given does not depend on which directories either of them lists. -/
theorem run_both (parallel : Parallel files start client client') (static : files.IsStatic)
    (calm : files.IsCalm) {commands commands' : List Command}
    (ordinary : ∀ command ∈ commands, command.isOrdinary = true)
    (ordinary' : ∀ command ∈ commands', command.isOrdinary = true)
    (same : commands.filter (fun command => !command.isListing) =
      commands'.filter fun command => !command.isListing) :
    ∃ news news', (client.run commands).events = client.events ++ news ∧
      (client'.run commands').events = client'.events ++ news' ∧
      news'.map Entry.unnumbered = news.map Entry.unnumbered := by
  obtain ⟨-, news, middle, events, between, alike⟩ := parallel.run static calm ordinary
  obtain ⟨-, news', middle', events', between', alike'⟩ :=
    (Parallel.refl parallel.right).run static calm ordinary'
  rw [same, between'] at between
  cases List.append_cancel_left between
  exact ⟨news, news', events, events', alike'.symm.trans alike⟩

end Parallel

/-! ## The visit of one directory -/

/-- `Within directory outer pending walk`: the walk is inside the visit of a directory, which will
leave the frames `outer` and the roots `pending`.

* `before`: the directory was just reported.
* `inside`: the walk has entered it, and what was reported since then is something else. -/
inductive Within (directory : Entry) (outer : List Frame) (pending : List Entry) (walk : Walk) :
    Prop
  | before : walk.here? = some directory → walk.frames = outer → walk.pending = pending →
      Within directory outer pending walk
  | inside {inner : List Frame} {rest : List Entry} :
      walk.frames = inner ++ ⟨directory, rest⟩ :: outer → walk.pending = pending →
      (∀ frame ∈ inner, frame.directory.serial ≠ directory.serial) →
      (∀ other, walk.here? = some other → other.serial ≠ directory.serial) →
      Within directory outer pending walk

/-- A walk that has not moved is inside the same visit. -/
theorem Within.unmoved {directory : Entry} {outer : List Frame} {pending : List Entry}
    {walk walk' : Walk} (within : Within directory outer pending walk)
    (here : walk'.here? = walk.here?) (frames : walk'.frames = walk.frames)
    (roots : walk'.pending = walk.pending) : Within directory outer pending walk' := by
  cases within with
  | before at_ framed left =>
    exact .before (here.trans at_) (frames.trans framed) (roots.trans left)
  | inside framed left others away =>
    exact .inside (frames.trans framed) (roots.trans left) others (here ▸ away)

/-- `Leaves directory outer pending event walk`: the visit of the directory ends. -/
structure Leaves (directory : Entry) (outer : List Frame) (pending : List Entry) (event : Entry)
    (walk : Walk) : Prop where
  event : event = finished directory ∨ ∃ error, event = refused directory error
  frames : walk.frames = outer
  pending : walk.pending = pending

/-- Going on inside a directory stays there, or ends its visit. -/
theorem Next.within {walk walk' : Walk} {directory : Entry} {outer inner : List Frame}
    {rest : List Entry} {event : Option Entry} (step : Next walk event walk')
    (framed : walk.frames = inner ++ ⟨directory, rest⟩ :: outer)
    (others : ∀ frame ∈ inner, frame.directory.serial ≠ directory.serial)
    (opening : ∀ entry ∈ walk.awaited, isClosing entry.kind = false)
    (fresh : ∀ entry, event = some entry → isClosing entry.kind = false →
      entry.serial ≠ directory.serial) :
    ∃ entry, event = some entry ∧ (Leaves directory outer walk.pending entry walk' ∨
      entry.serial ≠ directory.serial ∧ Within directory outer walk.pending walk') := by
  have taken : ∀ {entry : Entry} {walk' : Walk}, walk'.current = some entry →
      entry.serial ≠ directory.serial →
      ∀ other, walk'.here? = some other → other.serial ≠ directory.serial := by
    intro entry walk' current differs other at_
    cases current.symm.trans (here?_eq_some.mp at_).1
    exact differs
  cases step with
  | exhausted noFrames => exact absurd (framed.symm.trans noFrames) (by simp)
  | root noFrames => exact absurd (framed.symm.trans noFrames) (by simp)
  | @finish frame frames found done =>
    refine ⟨_, rfl, ?_⟩
    cases inner with
    | nil =>
      -- The frame is that of the directory.
      cases found.symm.trans framed
      exact .inl ⟨.inl rfl, rfl, rfl⟩
    | cons first inner =>
      obtain ⟨rfl, rfl⟩ := List.cons.inj (found.symm.trans framed)
      refine .inr ⟨others frame List.mem_cons_self, .inside rfl rfl ?_ ?_⟩
      · exact fun frame member => others frame (List.mem_cons_of_mem _ member)
      · intro other no
        obtain ⟨⟨⟩, kind⟩ := here?_eq_some.mp no
        cases kind
  | @child frame frames entry later found left =>
    have awaited : entry ∈ walk.awaited := by
      rw [Walk.awaited, found, List.flatMap_cons, left]
      exact List.mem_append_left _ (List.mem_append_left _ List.mem_cons_self)
    have differs := fresh entry rfl (opening entry awaited)
    refine ⟨entry, rfl, .inr ⟨differs, ?_⟩⟩
    cases inner with
    | nil =>
      cases found.symm.trans framed
      exact @Within.inside _ _ _ _ [] later rfl rfl (List.forall_mem_nil _) (taken rfl differs)
    | cons first inner =>
      obtain ⟨rfl, rfl⟩ := List.cons.inj (found.symm.trans framed)
      refine @Within.inside _ _ _ _ ({ frame with pending := later } :: inner) rest rfl rfl ?_
        (taken rfl differs)
      intro other member
      rcases List.mem_cons.mp member with rfl | below
      · exact others frame List.mem_cons_self
      · exact others other (List.mem_cons_of_mem _ below)

/-- Reading inside the visit of a directory stays there, or ends the visit. -/
theorem Steady.within {files : FileSystem} {start : Walk} {client : Client}
    (steady : Steady files start client) {directory : Entry} {outer : List Frame}
    {pending : List Entry} (known : directory.serial ∈ client.numbers)
    (within : Within directory outer pending client.walk) {event : Option Entry} {walk' : Walk}
    {files' : FileSystem} (reads : Reads client.walk files event walk' files') :
    ∃ entry, event = some entry ∧ (Leaves directory outer pending entry walk' ∨
      entry.serial ≠ directory.serial ∧ Within directory outer pending walk') := by
  -- The number of the directory is in use, so that no other visit begins with it.
  have fresh : ∀ entry, event = some entry → isClosing entry.kind = false →
      entry.serial ≠ directory.serial := by
    rintro entry rfl opening same
    have numbered := steady.tracked.numbered.reads reads steady.tracked.unlisted
    have distinct := numbered.nodup.sublist (List.sublist_append_left _ _)
    refine List.disjoint_of_nodup_append distinct known ?_
    simp [opened, opening, same]
  rcases reads.via steady.tracked.numbered.opening with
    ⟨entry, rfl, ⟨other, at_, same⟩, rfl⟩ | ⟨mid, entering, step⟩
  · refine ⟨entry, rfl, ?_⟩
    have serial : entry.serial = other.serial := by
      rcases same with rfl | ⟨_, rfl⟩ <;> rfl
    cases within with
    | before at' framed left =>
      cases at_.symm.trans at'
      exact .inl ⟨same, framed, left⟩
    | inside framed left others away =>
      refine .inr ⟨serial ▸ away other at_, .inside framed left others ?_⟩
      intro next no
      obtain ⟨current, kind⟩ := here?_eq_some.mp no
      cases current
      rcases same with rfl | ⟨_, rfl⟩ <;> cases kind
  · cases within with
    | before at' framed left =>
      rcases entering.frames with ⟨no, -⟩ | ⟨other, entries, at_, same⟩
      · cases no.symm.trans at'
      · cases at_.symm.trans at'
        have framed' : mid.frames = [] ++ ⟨directory, entries⟩ :: outer := by
          rw [same, framed]
          rfl
        have result := step.within framed' (List.forall_mem_nil _) entering.opening fresh
        rwa [entering.pending, left] at result
    | @inside inner rest framed left others away =>
      rcases entering.frames with ⟨-, same⟩ | ⟨other, entries, at_, same⟩
      · have result := step.within (same.trans framed) others entering.opening fresh
        rwa [entering.pending, left] at result
      · have framed' : mid.frames = (⟨other, entries⟩ :: inner) ++ ⟨directory, rest⟩ :: outer := by
          rw [same, framed]
          rfl
        have others' : ∀ frame ∈ (⟨other, entries⟩ : Frame) :: inner,
            frame.directory.serial ≠ directory.serial := by
          intro frame member
          rcases List.mem_cons.mp member with rfl | below
          · exact away other at_
          · exact others frame below
        have result := step.within framed' others' entering.opening fresh
        rwa [entering.pending, left] at result

section Visit

variable {files : FileSystem} {start : Walk} {client : Client}

theorem mem_numbers_of_events {client client' : Client} {news : List Entry} {serial : Nat}
    (events : client'.events = client.events ++ news) (known : serial ∈ client.numbers) :
    serial ∈ client'.numbers := by
  have numbers : client'.numbers =
      (client'.events.filter fun event => !isClosing event.kind).map Entry.serial := rfl
  rw [numbers, events, List.filter_append, List.map_append]
  exact List.mem_append_left _ known

/-- As long as nothing is reported of the directory again, its visit goes on. -/
theorem Steady.run_within (steady : Steady files start client) (static : files.IsStatic)
    (calm : files.IsCalm) {directory : Entry} {outer : List Frame} {pending : List Entry}
    (known : directory.serial ∈ client.numbers)
    (within : Within directory outer pending client.walk) {commands : List Command}
    (ordinary : ∀ command ∈ commands, command.isOrdinary = true) {news : List Entry}
    (events : (client.run commands).events = client.events ++ news)
    (others : ∀ entry ∈ news, entry.serial ≠ directory.serial) :
    Steady files start (client.run commands) ∧
      directory.serial ∈ (client.run commands).numbers ∧
      Within directory outer pending (client.run commands).walk := by
  induction commands generalizing client news with
  | nil => exact ⟨steady, known, within⟩
  | cons command commands ih =>
    have rest : ∀ command ∈ commands, command.isOrdinary = true :=
      fun command member => ordinary command (List.mem_cons_of_mem _ member)
    rw [Client.run_cons] at events ⊢
    cases command with
    | read =>
      obtain ⟨event, walk', _, _, reads, -, -⟩ :=
        (Parallel.refl steady).exists_same_reads static calm
      obtain ⟨steady', moved, given⟩ := steady.step_read reads
      obtain ⟨entry, rfl, stays⟩ := steady.within known within reads
      obtain ⟨-, later, _, events', -, -⟩ := (Parallel.refl steady').run static calm rest
      rw [Option.toList_some] at given
      have whole : entry :: later = news := by
        refine @List.append_cancel_left _ client.events _ _ ?_
        rw [← events, events', given, List.append_assoc]
        rfl
      subst whole
      -- The event is that of another entry, and so it does not end the visit.
      have differs := others entry List.mem_cons_self
      have stays' := stays.resolve_left fun leaves => differs (by
        rcases leaves.event with rfl | ⟨_, rfl⟩ <;> rfl)
      rw [← moved] at stays'
      exact ih steady' (mem_numbers_of_events given known) stays'.2 rest events'
        fun entry member => others entry (List.mem_cons_of_mem _ member)
    | children namesOnly =>
      obtain ⟨steady', quiet, answer, lists⟩ := steady.step_children static calm namesOnly
      obtain ⟨-, frames, roots, -⟩ := lists.unmoved
      rw [← quiet] at events
      exact ih steady' (mem_numbers_of_events (quiet.trans (List.append_nil _).symm) known)
        (within.unmoved lists.here frames roots) rest events others
    | skipRead back =>
      obtain ⟨steady', quiet, moved⟩ := steady.step_skipRead back
      have within' : Within directory outer pending (client.step (.skipRead back)).walk := by
        rw [moved]
        cases client.turns[back]? with
        | none => exact within
        | some turn => exact within.unmoved rfl rfl rfl
      rw [← quiet] at events
      exact ih steady' (mem_numbers_of_events (quiet.trans (List.append_nil _).symm) known) within'
        rest events others
    | skip | change => cases ordinary _ List.mem_cons_self

/-- After the end of the visit of a directory the walk goes on as if it had skipped the
directory. -/
theorem parallel_of_leaves {client' : Client} (left : Steady files start client)
    (right : Steady files start client') {directory event event' : Entry} {outer : List Frame}
    {pending : List Entry} (leaves : Leaves directory outer pending event client.walk)
    (leaves' : Leaves directory outer pending event' client'.walk)
    (current : client.walk.current = some event) (current' : client'.walk.current = some event') :
    Parallel files start client client' := by
  have nowhere : ∀ {event : Entry} {walk : Walk}, Leaves directory outer pending event walk →
      walk.current = some event → walk.here? = none := by
    intro event walk leaves current
    refine here?_of_current current ?_
    rcases leaves.event with rfl | ⟨_, rfl⟩ <;> simp [finished, refused]
  refine ⟨left, right, ?_, ?_, ?_, ?_, ?_, ?_⟩
  · rw [left.tracked.options, right.tracked.options]
  · rw [left.tracked.comparator, right.tracked.comparator]
  · rw [leaves.pending, leaves'.pending]
  · rw [leaves.frames, leaves'.frames]
  · rw [nowhere leaves current, nowhere leaves' current']
  · intro _ _ at_
    cases (nowhere leaves current).symm.trans at_

/-- A client that was given one event has read it. -/
theorem Steady.reads_of_events (steady : Steady files start client) (static : files.IsStatic)
    (calm : files.IsCalm) {entry : Entry} {news : List Entry}
    (given : (client.step .read).events = client.events ++ entry :: news) :
    Steady files start (client.step .read) ∧
      Reads client.walk files (some entry) (client.step .read).walk files := by
  obtain ⟨event, _, _, _, reads, -, -⟩ := (Parallel.refl steady).exists_same_reads static calm
  obtain ⟨steady', moved, events⟩ := steady.step_read reads
  rw [given] at events
  have same := List.append_cancel_left events
  cases event with
  | none => cases same
  | some event =>
    cases same
    rw [← moved] at reads
    exact ⟨steady', reads⟩

/-- What a client is given when it does or does not skip the directory that it reads next. -/
theorem Steady.excision (steady : Steady files start client) (static : files.IsStatic)
    (calm : files.IsCalm) {directory close : Entry} {between : List Entry}
    {inner last : List Command} (kind : directory.kind = .directory)
    (opened : (client.step .read).events = client.events ++ [directory])
    (ordinary : ∀ command ∈ inner, command.isOrdinary = true)
    (during : ((client.step .read).run inner).events = client.events ++ directory :: between)
    (others : ∀ other ∈ between, other.serial ≠ directory.serial)
    (closed : (((client.step .read).run inner).step .read).events =
      client.events ++ directory :: (between ++ [close]))
    (same : close.serial = directory.serial)
    (ordinaryLast : ∀ command ∈ last, command.isOrdinary = true) :
    (close = finished directory ∨ ∃ error, close = refused directory error) ∧
    ∃ later later',
      ((((client.step .read).run inner).step .read).run last).events =
        client.events ++ directory :: (between ++ close :: later) ∧
      ((((client.step .read).step (.skipRead 0)).step .read).run last).events =
        client.events ++ directory :: finished directory :: later' ∧
      later'.map Entry.unnumbered = later.map Entry.unnumbered := by
  -- The directory is read, and is read again only where its visit ends.
  obtain ⟨steady₁, reads₁⟩ := steady.reads_of_events static calm opened
  have at_ : (client.step .read).walk.here? = some directory :=
    here?_eq_some.mpr ⟨reads₁.current, kind⟩
  have known : directory.serial ∈ (client.step .read).numbers := by
    obtain ⟨turn, turns, first, rfl, -⟩ := steady₁.tracked.here directory at_
    refine steady₁.tracked.known _ List.suffix_rfl turn ?_
    rw [first]
    exact List.mem_cons_self
  have during' : ((client.step .read).run inner).events =
      (client.step .read).events ++ between := by
    rw [during, opened, List.append_assoc, List.singleton_append]
  obtain ⟨steady₂, known₂, within⟩ :=
    steady₁.run_within static calm known (.before at_ rfl rfl) ordinary during' others
  have closed' : (((client.step .read).run inner).step .read).events =
      ((client.step .read).run inner).events ++ [close] := by
    rw [closed, during, List.append_assoc, List.cons_append]
  obtain ⟨steady₃, reads₃⟩ := steady₂.reads_of_events static calm closed'
  obtain ⟨_, ⟨⟩, leaves | ⟨differs, -⟩⟩ := steady₂.within known₂ within reads₃
  case inr => exact absurd same differs
  refine ⟨leaves.event, ?_⟩
  -- The same directory is skipped.
  obtain ⟨steady₄, quiet, skipped⟩ := steady₁.step_skipRead 0
  obtain ⟨turn, turns, first, event, -⟩ := steady₁.tracked.here directory at_
  rw [first, List.getElem?_cons_zero] at skipped
  dsimp only at skipped
  rw [event] at skipped
  have reads₅ : Reads ((client.step .read).step (.skipRead 0)).walk files
      (some (finished directory))
      (((client.step .read).step (.skipRead 0)).walk.left (finished directory)) files := by
    refine .pass ?_ ?_
    · rw [skipped]
      exact at_
    · rw [skipped]
      exact List.mem_cons_self
  obtain ⟨steady₅, moved, finish⟩ := steady₄.step_read reads₅
  have leaves' : Leaves directory (client.step .read).walk.frames (client.step .read).walk.pending
      (finished directory) (((client.step .read).step (.skipRead 0)).step .read).walk := by
    rw [moved, skipped]
    exact ⟨.inl rfl, rfl, rfl⟩
  -- From here on the two clients are at the same place.
  have parallel := parallel_of_leaves steady₃ steady₅ leaves leaves' reads₃.current (by
    rw [moved]
    rfl)
  obtain ⟨later, later', events, events', alike⟩ :=
    parallel.run_both static calm ordinaryLast ordinaryLast rfl
  refine ⟨later, later', ?_, ?_, alike⟩
  · rw [events, closed]
    simp
  · rw [events', finish, quiet, opened]
    simp

/-- A client at its start over a static file system. -/
theorem Steady.ofStart {serial : Nat} {paths : List String} {options : WalkOptions}
    {comparator : Option Comparator} (static : files.IsStatic)
    (started : Client.start? files serial paths options comparator = some client) :
    Steady files client.walk client := by
  obtain ⟨starts, wears, begun⟩ := Client.start?_eq_some started
  have tracked : Client.Tracked client.walk client := by
    have tracked : Client.Tracked client.walk (.begin client.walk client.files) := .begin starts
    rwa [← begun] at tracked
  have nothing : client.walk.skipped = [] := by
    rw [starts.fresh]
  refine ⟨tracked, wears.eq_of_isStatic static, ?_, ?_, ?_⟩
  · rw [begun]
    rfl
  · rw [nothing]
    exact List.forall_mem_nil _
  · intro _ _ at_
    cases starts.nowhere.symm.trans at_

end Visit

/-! ## Listing and skipping -/

/-- What can be seen of an event: its path, its level, its kind and the number of its error. -/
def Entry.observed (entry : Entry) : String × Int × Kind × Int :=
  (entry.path, entry.level, entry.kind, entry.errorCode)

theorem map_observed_of_unnumbered {entries entries' : List Entry}
    (same : entries'.map Entry.unnumbered = entries.map Entry.unnumbered) :
    entries'.map Entry.observed = entries.map Entry.observed := by
  have blind : ∀ entries : List Entry,
      entries.map Entry.observed = (entries.map Entry.unnumbered).map Entry.observed := by
    intro entries
    rw [List.map_map]
    rfl
  rw [blind, blind entries, same]

/-- Over a file system that does not change, what a client can see of the events of its walk depends
only on what it skips.

1. Listing directories does not change it, wherever and however often it is done.
2. Suppose that `first` and one more event lead to a directory, and after `inner` the next event is
the next one of the same directory. Then this event ends its visit. If the directory is skipped
instead, what comes between is left out, the directory is reported as finished, and `last` sees the
same as before. -/
theorem events_of_skips {files : FileSystem} {serial : Nat} {paths : List String}
    {options : WalkOptions} {comparator : Option Comparator} {client : Client}
    (static : files.IsStatic) (calm : files.IsCalm)
    (started : Client.start? files serial paths options comparator = some client) :
    (∀ commands commands' : List Command,
      (∀ command ∈ commands, command.isOrdinary = true) →
      (∀ command ∈ commands', command.isOrdinary = true) →
      commands.filter (fun command => !command.isListing) =
        commands'.filter (fun command => !command.isListing) →
      (client.run commands).events.map Entry.observed =
        (client.run commands').events.map Entry.observed) ∧
    ∀ (first inner last : List Command) (directory close : Entry) (between : List Entry),
      (∀ command ∈ first ++ inner ++ last, command.isOrdinary = true) →
      directory.kind = .directory →
      (client.run (first ++ [.read])).events = (client.run first).events ++ [directory] →
      (client.run (first ++ .read :: inner)).events =
        (client.run first).events ++ directory :: between →
      (∀ other ∈ between, other.serial ≠ directory.serial) →
      (client.run (first ++ .read :: (inner ++ [.read]))).events =
        (client.run first).events ++ directory :: (between ++ [close]) →
      close.serial = directory.serial →
      (close = finished directory ∨ ∃ error, close = refused directory error) ∧
      ∃ later later',
        (client.run (first ++ .read :: (inner ++ .read :: last))).events =
          (client.run first).events ++ directory :: (between ++ close :: later) ∧
        (client.run (first ++ .read :: .skipRead 0 :: .read :: last)).events =
          (client.run first).events ++ directory :: finished directory :: later' ∧
        later'.map Entry.observed = later.map Entry.observed := by
  have steady := Steady.ofStart static started
  refine ⟨fun commands commands' ordinary ordinary' same => ?_, ?_⟩
  · obtain ⟨news, news', events, events', alike⟩ :=
      (Parallel.refl steady).run_both static calm ordinary ordinary' same
    rw [events, events', List.map_append, List.map_append, map_observed_of_unnumbered alike]
  · intro first inner last directory close between ordinary kind opened during others closed same
    have ordinaryFirst : ∀ command ∈ first, command.isOrdinary = true := fun command member =>
      ordinary command (List.mem_append_left _ (List.mem_append_left _ member))
    have ordinaryInner : ∀ command ∈ inner, command.isOrdinary = true := fun command member =>
      ordinary command (List.mem_append_left _ (List.mem_append_right _ member))
    have ordinaryLast : ∀ command ∈ last, command.isOrdinary = true := fun command member =>
      ordinary command (List.mem_append_right _ member)
    have atFirst := ((Parallel.refl steady).run static calm ordinaryFirst).1.left
    simp only [Client.run_append, Client.run_cons, Client.run_nil] at opened during closed ⊢
    generalize client.run first = before at *
    obtain ⟨ends, later, later', events, events', alike⟩ := atFirst.excision static calm kind opened
      ordinaryInner during others closed same ordinaryLast
    exact ⟨ends, later, later', events, events', map_observed_of_unnumbered alike⟩

/-- Listing `d` before walking through it changes nothing, and skipping it takes out what it
holds. -/
theorem events_of_skips_sample :
    ∃ client, Client.start? Client.sampleFiles 0 ["d"] {} none = some client ∧
      (client.run [.children true, .read, .children false, .read]).events.map Entry.observed =
        (client.run [.read, .read]).events.map Entry.observed ∧
      ∃ directory close between later later',
        Entry.observed directory = ("d", 0, .directory, 0) ∧
        between.map Entry.observed = [("d/x", 1, .file, 0), ("d/l", 1, .symlink, 0),
          ("d/e", 1, .directory, 0), ("d/e", 1, .finished, 0)] ∧
        (client.run [.read, .children false, .read, .read, .read, .read, .read, .read]).events =
          directory :: (between ++ close :: later) ∧
        (client.run [.read, .skipRead 0, .read, .read]).events =
          directory :: finished directory :: later' ∧
        later'.map Entry.observed = later.map Entry.observed := by
  let directory (client : Client) := (client.run [.read]).events.headD default
  let between (client : Client) := ((client.run (List.replicate 5 .read)).events.drop 1)
  let close (client : Client) := (client.run (List.replicate 6 .read)).events.getLastD default
  have sample : (Client.start? Client.sampleFiles 0 ["d"] {} none).any (fun client =>
      client.events = [] ∧
      Entry.observed (directory client) = ("d", 0, .directory, 0) ∧
      (between client).map Entry.observed = [("d/x", 1, .file, 0), ("d/l", 1, .symlink, 0),
          ("d/e", 1, .directory, 0), ("d/e", 1, .finished, 0)] ∧
      (client.run [.read]).events = [directory client] ∧
      (client.run [.read, .children false, .read, .read, .read, .read]).events =
        directory client :: between client ∧
      (∀ other ∈ between client, other.serial ≠ (directory client).serial) ∧
      (client.run [.read, .children false, .read, .read, .read, .read, .read]).events =
        directory client :: (between client ++ [close client]) ∧
      (close client).serial = (directory client).serial) = true := by
    decide +kernel
  obtain ⟨client, started, sample⟩ := Option.any_eq_true _ _ |>.mp sample
  simp only [decide_eq_true_eq] at sample
  obtain ⟨fresh, seen, found, opened, during, others, closed, same⟩ := sample
  have kind : (directory client).kind = .directory := congrArg (·.2.2.1) seen
  obtain ⟨listings, skips⟩ :=
    events_of_skips Client.isStatic_sampleFiles Client.isCalm_sampleFiles started
  have first : ∀ {events given : List Entry}, given = events →
      given = (client.run []).events ++ events := by
    intro events given same
    rw [Client.run_nil, fresh, same, List.nil_append]
  obtain ⟨-, later, later', longer, shorter, alike⟩ :=
    skips [] [.children false, .read, .read, .read, .read] [.read] (directory client)
      (close client) (between client) (by decide) kind (first opened) (first during) others
      (first closed) same
  rw [Client.run_nil, fresh] at longer shorter
  exact ⟨client, started, listings _ _ (by decide) (by decide) rfl, directory client, close client,
    between client, later, later', seen, found, longer, shorter, alike⟩

end DirList.Walk
