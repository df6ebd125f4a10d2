import DirList.Proofs.Sorting.Stability
import DirList.Proofs.Walk.Client
import DirList.Proofs.Walk.Completeness

/-!
# The shape of a walk

The events of a walk are well bracketed: a directory is opened by its first event and closed by its
last one, and in between come the visits of its entries, one after another. Whatever a client does,
and however the file system changes meanwhile, the events it was given can be completed to such a
walk.

Results:
1. `Answers.exists_sorted`: what is listed in a directory are the scanned entries, sorted.
2. `Walked.append`: visits come one after another.
3. `exists_rest`: what was begun can be completed.
4. `Bracketed.step`: every command keeps the shape.
5. `events_wellBracketed`: the shape of the events of any client.
-/

namespace DirList.Walk

open FileSystem

/-! ## Well bracketed turns -/

/-- The directory answered so when it was listed in a file system. -/
def Answers (options : WalkOptions) (comparator : Option Comparator) (directory : Entry)
    (files : FileSystem) (answer : Except SystemError (List Entry)) : Prop :=
  ∃ serial files',
    (readDirectory options comparator false directory serial).run.run files = (.ok answer, files')

/-- `Sorted comparator found entries`: the entries are those that were found, sorted by the
comparator.

* `perm`: sorting changes their order only.
* `unsorted`: without a comparator, it does not even change that.
* `ascending`: where the comparator gives an order, no entry comes before one that is to come before
  it, and of two that are not told apart, the one that was found first comes first. -/
structure Sorted (comparator : Option Comparator) (found entries : List Entry) : Prop where
  perm : entries.Perm found
  unsorted : comparator = none → entries = found
  ascending : ∀ (given : Comparator) (order : Entry → Entry → Ordering), comparator = some given →
    (∀ a b, given.compare? a b = .ok (order a b)) →
    Sorting.IsOrder (fun a b => order a b == .lt) →
    ∀ lay : Entry → Entry → Prop, found.Pairwise lay →
      entries.Pairwise (Sorting.Ordered (fun a b => order a b == .lt) lay)

theorem sorted_of_sortEntries {comparator : Option Comparator} {found entries : List Entry}
    (success : sortEntries comparator found = .ok entries) : Sorted comparator found entries := by
  refine ⟨sortEntries_perm success, ?_, ?_⟩
  · rintro rfl
    exact (Except.ok.inj success).symm
  · rintro given order rfl compares isOrder lay lies
    have sorted : sortEntriesBy order found = entries := by
      cases given with
      | field order' | listing order' | other order' =>
        have same : ∀ a b, _ = order a b := fun a b => Except.ok.inj (compares a b)
        rw [← funext fun a => funext (same a)]
        exact Except.ok.inj success
      | failing error => cases compares default default
    rw [← sorted]
    exact sortBy_pairwise isOrder lies

/-- The entries of a directory are those that a scan finds in it, sorted. -/
theorem Answers.exists_sorted {options : WalkOptions} {comparator : Option Comparator}
    {directory : Entry} {files : FileSystem} {entries : List Entry}
    (answers : Answers options comparator directory files (.ok entries)) :
    ∃ names found, ((Call.scan directory.accessPath).run.run files).1 = .ok names ∧
      found.map Entry.name =
        (if options.withDots then [".", ".."] else []) ++ names.map Prod.fst ∧
      Sorted comparator found entries := by
  obtain ⟨serial, files', read⟩ := answers
  obtain ⟨answer, scanned, scans, read⟩ := Settles.of_bind read
  cases answer with
  | error => cases read
  | ok names =>
    obtain ⟨children, middle, lists, read⟩ := Settles.of_bind read
    obtain ⟨dots, last, dotted, read⟩ := Settles.of_bind read
    have named := ((yields_readChildren options false directory serial names scanned .refl).2
      children (congrArg Prod.fst lists)).names
    have named' := (yields_names_readDots options false directory _ middle .refl).2 dots
      (congrArg Prod.fst dotted)
    refine ⟨names, dots ++ children, congrArg Prod.fst (settles_attempt scans), ?_, ?_⟩
    · rw [List.map_append, named, named']
    · exact sorted_of_sortEntries (Except.ok.inj (congrArg Prod.fst read))

/-- The entries that are visited in the directory of the turn `first`, where `second` is the turn
after it: those that the client listed there last, or those of a new listing. -/
def Contents (options : WalkOptions) (comparator : Option Comparator) (first second : Turn)
    (entries : List Entry) : Prop :=
  (first.listing = some entries ∧
    ∃ files, Answers options comparator first.event files (.ok entries)) ∨
  (first.listing = none ∧ Answers options comparator first.event second.files (.ok entries))

/-- `Walked options comparator entries turns`: the turns are the visits of the entries, one after
another.

* `single`: what is no directory has one event.
* `skipped`, `unreadable`: a directory that is skipped, or cannot be listed, is closed at once.
* `walked`: the visits of the contents of a directory stand between its two events. -/
inductive Walked (options : WalkOptions) (comparator : Option Comparator) :
    List Entry → List Turn → Prop
  | nil : Walked options comparator [] []
  | single {turn : Turn} {entries : List Entry} {turns : List Turn} :
      turn.event.kind ≠ .directory →
      Walked options comparator entries turns →
      Walked options comparator (turn.event :: entries) (turn :: turns)
  | skipped {first last : Turn} {entries : List Entry} {turns : List Turn} :
      first.event.kind = .directory →
      first.event.serial ∈ last.skipped →
      last.event = finished first.event →
      Walked options comparator entries turns →
      Walked options comparator (first.event :: entries) (first :: last :: turns)
  | unreadable {first last : Turn} {error : SystemError} {entries : List Entry}
      {turns : List Turn} :
      first.event.kind = .directory →
      first.event.serial ∉ last.skipped →
      first.listing = none →
      Answers options comparator first.event last.files (.error error) →
      last.event = refused first.event error →
      Walked options comparator entries turns →
      Walked options comparator (first.event :: entries) (first :: last :: turns)
  | walked {first second last : Turn} {contents entries : List Entry} {inner turns : List Turn} :
      first.event.kind = .directory →
      (inner ++ [last]).head? = some second →
      first.event.serial ∉ second.skipped →
      Contents options comparator first second contents →
      (∀ entry ∈ contents, first.event.IsChildOf entry) →
      Walked options comparator contents inner →
      last.event = finished first.event →
      Walked options comparator entries turns →
      Walked options comparator (first.event :: entries) (first :: (inner ++ last :: turns))

/-- What completes the visits of the directories in `frames` and of the roots left. -/
def Rest (options : WalkOptions) (comparator : Option Comparator) (pending : List Entry) :
    List Frame → List Turn → Prop
  | [], future => Walked options comparator pending future
  | frame :: frames, future => ∃ inner last later, future = inner ++ last :: later ∧
      Walked options comparator frame.pending inner ∧ last.event = finished frame.directory ∧
      Rest options comparator pending frames later

section Shapes

variable {options : WalkOptions} {comparator : Option Comparator}

/-- The visit of one entry can be put in front of others. -/
theorem Walked.append {entry : Entry} {entries : List Entry} {visit turns : List Turn}
    (first : Walked options comparator [entry] visit)
    (others : Walked options comparator entries turns) :
    Walked options comparator (entry :: entries) (visit ++ turns) := by
  cases first with
  | single kind rest =>
    cases rest
    exact .single kind others
  | skipped kind skip closed rest =>
    cases rest
    exact .skipped kind skip closed others
  | unreadable kind noSkip unlisted answers closed rest =>
    cases rest
    exact .unreadable kind noSkip unlisted answers closed others
  | walked kind second noSkip contents children inner closed rest =>
    cases rest
    have whole := Walked.walked kind second noSkip contents children inner closed others
    simpa using whole

theorem exists_walked (entries : List Entry) :
    ∃ turns, Walked options comparator entries turns := by
  induction entries with
  | nil => exact ⟨[], .nil⟩
  | cons entry entries ih =>
    obtain ⟨turns, walked⟩ := ih
    by_cases directory : entry.kind = .directory
    · exact ⟨_, @Walked.skipped _ _ ⟨default, [], entry, none⟩
        ⟨default, [entry.serial], finished entry, none⟩ _ _ directory List.mem_cons_self rfl walked⟩
    · exact ⟨_, @Walked.single _ _ ⟨default, [], entry, none⟩ _ _ directory walked⟩

/-- What was begun can be completed. -/
theorem exists_rest (pending : List Entry) (frames : List Frame) :
    ∃ future, Rest options comparator pending frames future := by
  induction frames with
  | nil => exact exists_walked pending
  | cons frame frames ih =>
    obtain ⟨later, rest⟩ := ih
    obtain ⟨inner, walked⟩ := @exists_walked options comparator frame.pending
    exact ⟨_, inner, ⟨default, [], finished frame.directory, none⟩, later, rfl, walked, rfl, rest⟩

/-- Going on takes up what is left: the visit of an awaited entry, or the end of a visit. -/
theorem Next.rest {walk walk' : Walk} {event : Entry} (step : Next walk (some event) walk') :
    (∀ visit future, Walked options comparator [event] visit →
      Rest options comparator walk'.pending walk'.frames future →
      Rest options comparator walk.pending walk.frames (visit ++ future)) ∨
    ∃ directory, event = finished directory ∧ ∀ turn future, turn.event = event →
      Rest options comparator walk'.pending walk'.frames future →
      Rest options comparator walk.pending walk.frames (turn :: future) := by
  cases step with
  | root noFrames pending =>
    left
    intro visit future walked rest
    dsimp only at rest
    rw [noFrames] at rest
    rw [noFrames, pending]
    exact walked.append rest
  | finish framed done =>
    right
    refine ⟨_, rfl, fun turn future same rest => ?_⟩
    rw [framed]
    refine ⟨[], turn, future, rfl, ?_, same, rest⟩
    rw [done]
    exact .nil
  | child framed pending =>
    left
    rintro visit future walked ⟨inner, last, later, rfl, walked', closed, rest⟩
    rw [framed]
    refine ⟨visit ++ inner, last, later, (List.append_assoc _ _ _).symm, ?_, closed, rest⟩
    rw [pending]
    exact walked.append walked'

/-- `Continued options comparator roots past turn walk`: what completes the walk completes the turns
`past` and `turn`.

* `other`: nothing more belongs to an event that is not the first one of a directory.
* `directory`: the visit of a directory comes before what completes the walk. -/
structure Continued (options : WalkOptions) (comparator : Option Comparator) (roots : List Entry)
    (past : List Turn) (turn : Turn) (walk : Walk) : Prop where
  other : turn.event.kind ≠ .directory → ∀ future,
    Rest options comparator walk.pending walk.frames future →
    Walked options comparator roots (past ++ turn :: future)
  directory : turn.event.kind = .directory → ∀ listing visit future,
    Walked options comparator [turn.event] ({ turn with listing } :: visit) →
    Rest options comparator walk.pending walk.frames future →
    Walked options comparator roots (past ++ { turn with listing } :: (visit ++ future))

/-- What completes a walk in a state where it goes on completes it after the next event. -/
theorem Next.completes {walk walk' : Walk} {event : Entry} {roots : List Entry} {past : List Turn}
    {files : FileSystem} {skipped : List Nat} (step : Next walk (some event) walk')
    (completes : ∀ future,
      (∀ next, future.head? = some next → next.files = files ∧ next.skipped = skipped) →
      Rest options comparator walk.pending walk.frames future →
      Walked options comparator roots (past ++ future)) :
    Continued options comparator roots past ⟨files, skipped, event, none⟩ walk' := by
  have headed : ∀ (listing : Option (List Entry)) (future : List Turn) (next : Turn),
      (⟨files, skipped, event, listing⟩ :: future).head? = some next →
      next.files = files ∧ next.skipped = skipped := by
    rintro listing future next ⟨⟩
    exact ⟨rfl, rfl⟩
  rcases @Next.rest options comparator _ _ _ step with taken | ⟨_, rfl, closed⟩
  · refine ⟨fun kind future rest => ?_, fun _ listing visit future visited rest => ?_⟩
    · have visit : Walked options comparator [event] [⟨files, skipped, event, none⟩] :=
        @Walked.single _ _ ⟨files, skipped, event, none⟩ _ _ kind .nil
      exact completes _ (headed none future) (taken _ future visit rest)
    · exact completes _ (headed listing _) (taken _ future visited rest)
  · refine ⟨fun _ future rest => ?_, fun no => nomatch no⟩
    exact completes _ (headed none future) (closed _ future rfl rest)

end Shapes

/-! ## Clients -/

/-- What no entry is read as. -/
def Reported (entry : Entry) : Prop :=
  entry.kind ≠ .finished ∧ entry.kind ≠ .unreadable ∧ entry.kind ≠ .error

/-- The entries were listed in the directory at some time. -/
def Listed (start : Walk) (directory : Entry) (entries : List Entry) : Prop :=
  ∃ files, Answers start.options start.comparator directory files (.ok entries)

theorem Answers.listing {options : WalkOptions} {comparator : Option Comparator}
    {directory : Entry} {files : FileSystem} {entries : List Entry}
    (answers : Answers options comparator directory files (.ok entries)) :
    ∃ serial, Listing files options.logical directory serial entries := by
  obtain ⟨serial, files', ran⟩ := answers
  have spec := (yields_readDirectory options comparator false directory serial files .refl).2
  exact ⟨serial, spec (.ok entries) (congrArg Prod.fst ran) entries rfl⟩

theorem Listed.reported {start : Walk} {directory : Entry} {entries : List Entry}
    (listed : Listed start directory entries) : ∀ entry ∈ entries, Reported entry := by
  obtain ⟨_, answers⟩ := listed
  obtain ⟨_, listing⟩ := answers.listing
  exact fun entry member => (listing.found entry member).kind_ne

/-- `Bracketed start client`: the events that the client was given, and what completes the walk from
here on, are well bracketed. At a directory just reported its visit is part of what is to come. -/
structure Bracketed (start : Walk) (client : Client) : Prop where
  tracked : Client.Tracked start client
  holds : Holds Reported (Listed start) client.walk
  events : ∀ turn ∈ client.turns, turn.event.kind ≠ .error
  away : client.walk.here? = none → ∀ future,
    Rest start.options start.comparator client.walk.pending client.walk.frames future →
    Walked start.options start.comparator start.roots (client.turns.reverse ++ future)
  here : ∀ directory turn turns, client.walk.here? = some directory →
    client.turns = turn :: turns → ∀ listing visit future,
    Walked start.options start.comparator [directory] ({ turn with listing } :: visit) →
    Rest start.options start.comparator client.walk.pending client.walk.frames future →
    Walked start.options start.comparator start.roots
      (turns.reverse ++ { turn with listing } :: (visit ++ future))

namespace Bracketed

variable {start : Walk} {client : Client}

/-- At a directory just reported, its visit and what is left complete the walk. -/
theorem visited (bracketed : Bracketed start client) {directory : Entry} {turn : Turn}
    {turns visit future : List Turn} (at_ : client.walk.here? = some directory)
    (last : client.turns = turn :: turns)
    (walked : Walked start.options start.comparator [directory] (turn :: visit))
    (rest : Rest start.options start.comparator client.walk.pending client.walk.frames future) :
    Walked start.options start.comparator start.roots
      (client.turns.reverse ++ (visit ++ future)) := by
  have whole := bracketed.here directory turn turns at_ last turn.listing visit future walked rest
  rw [last, List.reverse_cons, List.append_assoc]
  exact whole

/-- What the walk is told about a directory is an answer to listing it. -/
theorem answers (bracketed : Bracketed start client) {directory : Entry}
    {answer : Except SystemError (List Entry)} {files' : FileSystem}
    (given : client.walk.listing false directory client.files = (.ok answer, files')) :
    Answers start.options start.comparator directory client.files answer := by
  refine ⟨client.walk.nextSerial, files', ?_⟩
  rw [← bracketed.tracked.options, ← bracketed.tracked.comparator]
  exact given

/-- What completes the walk once it has entered the directory just reported. -/
theorem entering (bracketed : Bracketed start client) {directory : Entry} {entries : List Entry}
    {count : Nat} (at_ : client.walk.here? = some directory)
    (noSkip : directory.serial ∉ client.walk.skipped)
    (contents : ∀ turn turns, client.turns = turn :: turns → ∀ second : Turn,
      second.files = client.files →
      Contents start.options start.comparator turn second entries) :
    ∀ future,
      (∀ next, future.head? = some next →
        next.files = client.files ∧ next.skipped = client.walk.skipped) →
      Rest start.options start.comparator (client.walk.entered directory entries count).pending
        (client.walk.entered directory entries count).frames future →
      Walked start.options start.comparator start.roots (client.turns.reverse ++ future) := by
  rintro future headed ⟨inner, last, later, rfl, walked, closed, rest⟩
  obtain ⟨turn, turns, first, rfl, -⟩ := bracketed.tracked.here directory at_
  -- The turn after the directory may be that of its end.
  obtain ⟨second, next⟩ : ∃ second, (inner ++ [last]).head? = some second := by
    cases inner with
    | nil => exact ⟨_, rfl⟩
    | cons turn _ => exact ⟨turn, rfl⟩
  obtain ⟨sameFiles, sameSkipped⟩ := headed second (by
    cases inner with
    | nil => exact next
    | cons turn _ => exact next)
  have given := contents turn turns first second sameFiles
  have children : ∀ entry ∈ entries, turn.event.IsChildOf entry := by
    have listed : Listed start turn.event entries := by
      rcases given with ⟨_, files, answers⟩ | ⟨_, answers⟩
      · exact ⟨files, answers⟩
      · exact ⟨second.files, answers⟩
    obtain ⟨_, answers⟩ := listed
    obtain ⟨_, listing⟩ := answers.listing
    exact listing.child
  have visit : Walked start.options start.comparator [turn.event] (turn :: (inner ++ [last])) :=
    .walked (here?_eq_some.mp at_).2 next (sameSkipped ▸ noSkip) given children walked closed .nil
  have whole := bracketed.visited at_ first visit rest
  rwa [List.append_assoc] at whole

/-- The shape is kept by an event after which the walk can be completed. -/
theorem continued (bracketed : Bracketed start client) {event : Entry} {walk' : Walk}
    {files' : FileSystem} (reads : Reads client.walk client.files (some event) walk' files')
    (completes : Continued start.options start.comparator start.roots client.turns.reverse
      ⟨client.files, client.walk.skipped, event, none⟩ walk') :
    Bracketed start { client with
      files := files', walk := walk'
      turns := ⟨client.files, client.walk.skipped, event, none⟩ :: client.turns } := by
  obtain ⟨holds, known⟩ := bracketed.holds.reads reads
    (fun _ _ _ given => ⟨client.files, bracketed.answers given⟩)
    (fun _ _ _ _ listed => listed.reported)
  refine ⟨bracketed.tracked.read reads, holds, ?_, ?_, ?_⟩
  · intro turn member
    rcases List.mem_cons.mp member with rfl | before
    · rcases known event rfl with reported | ⟨directory, kind, _, rfl | ⟨_, rfl⟩⟩
      · exact reported.2.2
      · exact nofun
      · exact nofun
    · exact bracketed.events turn before
  · intro nowhere future rest
    have kind : event.kind ≠ .directory := fun kind =>
      nomatch nowhere.symm.trans (here?_eq_some.mpr ⟨reads.current, kind⟩)
    dsimp only at rest ⊢
    rw [List.reverse_cons, List.append_assoc]
    exact completes.other kind future rest
  · rintro directory turn turns at_ ⟨⟩ listing visit future visited rest
    obtain ⟨current, kind⟩ := here?_eq_some.mp at_
    cases reads.current.symm.trans current
    exact completes.directory kind listing visit future visited rest

/-- The walk can be completed after the visit of the directory just reported ends at once. -/
theorem closes (bracketed : Bracketed start client) {directory event : Entry} {walk' : Walk}
    (at_ : client.walk.here? = some directory) (kind : event.kind ≠ .directory)
    (frames : walk'.frames = client.walk.frames) (pending : walk'.pending = client.walk.pending)
    (visit : ∀ turn, turn.event = directory → turn.listing = client.walk.listed →
      Walked start.options start.comparator [turn.event]
        [turn, ⟨client.files, client.walk.skipped, event, none⟩]) :
    Continued start.options start.comparator start.roots client.turns.reverse
      ⟨client.files, client.walk.skipped, event, none⟩ walk' := by
  obtain ⟨turn, turns, first, rfl, listing⟩ := bracketed.tracked.here directory at_
  refine ⟨fun _ future rest => ?_, fun no => absurd no kind⟩
  rw [frames, pending] at rest
  exact bracketed.visited at_ first (visit turn rfl listing) rest

/-- An event keeps the shape. -/
theorem read (bracketed : Bracketed start client) {event : Entry} {walk' : Walk}
    {files' : FileSystem} (reads : Reads client.walk client.files (some event) walk' files') :
    Bracketed start { client with
      files := files', walk := walk'
      turns := ⟨client.files, client.walk.skipped, event, none⟩ :: client.turns } := by
  refine bracketed.continued reads ?_
  generalize same : some event = given at reads
  cases reads with
  | go nowhere =>
    have step := next_advance client.walk.begun
    rw [← same] at step
    exact step.completes fun future _ rest => bracketed.away nowhere future rest
  | @pass directory at_ skip =>
    cases same
    refine bracketed.closes at_ nofun rfl rfl ?_
    rintro turn rfl -
    exact .skipped (here?_eq_some.mp at_).2 skip rfl .nil
  | @refuse directory error _ at_ noSkip unlisted given =>
    cases same
    refine bracketed.closes at_ nofun rfl rfl ?_
    rintro turn rfl listing
    exact .unreadable (here?_eq_some.mp at_).2 noSkip (listing.trans unlisted)
      (bracketed.answers given) rfl .nil
  | @resume directory entries at_ noSkip listed =>
    have step := next_advance (client.walk.entered directory entries 0)
    rw [← same] at step
    refine step.completes (bracketed.entering at_ noSkip fun turn turns first second _ => ?_)
    obtain ⟨rfl, listing⟩ := bracketed.tracked.first at_ first
    obtain ⟨_, at', said⟩ := bracketed.holds.listed entries listed
    cases at_.symm.trans at'
    exact .inl ⟨listing.trans listed, said⟩
  | @enter directory entries _ at_ noSkip unlisted given =>
    have step := next_advance (client.walk.entered directory entries entries.length)
    rw [← same] at step
    refine step.completes (bracketed.entering at_ noSkip fun turn turns first second files => ?_)
    obtain ⟨rfl, listing⟩ := bracketed.tracked.first at_ first
    refine .inr ⟨listing.trans unlisted, ?_⟩
    rw [files]
    exact bracketed.answers given

/-- Every command keeps the shape. -/
theorem step (bracketed : Bracketed start client) (command : Command) :
    Bracketed start (client.step command) := by
  by_cases stopped : client.interrupted = true
  · rw [Client.step_of_interrupted stopped]
    exact bracketed
  have moves := Client.step_cases bracketed.tracked.isOpen (by simpa using stopped) command
  have tracked := bracketed.tracked.step command
  generalize client.step command = client' at moves tracked
  cases moves with
  | stop | change =>
    exact ⟨tracked, bracketed.holds, bracketed.events, bracketed.away, bracketed.here⟩
  | skipNothing => exact bracketed
  | skip | skipRead =>
    have holds := bracketed.holds
    exact ⟨tracked, ⟨holds.roots, holds.awaited, holds.here, holds.frames, holds.listed⟩,
      bracketed.events, bracketed.away, bracketed.here⟩
  | read reads => exact bracketed.read reads
  | @exhausted walk' files' reads =>
    obtain ⟨holds, -⟩ := bracketed.holds.reads reads
      (fun _ _ _ given => ⟨client.files, bracketed.answers given⟩)
      (fun _ _ _ _ listed => listed.reported)
    obtain ⟨nowhere, frames, pending, -, -, nothing⟩ := reads.exhausted
    refine ⟨tracked, holds, bracketed.events, fun _ future rest => ?_, fun directory _ _ at_ => ?_⟩
    · dsimp only at rest
      rw [frames, pending] at rest
      exact bracketed.away nowhere future rest
    · cases nothing.symm.trans (here?_eq_some.mp at_).1
  | @list namesOnly answer walk' files' lists =>
    have holds := bracketed.holds.answers lists
      (fun _ _ _ given => ⟨client.files, bracketed.answers given⟩)
    obtain ⟨-, frames, pending, -⟩ := lists.unmoved
    have here := lists.here
    refine ⟨tracked, holds, ?_, fun nowhere future rest => ?_, ?_⟩
    · intro turn member
      obtain ⟨turn', member', same⟩ := Client.mem_heard.mp ⟨turn, member, rfl⟩
      rw [← same]
      exact bracketed.events turn' member'
    · dsimp only at nowhere rest ⊢
      rw [here] at nowhere
      rw [frames, pending] at rest
      rw [bracketed.tracked.heard_of_away nowhere lists]
      exact bracketed.away nowhere future rest
    · -- The shape allows for any listing of the last turn, and nothing else of it has changed.
      intro directory turn turns at_ first listing visit future visited rest
      dsimp only at at_ first rest
      rw [here] at at_
      rw [frames, pending] at rest
      cases before : client.turns with
      | nil =>
        rw [before] at first
        cases first
      | cons turn' turns' =>
        rw [before] at first
        cases first
        exact bracketed.here directory _ _ at_ before listing visit future visited rest

theorem begin {base files : FileSystem} {serial : Nat} {paths : List String}
    {options : WalkOptions} {comparator : Option Comparator}
    (starts : Starts base serial paths options comparator start) :
    Bracketed start (.begin start files) := by
  have reported : ∀ entry ∈ start.roots, Reported entry :=
    fun entry member => (starts.roots.found entry member).kind_ne
  have pending : start.pending = start.roots := by
    rw [starts.fresh]
  refine ⟨.begin starts, .ofStarts starts reported, (fun _ no => nomatch no), ?_, ?_⟩
  · intro _ future rest
    change Rest _ _ start.pending start.frames future at rest
    rw [starts.noFrames, pending] at rest
    exact rest
  · exact fun _ _ _ no => nomatch starts.nowhere.symm.trans no

theorem run (bracketed : Bracketed start client) (commands : List Command) :
    Bracketed start (client.run commands) :=
  Client.run_keeps bracketed fun _ command _ bracketed => bracketed.step command

/-- The events can be completed to a walk. -/
theorem exists_future (bracketed : Bracketed start client) :
    ∃ future, Walked start.options start.comparator start.roots
      (client.turns.reverse ++ future) := by
  obtain ⟨future, rest⟩ := @exists_rest start.options start.comparator client.walk.pending
    client.walk.frames
  cases at_ : client.walk.here? with
  | none => exact ⟨future, bracketed.away at_ future rest⟩
  | some directory =>
    obtain ⟨turn, turns, first, rfl, -⟩ := bracketed.tracked.here directory at_
    -- The directory is closed at once by having it skipped.
    have visit : Walked start.options start.comparator [turn.event]
        (turn :: [⟨default, [turn.event.serial], finished turn.event, none⟩]) :=
      .skipped (here?_eq_some.mp at_).2 List.mem_cons_self rfl .nil
    exact ⟨_, bracketed.visited at_ first visit rest⟩

/-- Once there is no other event the events are the whole walk. -/
theorem walked (bracketed : Bracketed start client) (ended : client.ended = true) :
    Walked start.options start.comparator start.roots client.turns.reverse := by
  obtain ⟨noFrames, noRoots, nothing⟩ := bracketed.tracked.ended ended
  have whole := bracketed.away (here?_of_none nothing) [] (by
    rw [noFrames, noRoots]
    exact .nil)
  rwa [List.append_nil] at whole

end Bracketed

/-- Whatever a client does and however the file system changes between its commands, the events that
it was given are the beginning of a well bracketed walk through the roots, and the whole of it when
there is no other event. What is listed in a directory are the scanned entries, sorted. No two
events that are not the end of a visit have the same number, and none is an error. -/
theorem events_wellBracketed {files : FileSystem} {serial : Nat} {paths : List String}
    {options : WalkOptions} {comparator : Option Comparator} {client : Client}
    (started : Client.start? files serial paths options comparator = some client)
    (commands : List Command) :
    let later := client.run commands
    (∃ future, Walked options comparator client.walk.roots (later.turns.reverse ++ future)) ∧
      (later.ended = true → Walked options comparator client.walk.roots later.turns.reverse) ∧
      (∀ directory files' entries, Answers options comparator directory files' (.ok entries) →
        ∃ names found, ((Call.scan directory.accessPath).run.run files').1 = .ok names ∧
          found.map Entry.name =
            (if options.withDots then [".", ".."] else []) ++ names.map Prod.fst ∧
          Sorted comparator found entries) ∧
      (∀ root ∈ client.walk.roots, root.level = 0 ∧ root.ancestors = []) ∧
      ((later.events.filter fun event => !isClosing event.kind).map Entry.serial).Nodup ∧
      ∀ event ∈ later.events, event.kind ≠ .error := by
  intro later
  obtain ⟨starts, -, begun⟩ := Client.start?_eq_some started
  have bracketed : Bracketed client.walk later := by
    refine Bracketed.run ?_ commands
    rw [begun]
    exact .begin starts
  have exists_future := bracketed.exists_future
  have walked := bracketed.walked
  rw [starts.sameOptions, starts.sameComparator] at exists_future walked
  refine ⟨exists_future, walked, fun _ _ _ => Answers.exists_sorted, ?_, ?_, ?_⟩
  · exact fun root member =>
      ⟨starts.roots.level root member, starts.roots.ancestors root member⟩
  · exact bracketed.tracked.numbered.nodup.sublist (List.sublist_append_left _ _)
  · intro event member
    obtain ⟨turn, given, rfl⟩ := List.mem_map.mp (List.mem_reverse.mp member)
    exact bracketed.events turn given

/-- A client that lists a directory before it walks through it. -/
theorem events_wellBracketed_sample :
    ∃ client, Client.start? Client.sampleFiles 0 ["d"] {} none = some client ∧
      (client.run (.read :: .children false :: List.replicate 6 .read)).events.map Entry.kind =
        [.directory, .file, .symlink, .directory, .finished, .finished] ∧
      Walked {} none client.walk.roots
        (client.run (.read :: .children false :: List.replicate 6 .read)).turns.reverse := by
  have outcome : (Client.start? Client.sampleFiles 0 ["d"] {} none).map (fun client =>
      ((client.run (.read :: .children false :: List.replicate 6 .read)).events.map Entry.kind,
        (client.run (.read :: .children false :: List.replicate 6 .read)).ended)) =
      some ([.directory, .file, .symlink, .directory, .finished, .finished], true) := by
    decide +kernel
  obtain ⟨client, started, same⟩ := Option.map_eq_some_iff.mp outcome
  obtain ⟨events, ended⟩ := Prod.mk.inj same
  exact ⟨client, started, events, (events_wellBracketed started _).2.1 ended⟩

end DirList.Walk
