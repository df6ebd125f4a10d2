import DirList.FileSystem.Tree
import DirList.Proofs.Walk.Step

/-!
# Clients of walks

A client starts a walk and gives it commands, one after another, while the file system may change
between them. It remembers every event that it was given and what it learnt there. An interrupted
command ends its work.

Results:
1. `Client.step_cases`: what one command can do.
2. `Client.run_keeps`: what every command keeps is true after any commands.
3. `Client.Tracked.step`: the walk and what the client remembers of it go on to fit together.
-/

namespace DirList.Walk

open FileSystem

/-! ## Commands -/

/-- What a client can do between two events. -/
inductive Command where
  | read
  | children (namesOnly : Bool)
  /-- To have an entry skipped, whichever it is. -/
  | skip (entry : Entry)
  /-- To have the entry skipped that was read so many events ago. -/
  | skipRead (back : Nat)
  /-- To let the file system change. -/
  | change (edit : FileSystem → FileSystem)

/-- An event that a client was given. -/
structure Turn where
  /-- The file system when the client asked for the event. -/
  files : FileSystem
  /-- The entries to be skipped at that time. -/
  skipped : List Nat
  event : Entry
  /-- The entries that the event was listed with, if the last listing there gave them with their
  status. -/
  listing : Option (List Entry)

structure Client where
  files : FileSystem
  walk : Walk
  /-- The events so far, the last one first. -/
  turns : List Turn
  /-- Whether the walk had no other event when it was asked last. -/
  ended : Bool
  interrupted : Bool

namespace Client

/-- A client with a walk of which it knows nothing. -/
def begin (walk : Walk) (files : FileSystem) : Client where
  files := files
  walk := walk
  turns := []
  ended := false
  interrupted := false

/-- A client with a walk that was started on a file system, if it could be. -/
def start? (files : FileSystem) (serial : Nat) (paths : List String) (options : WalkOptions)
    (comparator : Option Comparator) : Option Client :=
  match (Walk.start serial paths options comparator).run.run files with
  | (.ok (.ok walk), files) => some (begin walk files)
  | _ => none

/-- The turns after the event of the last one was listed. -/
def heard (namesOnly : Bool) (answer : Option (List Entry)) : List Turn → List Turn
  | [] => []
  | turn :: turns => { turn with listing := if namesOnly then none else answer } :: turns

/-- The client after a command. -/
def step (client : Client) (command : Command) : Client :=
  if client.interrupted then client
  else
    match command with
    | .read =>
      match client.walk.read.run.run client.files with
      | (.ok (.ok (some event), walk), files) =>
        { client with
          files, walk
          turns := ⟨client.files, client.walk.skipped, event, none⟩ :: client.turns }
      | (.ok (.ok none, walk), files) => { client with files, walk, ended := true }
      | (.ok (.error _, _), files) => { client with files, interrupted := true }
      | (.error _, files) => { client with files, interrupted := true }
    | .children namesOnly =>
      match (client.walk.children namesOnly).run.run client.files with
      | (.ok (answer, walk), files) =>
        { client with files, walk, turns := heard namesOnly answer client.turns }
      | (.error _, files) => { client with files, interrupted := true }
    | .skip entry => { client with walk := client.walk.skip entry }
    | .skipRead back =>
      match client.turns[back]? with
      | some turn => { client with walk := client.walk.skip turn.event }
      | none => client
    | .change edit => { client with files := edit client.files }

/-- The client after commands, the first one first. -/
def run (client : Client) (commands : List Command) : Client :=
  commands.foldl step client

/-- The events so far, the first one first. -/
def events (client : Client) : List Entry :=
  (client.turns.map Turn.event).reverse

theorem start?_eq_some {files : FileSystem} {serial : Nat} {paths : List String}
    {options : WalkOptions} {comparator : Option Comparator} {client : Client}
    (started : start? files serial paths options comparator = some client) :
    Starts files serial paths options comparator client.walk ∧ files.Wears client.files ∧
      client = begin client.walk client.files := by
  obtain ⟨wears, spec⟩ := yields_start serial paths options comparator files .refl
  unfold start? at started
  rcases ran : (Walk.start serial paths options comparator).run.run files with
    ⟨_ | _ | walk, files'⟩
  · rw [ran] at started
    cases started
  · rw [ran] at started
    cases started
  · rw [ran] at started wears spec
    cases started
    exact ⟨spec (.ok walk) rfl walk rfl, wears, rfl⟩

@[simp]
theorem run_nil (client : Client) : client.run [] = client :=
  rfl

@[simp]
theorem run_cons (client : Client) (command : Command) (commands : List Command) :
    client.run (command :: commands) = (client.step command).run commands :=
  rfl

theorem run_append (client : Client) (first second : List Command) :
    client.run (first ++ second) = (client.run first).run second :=
  List.foldl_append

theorem step_of_interrupted {client : Client} (stopped : client.interrupted = true)
    (command : Command) : client.step command = client := by
  unfold step
  exact if_pos stopped

theorem run_of_interrupted {client : Client} (stopped : client.interrupted = true)
    (commands : List Command) : client.run commands = client := by
  induction commands with
  | nil => rfl
  | cons command commands ih => rw [run_cons, step_of_interrupted stopped, ih]

/-- What every command keeps is true after any commands. -/
theorem run_keeps {Good : Client → Prop} {client : Client} {commands : List Command}
    (good : Good client)
    (keeps : ∀ client, ∀ command ∈ commands, Good client → Good (client.step command)) :
    Good (client.run commands) := by
  induction commands generalizing client with
  | nil => exact good
  | cons command commands ih =>
    exact ih (keeps client command List.mem_cons_self good)
      fun client command member => keeps client command (List.mem_cons_of_mem _ member)

/-! ## One command -/

/-- `Moves client command client'`: what a command does to a client whose walk is open.

* `stop`: a listing was interrupted.
* `read`, `exhausted`: the walk has another event, or has none.
* `list`: the walk listed the directory just reported.
* `skip`, `change`: an entry is to be skipped, or the file system changed. -/
inductive Moves (client : Client) : Command → Client → Prop
  | stop {command : Command} {namesOnly : Bool} {directory : Entry} {reason : Interrupted}
      {files' : FileSystem} :
      client.walk.listing namesOnly directory client.files = (.error reason, files') →
      Moves client command { client with files := files', interrupted := true }
  | read {event : Entry} {walk' : Walk} {files' : FileSystem} :
      Reads client.walk client.files (some event) walk' files' →
      Moves client .read { client with
        files := files', walk := walk'
        turns := ⟨client.files, client.walk.skipped, event, none⟩ :: client.turns }
  | exhausted {walk' : Walk} {files' : FileSystem} :
      Reads client.walk client.files none walk' files' →
      Moves client .read { client with files := files', walk := walk', ended := true }
  | list {namesOnly : Bool} {answer : Option (List Entry)} {walk' : Walk}
      {files' : FileSystem} :
      Lists client.walk client.files namesOnly answer walk' files' →
      Moves client (.children namesOnly) { client with
        files := files', walk := walk', turns := heard namesOnly answer client.turns }
  | skip {entry : Entry} :
      Moves client (.skip entry) { client with walk := client.walk.skip entry }
  | skipRead {back : Nat} {turn : Turn} : client.turns[back]? = some turn →
      Moves client (.skipRead back) { client with walk := client.walk.skip turn.event }
  | skipNothing {back : Nat} : client.turns[back]? = none →
      Moves client (.skipRead back) client
  | change {edit : FileSystem → FileSystem} :
      Moves client (.change edit) { client with files := edit client.files }

theorem step_cases {client : Client} (isOpen : client.walk.closed = false)
    (running : client.interrupted = false) (command : Command) :
    Moves client command (client.step command) := by
  unfold step
  rw [if_neg (by simp [running])]
  cases command with
  | read =>
    dsimp only
    rcases ran : client.walk.read.run.run client.files with ⟨stop | ⟨answer, walk'⟩, files'⟩
    · obtain ⟨directory, stopped⟩ := stops_of_run isOpen ran
      exact .stop stopped
    · obtain ⟨event, rfl, reads⟩ := reads_of_run isOpen ran
      cases event with
      | none => exact .exhausted reads
      | some event => exact .read reads
  | children namesOnly =>
    dsimp only
    rcases ran : (client.walk.children namesOnly).run.run client.files with
      ⟨stop | ⟨answer, walk'⟩, files'⟩
    · obtain ⟨directory, stopped⟩ := stops_of_children ran
      exact .stop stopped
    · exact .list (lists_of_run ran)
  | skip entry => exact .skip
  | skipRead back =>
    dsimp only
    cases found : client.turns[back]? with
    | none => exact .skipNothing found
    | some turn => exact .skipRead found
  | change edit => exact .change

/-! ## What the client knows of its walk -/

/-- The numbers of the events that are not the end of a visit, of turns with the last one first. -/
def numbersOf (turns : List Turn) : List Nat :=
  ((turns.map Turn.event).reverse.filter fun event => !isClosing event.kind).map Entry.serial

/-- The numbers of the events that are not the end of a visit. -/
def numbers (client : Client) : List Nat :=
  numbersOf client.turns

theorem numbersOf_cons (turn : Turn) (turns : List Turn) :
    numbersOf (turn :: turns) = numbersOf turns ++ opened (some turn.event) := by
  simp only [numbersOf, List.map_cons, List.reverse_cons, List.filter_append, List.map_append,
    List.append_cancel_left_eq]
  unfold opened
  cases closing : isClosing turn.event.kind <;> simp [closing]

/-- `Tracked start client`: the walk of the client came from `start`, and it fits together with what
the client remembers.

* `here`: at a directory just reported, the walk has listed what the last turn says.
* `walked`: the directories being walked were reported.
* `numbered`: the numbers of events and of upcoming entries are different.
* `known`: the end of a visit has the number of its beginning, which came before it. -/
structure Tracked (start : Walk) (client : Client) : Prop where
  options : client.walk.options = start.options
  comparator : client.walk.comparator = start.comparator
  roots : client.walk.roots = start.roots
  isOpen : client.walk.closed = false
  fresh : client.walk.started = false → client.turns = []
  here : ∀ directory, client.walk.here? = some directory →
    ∃ turn turns, client.turns = turn :: turns ∧ turn.event = directory ∧
      turn.listing = client.walk.listed
  unlisted : client.walk.here? = none → client.walk.listed = none
  plain : client.walk.here? = none → ∀ turn turns, client.turns = turn :: turns →
    turn.listing = none
  ended : client.ended = true →
    client.walk.frames = [] ∧ client.walk.pending = [] ∧ client.walk.current = none
  walked : ∀ frame ∈ client.walk.frames, ∃ turn ∈ client.turns, turn.event = frame.directory
  numbered : Numbered client.numbers client.walk
  known : ∀ turns, turns <:+ client.turns → ∀ turn ∈ turns, turn.event.serial ∈ numbersOf turns

theorem map_event_heard (namesOnly : Bool) (answer : Option (List Entry)) (turns : List Turn) :
    (heard namesOnly answer turns).map Turn.event = turns.map Turn.event := by
  cases turns <;> rfl

theorem mem_heard {namesOnly : Bool} {answer : Option (List Entry)} {turns : List Turn}
    {entry : Entry} :
    (∃ turn ∈ heard namesOnly answer turns, turn.event = entry) ↔
      ∃ turn ∈ turns, turn.event = entry := by
  rw [← List.mem_map, ← List.mem_map, map_event_heard]

namespace Tracked

variable {start : Walk} {client : Client}

/-- The last turn is that of the directory just reported. -/
theorem first (tracked : Tracked start client) {directory : Entry} {turn : Turn}
    {turns : List Turn} (at_ : client.walk.here? = some directory)
    (last : client.turns = turn :: turns) :
    turn.event = directory ∧ turn.listing = client.walk.listed := by
  obtain ⟨_, _, last', event, listing⟩ := tracked.here directory at_
  cases last.symm.trans last'
  exact ⟨event, listing⟩

/-- A walk that was just started is tracked. -/
theorem begin {files : FileSystem} {base : FileSystem} {serial : Nat} {paths : List String}
    {options : WalkOptions} {comparator : Option Comparator}
    (starts : Starts base serial paths options comparator start) :
    Tracked start (Client.begin start files) := by
  exact {
    options := rfl
    comparator := rfl
    roots := rfl
    isOpen := by
      show start.closed = false
      rw [starts.fresh]
    fresh := fun _ => rfl
    here := by
      intro _ at_
      cases starts.nowhere.symm.trans at_
    unlisted := fun _ => starts.unlisted
    plain := by
      rintro _ _ _ ⟨⟩
    ended := by
      rintro ⟨⟩
    walked := by
      show ∀ frame ∈ start.frames, _
      rw [starts.noFrames]
      exact List.forall_mem_nil _
    numbered := .ofStarts starts
    known := by
      intro turns before turn member
      rw [List.suffix_nil.mp before] at member
      cases member }

theorem skip (tracked : Tracked start client) (entry : Entry) :
    Tracked start { client with walk := client.walk.skip entry } :=
  { tracked with
    numbered := ⟨tracked.numbered.nodup, tracked.numbered.below, tracked.numbered.opening⟩ }

theorem reported (tracked : Tracked start client) {directory : Entry}
    (at_ : client.walk.here? = some directory) :
    ∃ turn ∈ client.turns, turn.event = directory := by
  obtain ⟨turn, turns, first, same, -⟩ := tracked.here directory at_
  exact ⟨turn, first ▸ List.mem_cons_self, same⟩

/-- The number of an event is a new one, or it is the end of the visit that began with it. -/
theorem mem_numbers (tracked : Tracked start client) {event : Entry} {walk' : Walk}
    {files' : FileSystem} (reads : Reads client.walk client.files (some event) walk' files') :
    event.serial ∈ client.numbers ++ opened (some event) := by
  cases closing : isClosing event.kind with
  | false =>
    refine List.mem_append_right _ ?_
    simp [opened, closing]
  | true =>
    obtain ⟨directory, number, source⟩ := reads.closing tracked.numbered.opening closing
    have begun : ∃ turn ∈ client.turns, turn.event = directory := by
      rcases source with here | ⟨frame, member, rfl⟩
      · exact tracked.reported here
      · exact tracked.walked frame member
    obtain ⟨turn, member, rfl⟩ := begun
    refine List.mem_append_left _ ?_
    rw [← number]
    exact tracked.known _ List.suffix_rfl turn member

theorem read (tracked : Tracked start client) {event : Entry} {walk' : Walk}
    {files' : FileSystem} (reads : Reads client.walk client.files (some event) walk' files') :
    Tracked start { client with
      files := files', walk := walk'
      turns := ⟨client.files, client.walk.skipped, event, none⟩ :: client.turns } := by
  have same := reads.sameWalk
  have numbers : client.numbers ++ opened (some event) = numbers { client with
      files := files', walk := walk'
      turns := ⟨client.files, client.walk.skipped, event, none⟩ :: client.turns } := by
    exact (numbersOf_cons ⟨client.files, client.walk.skipped, event, none⟩ client.turns).symm
  exact {
    options := same.options.trans tracked.options
    comparator := same.comparator.trans tracked.comparator
    roots := same.roots.trans tracked.roots
    isOpen := same.closed.trans tracked.isOpen
    fresh := by
      intro fresh
      cases reads.started.symm.trans fresh
    here := by
      intro directory here
      have current := reads.current.symm.trans (here?_eq_some.mp here).1
      cases current
      exact ⟨_, _, rfl, rfl, (reads.listed tracked.unlisted).symm⟩
    unlisted := fun _ => reads.listed tracked.unlisted
    plain := by
      rintro _ _ _ ⟨⟩
      rfl
    ended := by
      intro ended
      obtain ⟨noFrames, noRoots, nowhere⟩ := tracked.ended ended
      cases reads.of_exhausted noFrames noRoots nowhere
    walked := by
      intro frame member
      rcases reads.directories tracked.numbered.opening frame member with
        here | ⟨before, member, same⟩
      · obtain ⟨turn, member, same⟩ := tracked.reported here
        exact ⟨turn, List.mem_cons_of_mem _ member, same⟩
      · obtain ⟨turn, member, same'⟩ := tracked.walked before member
        exact ⟨turn, List.mem_cons_of_mem _ member, same'.trans same.symm⟩
    numbered := by
      rw [← numbers]
      exact tracked.numbered.reads reads tracked.unlisted
    known := by
      intro turns before turn member
      rcases List.suffix_cons_iff.mp before with rfl | before
      · rw [numbersOf_cons]
        rcases List.mem_cons.mp member with rfl | earlier
        · exact tracked.mem_numbers reads
        · exact List.mem_append_left _ (tracked.known _ List.suffix_rfl turn earlier)
      · exact tracked.known turns before turn member }

theorem exhausted (tracked : Tracked start client) {walk' : Walk} {files' : FileSystem}
    (reads : Reads client.walk client.files none walk' files') :
    Tracked start { client with files := files', walk := walk', ended := true } := by
  have same := reads.sameWalk
  obtain ⟨away, -, -, noFrames, noRoots, nowhere⟩ := reads.exhausted
  have unlisted := reads.listed tracked.unlisted
  exact {
    options := same.options.trans tracked.options
    comparator := same.comparator.trans tracked.comparator
    roots := same.roots.trans tracked.roots
    isOpen := same.closed.trans tracked.isOpen
    fresh := by
      intro fresh
      cases reads.started.symm.trans fresh
    here := by
      intro directory here
      cases nowhere.symm.trans (here?_eq_some.mp here).1
    unlisted := fun _ => unlisted
    plain := fun _ => tracked.plain away
    ended := fun _ => ⟨noFrames, noRoots, nowhere⟩
    walked := by
      intro frame member
      rw [noFrames] at member
      cases member
    numbered := by
      have numbered := tracked.numbered.reads reads tracked.unlisted
      rw [opened, List.append_nil] at numbered
      exact numbered
    known := tracked.known }

/-- Where there is no directory to list, nothing is heard. -/
theorem heard_of_away (tracked : Tracked start client) (away : client.walk.here? = none)
    {namesOnly : Bool} {answer : Option (List Entry)} {walk' : Walk} {files' : FileSystem}
    (lists : Lists client.walk client.files namesOnly answer walk' files') :
    heard namesOnly answer client.turns = client.turns := by
  cases first : client.turns with
  | nil => rfl
  | cons turn turns =>
    have plain := tracked.plain away turn turns first
    cases lists with
    | roots fresh => cases (tracked.fresh fresh).symm.trans first
    | nowhere => cases namesOnly <;> simp [heard, ← plain]
    | fail _ here | give _ here => cases away.symm.trans here

theorem list (tracked : Tracked start client) {namesOnly : Bool}
    {answer : Option (List Entry)} {walk' : Walk} {files' : FileSystem}
    (lists : Lists client.walk client.files namesOnly answer walk' files') :
    Tracked start { client with
      files := files', walk := walk', turns := heard namesOnly answer client.turns } := by
  have same := lists.sameWalk
  obtain ⟨current, frames, pending, started⟩ := lists.unmoved
  have here := lists.here
  exact {
    options := same.options.trans tracked.options
    comparator := same.comparator.trans tracked.comparator
    roots := same.roots.trans tracked.roots
    isOpen := same.closed.trans tracked.isOpen
    fresh := by
      intro fresh
      dsimp only at fresh ⊢
      rw [tracked.fresh (started.symm.trans fresh)]
      rfl
    here := by
      intro directory at_
      dsimp only at at_
      rw [here] at at_
      obtain ⟨turn, turns, first, event, known⟩ := tracked.here directory at_
      dsimp only
      rw [first]
      refine ⟨_, _, rfl, event, ?_⟩
      cases lists with
      | roots fresh => cases (tracked.fresh fresh).symm.trans first
      | nowhere _ no => cases no.symm.trans at_
      | fail => cases namesOnly <;> rfl
      | give => rfl
    unlisted := by
      intro nowhere
      dsimp only at nowhere ⊢
      rw [here] at nowhere
      cases lists with
      | roots | nowhere => exact tracked.unlisted nowhere
      | fail => rfl
      | give _ no => cases nowhere.symm.trans no
    plain := by
      intro nowhere turn turns first
      dsimp only at nowhere first
      rw [here] at nowhere
      rw [tracked.heard_of_away nowhere lists] at first
      exact tracked.plain nowhere turn turns first
    ended := by
      dsimp only
      rw [frames, pending, current]
      exact tracked.ended
    walked := by
      dsimp only
      intro frame member
      rw [frames] at member
      exact mem_heard.mpr (tracked.walked frame member)
    numbered := by
      rw [numbers, numbersOf, map_event_heard]
      exact tracked.numbered.answers lists
    known := by
      -- What was heard changes the last turn, but neither its event nor the turns before it.
      intro turns before turn member
      cases first : client.turns with
      | nil =>
        rw [first] at before
        rw [List.suffix_nil.mp before] at member
        cases member
      | cons turn' turns' =>
        rw [first] at before
        rcases List.suffix_cons_iff.mp before with rfl | before
        · have known := tracked.known _ List.suffix_rfl
          rw [first] at known
          rcases List.mem_cons.mp member with rfl | earlier
          · exact known turn' List.mem_cons_self
          · exact known turn (List.mem_cons_of_mem _ earlier)
        · refine tracked.known turns (before.trans ?_) turn member
          rw [first]
          exact List.suffix_cons _ _ }

theorem step (tracked : Tracked start client) (command : Command) :
    Tracked start (client.step command) := by
  by_cases stopped : client.interrupted = true
  · rw [step_of_interrupted stopped]
    exact tracked
  have moves := step_cases tracked.isOpen (by simpa using stopped) command
  generalize client.step command = client' at moves
  cases moves with
  | stop => exact { tracked with }
  | read reads => exact tracked.read reads
  | exhausted reads => exact tracked.exhausted reads
  | list lists => exact tracked.list lists
  | skip => exact tracked.skip _
  | skipRead => exact tracked.skip _
  | skipNothing => exact tracked
  | change => exact { tracked with }

end Tracked

/-! ## A small file system -/

/-- A node on the device 1. -/
def sampleSketch (form : Form) (mode : Mode) : Sketch where
  form := form
  status := { (default : Status) with mode, device := 1 }
  inode := none
  faults := {}

/-- A directory `d` that holds a file `x`, a link `l` to itself and an empty directory `e`. -/
def sampleTree : Tree :=
  .node "" (sampleSketch .directory 0o040755) [
    .node "d" (sampleSketch .directory 0o040755) [
      .node "x" (sampleSketch .leaf 0o100644) [],
      .node "l" (sampleSketch (.symlink ".") 0o120777) [],
      .node "e" (sampleSketch .directory 0o040755) []]]

def sampleFiles : FileSystem :=
  .ofTree sampleTree

end Client
end DirList.Walk
