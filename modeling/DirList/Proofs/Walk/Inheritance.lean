import DirList.Proofs.Walk.Client

/-!
# What entries inherit

While a client leaves the file system alone, all its walk reads is read from one file system. What
is true of the roots there, and passes from a reported directory to its entries, is true of
everything that the client is given.

Results:
1. `Inherits.step`: every command hands the property on.
2. `Inherits.ofStart`: what is true of every event and of every listing.
-/

namespace DirList.Walk

open FileSystem

/-- Whether the file system changes by calls only. -/
def Command.leavesFiles : Command → Bool
  | .change _ => false
  | _ => true

/-- `Passes files followLinks P`: `P` stays true after later events, and it passes from a reported
directory to the entries that were read from it. -/
structure Passes (files : FileSystem) (followLinks : Bool) (P : List Entry → Entry → Prop) :
    Prop where
  later : ∀ {events entry} event, P events entry → P (events ++ [event]) entry
  down : ∀ {events directory serial entries}, directory ∈ events → directory.kind = .directory →
    P events directory → Listing files followLinks directory serial entries →
    ∀ entry ∈ entries, P events entry

/-- The entries were listed in a directory that was reported. -/
def ReadIn (files : FileSystem) (followLinks : Bool) (events : List Entry) (directory : Entry)
    (entries : List Entry) : Prop :=
  directory ∈ events ∧ ∃ serial, Listing files followLinks directory serial entries

/-- `Inherits files P start client`: everything that the walk of the client has at hand satisfies
`P`, and so does every event and listing so far, where the end of a visit stands for its directory.
-/
structure Inherits (files : FileSystem) (P : List Entry → Entry → Prop) (start : Walk)
    (client : Client) : Prop where
  tracked : Client.Tracked start client
  wears : files.Wears client.files
  holds : Holds (P client.events) (ReadIn files start.options.logical client.events) client.walk
  events : ∀ event ∈ client.events, P client.events event ∨ Closes (P client.events) event
  listings : ∀ turn ∈ client.turns, ∀ entries, turn.listing = some entries →
    ∀ entry ∈ entries, P client.events entry

namespace Inherits

variable {files : FileSystem} {P : List Entry → Entry → Prop} {start : Walk} {client : Client}

/-- A reported directory that was listed was listed in the file system. -/
theorem readIn (inherits : Inherits files P start client) {namesOnly : Bool} {directory : Entry}
    {entries : List Entry} {files' : FileSystem} (at_ : client.walk.here? = some directory)
    (given : client.walk.listing namesOnly directory client.files = (.ok (.ok entries), files')) :
    ReadIn files start.options.logical client.events directory entries := by
  obtain ⟨turn, turns, first, rfl, -⟩ := inherits.tracked.here directory at_
  refine ⟨?_, client.walk.nextSerial, ?_⟩
  · rw [Client.events, first]
    simp
  · have spec := listing_spec inherits.wears given
    rwa [inherits.tracked.options] at spec

theorem read (inherits : Inherits files P start client)
    (passes : Passes files start.options.logical P)
    {event : Entry} {walk' : Walk} {files' : FileSystem}
    (reads : Reads client.walk client.files (some event) walk' files') :
    Inherits files P start { client with
      files := files', walk := walk'
      turns := ⟨client.files, client.walk.skipped, event, none⟩ :: client.turns } := by
  obtain ⟨holds, known⟩ := inherits.holds.reads reads
    (fun directory entries at_ given => inherits.readIn at_ given)
    (fun directory entries kind good ⟨reported, _, listing⟩ =>
      passes.down reported kind good listing)
  have events : Client.events { client with
      files := files', walk := walk'
      turns := ⟨client.files, client.walk.skipped, event, none⟩ :: client.turns } =
      client.events ++ [event] := by
    simp only [Client.events, List.map_cons, List.reverse_cons]
  have later : ∀ entry, P client.events entry → P (client.events ++ [event]) entry :=
    fun _ => passes.later event
  have closes : ∀ entry, Closes (P client.events) entry →
      Closes (P (client.events ++ [event])) entry :=
    fun _ ⟨directory, kind, good, closed⟩ => ⟨directory, kind, later _ good, closed⟩
  refine ⟨inherits.tracked.read reads, inherits.wears.trans reads.wears, ?_, ?_,
    ?_⟩
  · rw [events]
    refine holds.mono later fun directory entries => ?_
    exact fun ⟨reported, listing⟩ => ⟨List.mem_append_left _ reported, listing⟩
  · rw [events]
    intro entry member
    rcases List.mem_append.mp member with before | last
    · exact (inherits.events entry before).imp (later _) (closes _)
    · rcases List.mem_singleton.mp last with rfl
      exact (known entry rfl).imp (later _) (closes _)
  · rw [events]
    intro turn member entries listed entry inside
    rcases List.mem_cons.mp member with rfl | before
    · cases listed
    · exact later _ (inherits.listings turn before entries listed entry inside)

theorem list (inherits : Inherits files P start client)
    (passes : Passes files start.options.logical P)
    {namesOnly : Bool} {answer : Option (List Entry)} {walk' : Walk} {files' : FileSystem}
    (lists : Lists client.walk client.files namesOnly answer walk' files') :
    Inherits files P start { client with
      files := files', walk := walk', turns := Client.heard namesOnly answer client.turns } := by
  have holds := inherits.holds.answers lists
    fun directory entries at_ given => inherits.readIn at_ given
  have events : Client.events { client with
      files := files', walk := walk', turns := Client.heard namesOnly answer client.turns } =
      client.events := by
    simp only [Client.events, Client.map_event_heard]
  refine ⟨inherits.tracked.list lists, inherits.wears.trans lists.wears, ?_, ?_,
    ?_⟩
  · rw [events]
    exact holds
  · rw [events]
    exact inherits.events
  · rw [events]
    intro turn member entries listed entry inside
    have answers : ∀ entries, answer = some entries → client.turns ≠ [] →
        ∀ entry ∈ entries, P client.events entry := by
      rintro _ rfl some
      cases lists with
      | roots fresh => exact absurd (inherits.tracked.fresh fresh) some
      | give _ at_ given =>
        obtain ⟨reported, _, listing⟩ := inherits.readIn at_ given
        exact passes.down reported (here?_eq_some.mp at_).2 (inherits.holds.here _ at_) listing
    cases turns : client.turns with
    | nil =>
      rw [turns] at member
      cases member
    | cons head rest =>
      rw [turns] at member
      rcases List.mem_cons.mp member with rfl | before
      · cases namesOnly with
        | true => cases listed
        | false => exact answers entries listed (by rw [turns]; exact nofun) entry inside
      · refine inherits.listings turn ?_ entries listed entry inside
        rw [turns]
        exact List.mem_cons_of_mem _ before

/-- Every command that leaves the file system alone hands the property on. -/
theorem step (inherits : Inherits files P start client)
    (passes : Passes files start.options.logical P) {command : Command}
    (leaves : command.leavesFiles = true) : Inherits files P start (client.step command) := by
  by_cases stopped : client.interrupted = true
  · rw [Client.step_of_interrupted stopped]
    exact inherits
  have moves := Client.step_cases inherits.tracked.isOpen (by simpa using stopped) command
  have tracked := inherits.tracked.step command
  have holds := inherits.holds
  generalize client.step command = client' at moves tracked
  cases moves with
  | stop given =>
    exact ⟨tracked, inherits.wears.trans (listing_wears given), holds, inherits.events,
      inherits.listings⟩
  | skipNothing => exact inherits
  | skip | skipRead =>
    exact ⟨tracked, inherits.wears, ⟨holds.roots, holds.awaited, holds.here, holds.frames,
      holds.listed⟩, inherits.events, inherits.listings⟩
  | change => cases leaves
  | read reads => exact inherits.read passes reads
  | exhausted reads =>
    obtain ⟨holds, -⟩ := holds.reads reads
      (fun directory entries at_ given => inherits.readIn at_ given)
      (fun directory entries kind good ⟨reported, _, listing⟩ =>
        passes.down reported kind good listing)
    exact ⟨tracked, inherits.wears.trans reads.wears, holds, inherits.events,
      inherits.listings⟩
  | list lists => exact inherits.list passes lists

/-- What is true of the roots is true of a client that has not read anything. -/
theorem begin {base : FileSystem} {serial : Nat} {paths : List String} {options : WalkOptions}
    {comparator : Option Comparator} (starts : Starts base serial paths options comparator start)
    {now : FileSystem} (wears : files.Wears now) (roots : ∀ root ∈ start.roots, P [] root) :
    Inherits files P start (.begin start now) :=
  ⟨.begin starts, wears, .ofStarts starts roots, (fun _ no => nomatch no),
    fun _ no => nomatch no⟩

/-- While the file system is left alone, what is true of the roots and passes from directories to
their entries is true of everything that a client is given. -/
theorem ofStart {serial : Nat} {paths : List String} {options : WalkOptions}
    {comparator : Option Comparator} {client : Client} {commands : List Command}
    (started : Client.start? files serial paths options comparator = some client)
    (passes : Passes files options.logical P)
    (roots : Roots files (options.followRoots || options.logical) serial paths client.walk.roots →
      ∀ root ∈ client.walk.roots, P [] root)
    (leaves : ∀ command ∈ commands, command.leavesFiles = true) :
    Inherits files P client.walk (client.run commands) := by
  obtain ⟨starts, wears, begun⟩ := Client.start?_eq_some started
  have first : Inherits files P client.walk client := by
    have begins := Inherits.begin starts wears (roots starts.roots)
    rwa [← begun] at begins
  refine Client.run_keeps first fun client command member inherits => ?_
  exact inherits.step (starts.sameOptions ▸ passes) (leaves command member)

end Inherits
end DirList.Walk
