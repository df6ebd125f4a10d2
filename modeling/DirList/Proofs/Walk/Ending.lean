import Mathlib.Algebra.Ring.Nat
import DirList.Proofs.Walk.Cycle

/-!
# Walks end

Every event takes something from the load of a walk: an upper bound for the events that are left,
which follows from how deep it can still go and how many entries a directory can have.

Results:
1. `weight_children`: the entries of a directory weigh less than the directory.
2. `load_lt_of_reads`: an event makes the load smaller.
3. `load_le_budget`: the budget of a walk is large enough.
4. `reads_end`: a client that only reads comes to the end.
-/

namespace DirList

open FileSystem

namespace FileSystem

variable {files files' : FileSystem}

theorem Wears.size (wears : files.Wears files') : files'.nodes.size = files.nodes.size := by
  have same := congrArg (fun files => files.nodes.size) (Wears.faultless wears)
  simpa only [FileSystem.faultless, Array.size_map] using same

theorem entryCount_faultless (files : FileSystem) :
    files.faultless.entryCount = files.entryCount := by
  simp only [entryCount, FileSystem.faultless, Array.toList_map, List.foldr_map, Node.entries?]

theorem Wears.entryCount (wears : files.Wears files') : files'.entryCount = files.entryCount := by
  rw [← entryCount_faultless, Wears.faultless wears, entryCount_faultless]

end FileSystem

namespace Walk

/-! ## Weights -/

theorem two_le_subtreeEvents (breadth depth : Nat) : 2 ≤ subtreeEvents breadth depth := by
  cases depth with
  | zero => exact Nat.le_refl 2
  | succ depth => exact Nat.le_add_right 2 _

theorem subtreeEvents_mono {breadth breadth' depth depth' : Nat} (wider : breadth ≤ breadth')
    (deeper : depth ≤ depth') : subtreeEvents breadth depth ≤ subtreeEvents breadth' depth' := by
  induction depth generalizing depth' with
  | zero => exact two_le_subtreeEvents _ _
  | succ depth ih =>
    obtain ⟨below, rfl⟩ := Nat.exists_eq_add_of_le' deeper
    exact Nat.add_le_add_left (Nat.mul_le_mul wider (ih (Nat.le_add_left depth below))) 2

/-- How many levels there can be below the directories above an entry. -/
def rank (files : FileSystem) (entry : Entry) : Nat :=
  (files.fileIds \ entry.fileIdsAbove).card

/-- The most events that the visit of an entry can have. -/
def weight (files : FileSystem) (entry : Entry) : Nat :=
  subtreeEvents (files.entryCount + 2) (rank files entry)

/-- The events that can come without entering the directory just reported. -/
def ahead (files : FileSystem) (walk : Walk) : Nat :=
  (walk.awaited.map (weight files)).sum + walk.frames.length

/-- The events that can come. -/
def load (files : FileSystem) (walk : Walk) : Nat :=
  walk.ahead files + match walk.here? with
    | some directory => weight files directory - 1
    | none => 0

section Weights

variable {files : FileSystem}

/-- A directory has a pair that no directory above it has. -/
theorem exists_new_fileId {directory : Entry} (grounded : directory.Grounded files)
    (kind : directory.kind = .directory) : ∃ status, directory.status = some status ∧
      status.fileId ∈ files.fileIds \ directory.fileIdsAbove := by
  obtain ⟨_, found⟩ := grounded.found
  obtain ⟨status, known, -, member, differs⟩ := found.directory kind
  refine ⟨status, known, Finset.mem_sdiff.mpr ⟨member, fun above => ?_⟩⟩
  obtain ⟨ancestor, above, same⟩ := List.mem_filterMap.mp (List.mem_toFinset.mp above)
  exact differs ancestor above same

theorem rank_of_isChildOf {directory entry : Entry} (grounded : directory.Grounded files)
    (kind : directory.kind = .directory) (child : directory.IsChildOf entry) :
    rank files entry = rank files directory - 1 := by
  obtain ⟨status, known, new⟩ := exists_new_fileId grounded kind
  have below : entry.fileIdsAbove = insert status.fileId directory.fileIdsAbove := by
    simp only [Entry.fileIdsAbove, child.ancestors, Entry.lineage, Entry.asAncestor, known,
      Option.map_some, List.filterMap_cons, List.toFinset_cons]
  rw [rank, rank, below, Finset.sdiff_insert, Finset.card_erase_of_mem new]

/-- The entries of a directory weigh less than the directory. -/
theorem weight_children {directory : Entry} {entries : List Entry} {followLinks : Bool}
    {serial : Nat} (grounded : directory.Grounded files) (kind : directory.kind = .directory)
    (listing : Listing files followLinks directory serial entries) :
    (entries.map (weight files)).sum + 2 ≤ weight files directory := by
  obtain ⟨depth, positive⟩ : ∃ depth, rank files directory = depth + 1 := by
    obtain ⟨_, -, new⟩ := exists_new_fileId grounded kind
    exact Nat.exists_eq_add_one.mpr (Finset.card_pos.mpr ⟨_, new⟩)
  have same : ∀ entry ∈ entries, weight files entry =
      subtreeEvents (files.entryCount + 2) depth := by
    intro entry member
    rw [weight, rank_of_isChildOf grounded kind (listing.child entry member), positive,
      Nat.add_sub_cancel]
  have whole : weight files directory = 2 + (files.entryCount + 2) *
      subtreeEvents (files.entryCount + 2) depth := by
    rw [weight, positive]
    rfl
  have sum : (entries.map (weight files)).sum =
      entries.length * subtreeEvents (files.entryCount + 2) depth := by
    rw [List.map_congr_left same, List.map_const', List.sum_replicate_nat]
  rw [sum, whole, Nat.add_comm]
  exact Nat.add_le_add_left (Nat.mul_le_mul_right _ listing.bounded) 2

theorem weight_pos (files : FileSystem) (entry : Entry) : 2 ≤ weight files entry :=
  two_le_subtreeEvents _ _

end Weights

/-! ## Load -/

section Load

variable {files now now' : FileSystem} {walk walk' : Walk} {event : Entry}

/-- Going on makes the load smaller. -/
theorem Next.load_lt (step : Next walk (some event) walk') :
    walk'.load files + 1 ≤ walk.ahead files := by
  -- The event has taken one from its own weight, and only a directory has more of it.
  have bound : walk'.load files + 1 ≤ walk'.ahead files + weight files event := by
    have heavy := weight_pos files event
    unfold load
    cases at_ : walk'.here? with
    | none =>
      dsimp only
      omega
    | some directory =>
      cases step.current.symm.trans (here?_eq_some.mp at_).1
      dsimp only
      omega
  cases step with
  | root noFrames pending =>
    refine bound.trans (Nat.le_of_eq ?_)
    simp only [ahead, Walk.awaited, noFrames, pending, List.flatMap_nil, List.nil_append,
      List.map_cons, List.sum_cons, List.length_nil]
    omega
  | child framed pending =>
    refine bound.trans (Nat.le_of_eq ?_)
    simp only [ahead, Walk.awaited, framed, pending, List.flatMap_cons, List.cons_append,
      List.map_cons, List.sum_cons, List.length_cons]
    omega
  | @finish frame frames framed done =>
    have nowhere :
        Walk.load files { walk with frames, current := some (finished frame.directory) } =
          Walk.ahead files { walk with frames, current := some (finished frame.directory) } := rfl
    rw [nowhere]
    simp only [ahead, Walk.awaited, framed, done, List.flatMap_cons, List.nil_append,
      List.length_cons]
    omega

/-- Entering a directory does not make the load greater. -/
theorem ahead_entered {directory : Entry} {entries : List Entry} {followLinks : Bool}
    {serial count : Nat} (at_ : walk.here? = some directory) (grounded : directory.Grounded files)
    (listing : Listing files followLinks directory serial entries) :
    (walk.entered directory entries count).ahead files ≤ walk.load files := by
  have fewer := weight_children grounded (here?_eq_some.mp at_).2 listing
  have loaded : walk.load files = walk.ahead files + (weight files directory - 1) := by
    rw [load, at_]
  have entered : (walk.entered directory entries count).ahead files =
      (entries.map (weight files)).sum + walk.ahead files + 1 := by
    have deeper : (walk.entered directory entries count).frames.length = walk.frames.length + 1 :=
      rfl
    rw [ahead, awaited_entered, List.map_append, List.sum_append_nat, deeper, ahead]
    omega
  rw [loaded, entered]
  omega

/-- An event makes the load smaller. -/
theorem load_lt_of_reads {followLinks : Bool} {events : List Entry}
    (holds : Holds (Entry.Grounded files) (ReadIn files followLinks events) walk)
    (wears : files.Wears now)
    (reads : Reads walk now (some event) walk' now') : walk'.load files < walk.load files := by
  have closed : ∀ {directory event : Entry}, walk.here? = some directory →
      event.kind ≠ .directory → (walk.left event).load files < walk.load files := by
    intro directory event at_ kind
    have heavy := weight_pos files directory
    have nowhere : (walk.left event).here? = none := here?_of_current rfl kind
    have before : walk.load files = walk.ahead files + (weight files directory - 1) := by
      rw [load, at_]
    have after : (walk.left event).load files = walk.ahead files := by
      rw [load, nowhere]
      rfl
    omega
  generalize given : some event = answer at reads
  cases reads with
  | go =>
    have step := next_advance walk.begun
    rw [← given] at step
    exact step.load_lt.trans (Nat.le_add_right _ _)
  | pass at_ | refuse at_ => exact closed at_ nofun
  | @resume directory entries at_ _ listed =>
    have step := next_advance (walk.entered directory entries 0)
    rw [← given] at step
    obtain ⟨_, at', _, serial, listing⟩ := holds.listed entries listed
    cases at_.symm.trans at'
    exact step.load_lt.trans (ahead_entered at_ (holds.here directory at_) listing)
  | @enter directory entries _ at_ _ _ listed =>
    have step := next_advance (walk.entered directory entries entries.length)
    rw [← given] at step
    exact step.load_lt.trans
      (ahead_entered at_ (holds.here directory at_) (listing_spec wears listed))

/-- Nothing else makes it greater. -/
theorem load_of_unmoved (current : walk'.current = walk.current)
    (frames : walk'.frames = walk.frames) (pending : walk'.pending = walk.pending) :
    walk'.load files = walk.load files := by
  rw [load, load, ahead, ahead, awaited, awaited, here?, here?, current, frames, pending]

theorem waiting_eq (walk : Walk) : walk.waiting = walk.awaited.length + walk.frames.length := by
  have counted : ∀ frames : List Frame,
      frames.foldr (fun frame count => frame.pending.length + 1 + count) walk.pending.length =
        (frames.flatMap Frame.pending ++ walk.pending).length + frames.length := by
    intro frames
    induction frames with
    | nil => rfl
    | cons frame frames ih =>
      simp only [List.foldr_cons, ih, List.flatMap_cons, List.length_append, List.length_cons]
      omega
  exact counted walk.frames

/-- The budget of a walk is large enough. -/
theorem load_le_budget (wears : files.Wears now) : walk.load files ≤ walk.budget now := by
  -- The budget takes every entry to be as heavy as one with nothing above it.
  have light : ∀ entry, weight files entry ≤
      subtreeEvents (now.entryCount + 2 + (walk.listed.map List.length).getD 0)
        (now.nodes.size + 2) := by
    intro entry
    rw [wears.entryCount, wears.size]
    refine subtreeEvents_mono (Nat.le_add_right _ _) ?_
    exact (Finset.card_le_card Finset.sdiff_subset).trans
      (card_fileIds_le.trans (Nat.le_succ _))
  have bounded : ∀ entries : List Entry, (entries.map (weight files)).sum ≤ entries.length *
      subtreeEvents (now.entryCount + 2 + (walk.listed.map List.length).getD 0)
        (now.nodes.size + 2) := by
    intro entries
    induction entries with
    | nil => exact Nat.zero_le _
    | cons entry entries ih =>
      rw [List.map_cons, List.sum_cons, List.length_cons, Nat.add_mul, Nat.one_mul, Nat.add_comm]
      exact Nat.add_le_add ih (light entry)
  have here : (match walk.here? with
      | some directory => weight files directory - 1
      | none => 0) ≤ subtreeEvents (now.entryCount + 2 + (walk.listed.map List.length).getD 0)
        (now.nodes.size + 2) := by
    split
    · exact (Nat.sub_le _ _).trans (light _)
    · exact Nat.zero_le _
  have heavy := two_le_subtreeEvents
    (now.entryCount + 2 + (walk.listed.map List.length).getD 0) (now.nodes.size + 2)
  have frames : walk.frames.length ≤ walk.frames.length *
      subtreeEvents (now.entryCount + 2 + (walk.listed.map List.length).getD 0)
        (now.nodes.size + 2) := Nat.le_mul_of_pos_right _ (Nat.lt_of_lt_of_le Nat.zero_lt_two heavy)
  have pending := bounded walk.awaited
  unfold load ahead budget
  rw [waiting_eq, Nat.add_mul, Nat.add_mul]
  omega

end Load

/-! ## Reading to the end -/

section Reading

variable {files : FileSystem} {start : Walk} {client : Client}

theorem ended_step (tracked : Client.Tracked start client) (ended : client.ended = true)
    (command : Command) : (client.step command).ended = true := by
  by_cases stopped : client.interrupted = true
  · rwa [Client.step_of_interrupted stopped]
  have moves := Client.step_cases tracked.isOpen (by simpa using stopped) command
  generalize client.step command = client' at moves
  cases moves with
  | exhausted => rfl
  | stop | read | list | skip | skipRead | skipNothing | change => exact ended

theorem ended_run (tracked : Client.Tracked start client) (ended : client.ended = true)
    (commands : List Command) : (client.run commands).ended = true := by
  induction commands generalizing client with
  | nil => exact ended
  | cons command commands ih => exact ih (tracked.step command) (ended_step tracked ended command)

/-- A client that only reads comes to the end, or is interrupted on the way. -/
theorem reads_end (inherits : Inherits files (fun _ entry => entry.Grounded files) start client)
    {count : Nat} (enough : client.walk.load files < count) :
    (client.run (List.replicate count .read)).ended = true ∨
      (client.run (List.replicate count .read)).interrupted = true := by
  induction count generalizing client with
  | zero => exact absurd enough (Nat.not_lt_zero _)
  | succ count ih =>
    rw [List.replicate_succ, Client.run_cons]
    by_cases stopped : client.interrupted = true
    · right
      rwa [Client.step_of_interrupted stopped, Client.run_of_interrupted stopped]
    have moves := Client.step_cases inherits.tracked.isOpen (by simpa using stopped) .read
    have inherits' := inherits.step (passes_grounded start.options.logical)
      (rfl : Command.leavesFiles .read = true)
    generalize client.step .read = client' at moves inherits'
    cases moves with
    | stop =>
      right
      rw [Client.run_of_interrupted rfl]
    | exhausted =>
      left
      exact ended_run inherits'.tracked rfl _
    | read reads =>
      refine ih inherits' ?_
      have less := load_lt_of_reads inherits.holds inherits.wears reads
      exact Nat.lt_of_lt_of_le less (Nat.le_of_lt_succ enough)

end Reading

end Walk
end DirList
