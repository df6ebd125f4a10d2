import DirList.Proofs.FileSystem.Nesting
import DirList.Proofs.Walk.Cycle
import DirList.Proofs.Walk.Ending
import DirList.Proofs.Walk.Uninterrupted

/-!
# Physical walks

A walk that follows no links goes down through nested directories, so that it meets none of them
again.

Results:
1. `passes_placed`: going down, the places of directories come down as well.
2. `ne_cycle_of_physical`: so a walk that follows no links reports no cycle.
3. `walk_cycles`: what a walk does about cycles, and that it ends.
-/

namespace DirList.Walk

open FileSystem

variable {files : FileSystem}

/-- `Placed files rank entry`: the entry is no cycle, and if it is a directory then its path leads
to a place below those of the directories above. -/
structure Placed (files : FileSystem) (rank : NodeId → Nat) (entry : Entry) : Prop where
  path : entry.accessPath ≠ ""
  acyclic : entry.kind ≠ .cycle
  place : entry.kind = .directory → ∃ found, files.LeadsTo true entry.accessPath found ∧
    entry.status = some (files.node (found.headD root)).status ∧
    ∀ above ∈ entry.ancestors, ∃ id ∈ files.places,
      above.fileId = some (files.node id).status.fileId ∧ rank (found.headD root) < rank id

/-- Where a directory is found, links may be followed. -/
theorem leadsTo_of_directory (sound : files.IsSound) {followLinks : Bool} {path : String}
    {found : List NodeId} (leads : files.LeadsTo followLinks path found)
    (directory : (files.node (found.headD root)).status.fileType = .directory) :
    files.LeadsTo true path found := by
  refine Leads.through leads ?_
  have listed := sound.typed _ directory
  unfold Node.isDirectory Node.entries? at listed
  unfold Node.target?
  cases content : (files.node (found.headD root)).content with
  | directory | leaf => rfl
  | symlink =>
    rw [content] at listed
    cases listed

/-- A directory or a cycle in a directory was classified at a place below it. -/
theorem exists_place (sound : files.IsSound) {rank : NodeId → Nat}
    (nested : ∀ id entries, (files.node id).entries? = some entries →
      ∀ found ∈ entries, rank found.2 < rank id)
    {directory entry : Entry} {serial : Nat} {entries : List Entry} {found : List NodeId}
    (path : directory.accessPath ≠ "") (leads : files.LeadsTo true directory.accessPath found)
    (listing : Listing files false directory serial entries) (member : entry ∈ entries)
    (special : entry.kind = .directory ∨ entry.kind = .cycle) :
    ∃ found', files.LeadsTo true entry.accessPath found' ∧
      entry.status = some (files.node (found'.headD root)).status ∧
      entry.kind = kindOf entry.ancestors (files.node (found'.headD root)).status ∧
      found'.headD root ∈ files.places ∧ rank (found'.headD root) < rank (found.headD root) := by
  have child := listing.child entry member
  obtain ⟨found₁, names, leads₁, listed₁, named⟩ := listing.listed entry member special
  cases leads.unique leads₁
  obtain ⟨⟨name, id⟩, among, same⟩ := List.mem_map.mp named
  have isName : Path.IsName entry.name := by
    rw [← same]
    exact sound.named _ _ listed₁ _ among
  cases listing.found entry member with
  | unasked no | lost no | dangling no | dot no => simp [no] at special
  | @classified status found' is known leads' same =>
    subst same
    have typed : (files.node (found'.headD root)).status.fileType = .directory := by
      rcases special with directory | cycle
      · exact (kindOf_eq_directory.mp (is.symm.trans directory)).1
      · exact (kindOf_eq_cycle.mp (is.symm.trans cycle)).1
    refine ⟨found', leadsTo_of_directory sound leads' typed, known, is,
      leads'.headD_mem_places, ?_⟩
    have leads'' := leads'
    rw [child.accessPath] at leads''
    obtain ⟨entries', id', listed', member', here⟩ := leads.child path isName leads''
    rw [here]
    exact nested _ _ listed' _ member'

theorem passes_placed (sound : files.IsSound) (own : files.HasOwnIds) {rank : NodeId → Nat}
    (nested : ∀ id entries, (files.node id).entries? = some entries →
      ∀ found ∈ entries, rank found.2 < rank id) :
    Passes files false fun _ entry => Placed files rank entry where
  later := fun _ placed => placed
  down := by
    intro events directory serial entries _ kind placed listing entry member
    obtain ⟨found, leads, status, above⟩ := placed.place kind
    have child := listing.child entry member
    have path : entry.accessPath ≠ "" := by
      rw [child.accessPath]
      exact Path.join_ne_empty placed.path _
    -- What is below the directory is below all that the directory is below.
    have lower : ∀ {found' : List NodeId}, rank (found'.headD root) < rank (found.headD root) →
        ∀ other ∈ entry.ancestors, ∃ id ∈ files.places,
          other.fileId = some (files.node id).status.fileId ∧
          rank (found'.headD root) < rank id := by
      intro found' less other inside
      rw [child.ancestors] at inside
      rcases List.mem_cons.mp inside with rfl | higher
      · refine ⟨_, leads.headD_mem_places, ?_, less⟩
        rw [Entry.asAncestor, status]
        rfl
      · obtain ⟨id, place, same, less'⟩ := above other higher
        exact ⟨id, place, same, less.trans less'⟩
    refine ⟨path, fun cycle => ?_, fun directory => ?_⟩
    · -- A cycle would be the same node as one above it, and lower than that.
      obtain ⟨found', _, _, is, place, less⟩ :=
        exists_place sound nested placed.path leads listing member (.inr cycle)
      obtain ⟨_, other, inside, same⟩ := kindOf_eq_cycle.mp (is.symm.trans cycle)
      obtain ⟨id, place', same', less'⟩ := lower less other inside
      have equal := own _ place _ place' (Option.some.inj (same.symm.trans same'))
      rw [equal] at less'
      exact Nat.lt_irrefl _ less'
    · obtain ⟨found', leads', status', _, _, less⟩ :=
        exists_place sound nested placed.path leads listing member (.inl directory)
      exact ⟨found', leads', status', lower less⟩

theorem placed_root (sound : files.IsSound) (rank : NodeId → Nat) {followLinks : Bool}
    {root : Entry} (path : root.accessPath ≠ "") (ancestors : root.ancestors = [])
    (found : root.Found files followLinks) : Placed files rank root := by
  refine ⟨path, fun cycle => ?_, fun directory => ?_⟩
  · cases found with
    | unasked no | lost no | dangling no | dot no => simp [no] at cycle
    | classified is =>
      obtain ⟨_, _, above, _⟩ := kindOf_eq_cycle.mp (is.symm.trans cycle)
      rw [ancestors] at above
      exact nomatch above
  · cases found with
    | unasked no | lost no | dangling no | dot no => simp [no] at directory
    | classified is known leads same =>
      subst same
      obtain ⟨typed, _⟩ := kindOf_eq_directory.mp (is.symm.trans directory)
      refine ⟨_, leadsTo_of_directory sound leads typed, known, ?_⟩
      rw [ancestors]
      exact fun _ no => nomatch no

/-- In a sound file system where no two nodes share their pair, a walk that does not follow links
reports no cycle. -/
theorem ne_cycle_of_physical {serial : Nat} {paths : List String} {options : WalkOptions}
    {comparator : Option Comparator} {client : Client} {commands : List Command}
    (started : Client.start? files serial paths options comparator = some client)
    (leaves : ∀ command ∈ commands, command.leavesFiles = true) (physical : options.logical = false)
    (sound : files.IsSound) (own : files.HasOwnIds) :
    ∀ event ∈ (client.run commands).events, event.kind ≠ .cycle := by
  intro event member
  obtain ⟨rank, nested⟩ := sound.nested
  obtain ⟨starts, -, -⟩ := Client.start?_eq_some started
  have passes : Passes files options.logical fun _ entry => Placed files rank entry := by
    rw [physical]
    exact passes_placed sound own nested
  have placed : Inherits files (fun _ entry => Placed files rank entry) client.walk
      (client.run commands) := by
    refine .ofStart started passes (fun roots root member => ?_) leaves
    exact placed_root sound rank (starts.nonempty _ (roots.path root member))
      (roots.ancestors root member) (roots.found root member)
  rcases placed.events event member with good | ⟨_, _, _, rfl | ⟨_, rfl⟩⟩
  · exact good.acyclic
  · simp [finished]
  · simp [refused]

/-! ## Cycles and ends -/

/-- Without interrupts in the file system, reading on comes to the end. -/
theorem ended_of_calm {serial : Nat} {paths : List String} {options : WalkOptions}
    {comparator : Option Comparator} {client : Client} {commands : List Command} {count : Nat}
    (started : Client.start? files serial paths options comparator = some client)
    (leaves : ∀ command ∈ commands, command.leavesFiles = true) (calm : files.IsCalm)
    (either : ((client.run commands).run (List.replicate count .read)).ended = true ∨
      ((client.run commands).run (List.replicate count .read)).interrupted = true) :
    ((client.run commands).run (List.replicate count .read)).ended = true := by
  have fresh : client.interrupted = false := by
    obtain ⟨-, -, begun⟩ := Client.start?_eq_some started
    rw [begun]
    rfl
  have atStart : Inherits files (fun _ entry => entry.Grounded files) client.walk client :=
    .ofStart started (passes_grounded _) (fun roots => roots.grounded) (List.forall_mem_nil _)
  have running : (client.run (commands ++ List.replicate count .read)).interrupted = false := by
    refine Client.run_uninterrupted calm (passes_grounded _) atStart fresh fun command member => ?_
    rcases List.mem_append.mp member with before | after
    · exact leaves command before
    · rw [List.eq_of_mem_replicate after]
      rfl
  rw [Client.run_append] at running
  rcases either with ended | stopped
  · exact ended
  · cases running.symm.trans stopped

/-- While a client leaves the file system alone:

1. A directory is reported only if it differs from all directories above it.
2. A directory that is one of those above it is read as a cycle, or as `.` or `..`, and nothing
   below it is reported.
3. No event is deeper than there are pairs of device and number.
4. Reading on comes to the end, within the budget of the walk, unless it is interrupted, and without
   interrupts in the file system it is not.
5. In a sound file system where no two nodes share their pair, a walk that does not follow links
   reports no cycle. -/
theorem walk_cycles {files : FileSystem} {serial : Nat} {paths : List String}
    {options : WalkOptions} {comparator : Option Comparator} {client : Client}
    {commands : List Command}
    (started : Client.start? files serial paths options comparator = some client)
    (leaves : ∀ command ∈ commands, command.leavesFiles = true) :
    let later := client.run commands
    let final := later.run (List.replicate (later.walk.budget later.files + 1) .read)
    (∀ event ∈ later.events, event.kind = .directory → ∃ status, event.status = some status ∧
      ∀ above ∈ event.ancestors, above.fileId ≠ some status.fileId) ∧
    (∀ entry, entry ∈ later.events ∨ (∃ turn ∈ later.turns, entry ∈ turn.listing.getD []) →
      ∀ status, entry.status = some status → status.fileType = .directory →
        (∃ above ∈ entry.ancestors, above.fileId = some status.fileId) →
        entry.kind = .cycle ∨ entry.kind = .dot ∧ (entry.name = "." ∨ entry.name = "..")) ∧
    (∀ event ∈ later.events, event.kind = .cycle ∨ event.kind = .dot →
      ∀ below ∈ later.events, ∀ above ∈ below.ancestors, above.serial ≠ event.serial) ∧
    (∀ event ∈ later.events, event.level ≤ files.fileIds.card) ∧
    (final.ended = true ∨ final.interrupted = true) ∧
    (files.IsCalm → final.ended = true) ∧
    (options.logical = false → files.IsSound → files.HasOwnIds →
      ∀ event ∈ later.events, event.kind ≠ .cycle) := by
  intro later final
  have grounded : Inherits files (fun _ entry => entry.Grounded files) client.walk later :=
    .ofStart started (passes_grounded _) (fun roots => roots.grounded) leaves
  have beneath : Inherits files (fun events entry => entry.Grounded files ∧ Beneath events entry)
      client.walk later := by
    refine .ofStart started ((passes_grounded _).and (passes_beneath _)) ?_ leaves
    intro roots root member
    refine ⟨roots.grounded root member, ?_⟩
    rw [Beneath, roots.ancestors root member]
    exact List.forall_mem_nil _
  have enough : later.walk.load files < later.walk.budget later.files + 1 :=
    Nat.lt_succ_of_le (load_le_budget grounded.wears)
  refine ⟨?_, ?_, ?_, ?_, ?_, ?_, ?_⟩
  · exact fun event member => differs_of_directory grounded member
  · exact fun entry given status known => kind_of_repeated grounded given known
  · intro event member kind below member'
    refine not_above_of_single beneath member ?_ ?_ member'
    · rcases kind with kind | kind <;> simp [kind]
    · rcases kind with kind | kind <;> simp [kind, isClosing]
  · exact fun event member => level_le_of_event grounded member
  · exact reads_end grounded enough
  · exact fun calm => ended_of_calm started leaves calm (reads_end grounded enough)
  · exact ne_cycle_of_physical started leaves

/-- A walk that follows the link from `d` to itself meets a cycle; one that does not follow it meets
none. -/
theorem walk_cycles_sample :
    (∃ client, Client.start? Client.sampleFiles 0 ["d"] { physical := false } none = some client ∧
      (client.run (List.replicate 6 .read)).events.map Entry.kind =
        [.directory, .file, .cycle, .directory, .finished, .finished] ∧
      ∀ event ∈ (client.run (List.replicate 6 .read)).events,
        event.level ≤ Client.sampleFiles.fileIds.card) ∧
    ∃ client, Client.start? Client.sampleFiles 0 ["d"] {} none = some client ∧
      ∀ event ∈ (client.run (List.replicate 6 .read)).events, event.kind ≠ .cycle := by
  have leaves : ∀ command ∈ List.replicate 6 Command.read, command.leavesFiles = true := by
    intro command member
    rw [List.eq_of_mem_replicate member]
    rfl
  have logical : (Client.start? Client.sampleFiles 0 ["d"] { physical := false } none).map
      (fun client => (client.run (List.replicate 6 .read)).events.map Entry.kind) =
      some [.directory, .file, .cycle, .directory, .finished, .finished] := by
    decide +kernel
  have physical : (Client.start? Client.sampleFiles 0 ["d"] {} none).isSome = true := by
    decide +kernel
  have sound : Client.sampleFiles.IsSound := by
    have name : Path.IsName "d" ∧ Path.IsName "x" ∧ Path.IsName "l" ∧ Path.IsName "e" := by
      refine ⟨?_, ?_, ?_, ?_⟩ <;> constructor <;> decide
    refine isSound_ofTree ?_
    simp only [Client.sampleTree, Tree.IsProper, Tree.AreProper, Tree.name, name]
    decide
  have own : Client.sampleFiles.HasOwnIds := by
    unfold FileSystem.HasOwnIds
    decide +kernel
  obtain ⟨first, started, kinds⟩ := Option.map_eq_some_iff.mp logical
  obtain ⟨second, started'⟩ := Option.isSome_iff_exists.mp physical
  obtain ⟨-, -, -, levels, -, -, -⟩ := walk_cycles started leaves
  obtain ⟨-, -, -, -, -, -, acyclic⟩ := walk_cycles started' leaves
  exact ⟨⟨first, started, kinds, levels⟩, second, started', acyclic rfl sound own⟩

end DirList.Walk
