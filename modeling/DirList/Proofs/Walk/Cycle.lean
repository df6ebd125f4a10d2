import DirList.Proofs.Walk.Inheritance

/-!
# Cycles

A directory that is walked into differs, by device and number, from every directory above it. So a
walk cannot go deeper than there are such pairs, whatever links there are.

Results:
1. `passes_grounded`: along the directories above an entry no pair occurs twice.
2. `passes_beneath`: the directories above an entry were reported as directories.
3. `differs_of_directory`, `kind_of_repeated`: a directory is told from those above it, and one that
   is not is a cycle.
4. `level_le_of_event`: no event is deeper than there are pairs.
5. `not_above_of_single`: nothing is found below what is not reported as a directory.
-/

namespace DirList

open FileSystem

namespace Entry

/-- The pairs of the directories above, as a set. -/
def fileIdsAbove (entry : Entry) : Finset FileId :=
  (entry.ancestors.filterMap Ancestor.fileId).toFinset

/-- `Grounded files entry`: the entry was found in the file system, below directories of which each
has a pair and no two have the same one. -/
structure Grounded (files : FileSystem) (entry : Entry) : Prop where
  found : ∃ followLinks, entry.Found files followLinks
  level : entry.level = entry.ancestors.length
  above : ∃ ids : List FileId, entry.ancestors.map Ancestor.fileId = ids.map some ∧ ids.Nodup ∧
    ∀ id ∈ ids, id ∈ files.fileIds

variable {files : FileSystem} {entry : Entry}

theorem fileIdsAbove_eq {ids : List FileId}
    (above : entry.ancestors.map Ancestor.fileId = ids.map some) :
    entry.fileIdsAbove = ids.toFinset := by
  have same : entry.ancestors.filterMap Ancestor.fileId = ids := by
    calc entry.ancestors.filterMap Ancestor.fileId
      _ = (entry.ancestors.map Ancestor.fileId).filterMap id := by
        rw [List.filterMap_map]
        rfl
      _ = (ids.map some).filterMap id := by rw [above]
      _ = ids := by
        rw [List.filterMap_map]
        exact List.filterMap_some
  rw [fileIdsAbove, same]

namespace Grounded

theorem fileIdsAbove_subset (grounded : entry.Grounded files) :
    entry.fileIdsAbove ⊆ files.fileIds := by
  obtain ⟨ids, above, _, known⟩ := grounded.above
  rw [fileIdsAbove_eq above]
  exact fun id member => known id (List.mem_toFinset.mp member)

/-- There are as many pairs as directories above. -/
theorem card_fileIdsAbove (grounded : entry.Grounded files) :
    entry.fileIdsAbove.card = entry.ancestors.length := by
  obtain ⟨ids, above, nodup, _⟩ := grounded.above
  have length := congrArg List.length above
  rw [List.length_map, List.length_map] at length
  rw [fileIdsAbove_eq above, List.toFinset_card_of_nodup nodup, length]

/-- No entry is deeper than there are pairs. -/
theorem level_le (grounded : entry.Grounded files) : entry.level ≤ files.fileIds.card := by
  rw [grounded.level, ← grounded.card_fileIdsAbove]
  exact Int.ofNat_le.mpr (Finset.card_le_card grounded.fileIdsAbove_subset)

end Grounded
end Entry

namespace Walk

variable {files : FileSystem}

/-- The entries of a directory are below it and below those above it. -/
theorem grounded_of_isChildOf {directory entry : Entry} {followLinks : Bool}
    (grounded : directory.Grounded files) (kind : directory.kind = .directory)
    (child : directory.IsChildOf entry) (found : entry.Found files followLinks) :
    entry.Grounded files := by
  obtain ⟨_, foundAbove⟩ := grounded.found
  obtain ⟨status, known, -, member, differs⟩ := foundAbove.directory kind
  obtain ⟨ids, above, nodup, among⟩ := grounded.above
  refine ⟨⟨_, found⟩, ?_, status.fileId :: ids, ?_, ?_, ?_⟩
  · rw [child.level, grounded.level, child.ancestors]
    rfl
  · rw [child.ancestors, Entry.lineage, List.map_cons, List.map_cons, above, Entry.asAncestor,
      known]
    rfl
  · refine List.nodup_cons.mpr ⟨fun repeated => ?_, nodup⟩
    have repeated' : some status.fileId ∈ directory.ancestors.map Ancestor.fileId := by
      rw [above]
      exact List.mem_map_of_mem repeated
    obtain ⟨ancestor, inside, same⟩ := List.mem_map.mp repeated'
    exact differs ancestor inside same
  · intro id inside
    rcases List.mem_cons.mp inside with rfl | higher
    · exact member
    · exact among id higher

/-- Along the directories above an entry no pair occurs twice. -/
theorem passes_grounded (followLinks : Bool) :
    Passes files followLinks fun _ entry => entry.Grounded files where
  later := fun _ grounded => grounded
  down := fun _ kind grounded listing entry member =>
    grounded_of_isChildOf grounded kind (listing.child entry member) (listing.found entry member)

theorem Roots.grounded {followLinks : Bool} {serial : Nat} {paths : List String}
    {roots : List Entry} (read : Roots files followLinks serial paths roots) :
    ∀ root ∈ roots, root.Grounded files := by
  intro root member
  have ancestors := read.ancestors root member
  refine ⟨⟨_, read.found root member⟩, ?_, [], ?_, List.nodup_nil, fun _ no => nomatch no⟩
  · rw [read.level root member, ancestors]
    rfl
  · rw [ancestors]
    rfl

section Events

variable {start : Walk} {client : Client}

/-- A directory is reported only if it differs from all directories above it. -/
theorem differs_of_directory
    (grounded : Inherits files (fun _ entry => entry.Grounded files) start client) {event : Entry}
    (member : event ∈ client.events) (directory : event.kind = .directory) :
    ∃ status, event.status = some status ∧
      ∀ above ∈ event.ancestors, above.fileId ≠ some status.fileId := by
  rcases grounded.events event member with ⟨⟨_, found⟩, _, _⟩ | closes
  · obtain ⟨status, known, _, _, differs⟩ := found.directory directory
    exact ⟨status, known, differs⟩
  · have closing := closes.isClosing
    rw [directory] at closing
    cases closing

/-- A directory that is one of those above it is read as a cycle, or as `.` or `..`. -/
theorem kind_of_repeated
    (grounded : Inherits files (fun _ entry => entry.Grounded files) start client) {entry : Entry}
    (given : entry ∈ client.events ∨ ∃ turn ∈ client.turns, entry ∈ turn.listing.getD [])
    {status : Status} (known : entry.status = some status)
    (directory : status.fileType = .directory)
    (repeated : ∃ above ∈ entry.ancestors, above.fileId = some status.fileId) :
    entry.kind = .cycle ∨ entry.kind = .dot ∧ (entry.name = "." ∨ entry.name = "..") := by
  have good : entry.Grounded files ∨ Closes (Entry.Grounded files) entry := by
    rcases given with reported | ⟨turn, member, inside⟩
    · exact grounded.events entry reported
    · cases listed : turn.listing with
      | none =>
        rw [listed] at inside
        cases inside
      | some entries =>
        rw [listed] at inside
        exact .inl (grounded.listings turn member entries listed entry inside)
  rcases good with ⟨⟨_, found⟩, _, _⟩ | ⟨closed, kind, ⟨⟨_, found⟩, _, _⟩, same⟩
  · exact found.repeated known directory repeated
  · -- The directory whose visit ends here differs from those above it.
    obtain ⟨status', known', _, _, differs⟩ := found.directory kind
    have unchanged : entry.status = closed.status ∧ entry.ancestors = closed.ancestors := by
      rcases same with rfl | ⟨_, rfl⟩ <;> exact ⟨rfl, rfl⟩
    rw [unchanged.1] at known
    cases known.symm.trans known'
    rw [unchanged.2] at repeated
    obtain ⟨other, inside, equal⟩ := repeated
    exact absurd equal (differs other inside)

/-- No event is deeper than there are pairs. -/
theorem level_le_of_event
    (grounded : Inherits files (fun _ entry => entry.Grounded files) start client) {event : Entry}
    (member : event ∈ client.events) : event.level ≤ files.fileIds.card := by
  rcases grounded.events event member with good | ⟨_, _, good, rfl | ⟨_, rfl⟩⟩
  · exact good.level_le
  · exact good.level_le
  · exact good.level_le

end Events

/-- The directories above were reported as directories. -/
def Beneath (events : List Entry) (entry : Entry) : Prop :=
  ∀ above ∈ entry.ancestors, ∃ event ∈ events, event.kind = .directory ∧ event.asAncestor = above

theorem passes_beneath (followLinks : Bool) : Passes files followLinks Beneath where
  later := by
    intro events entry event beneath above member
    obtain ⟨reported, before, rest⟩ := beneath above member
    exact ⟨reported, List.mem_append_left _ before, rest⟩
  down := by
    intro events directory serial entries reported kind beneath listing entry member above inside
    rw [(listing.child entry member).ancestors] at inside
    rcases List.mem_cons.mp inside with rfl | higher
    · exact ⟨directory, reported, kind, rfl⟩
    · exact beneath above higher

/-- Both properties pass on together. -/
theorem Passes.and {followLinks : Bool} {P Q : List Entry → Entry → Prop}
    (first : Passes files followLinks P) (second : Passes files followLinks Q) :
    Passes files followLinks fun events entry => P events entry ∧ Q events entry where
  later := fun event both => ⟨first.later event both.1, second.later event both.2⟩
  down := fun reported kind both listing entry member =>
    ⟨first.down reported kind both.1 listing entry member,
      second.down reported kind both.2 listing entry member⟩

/-- Nothing is found below an event that is neither a directory nor the end of a visit. -/
theorem not_above_of_single {start : Walk} {client : Client}
    (inherits : Inherits files (fun events entry => entry.Grounded files ∧ Beneath events entry)
      start client) {event later : Entry} (reported : event ∈ client.events)
    (single : event.kind ≠ .directory) (opening : isClosing event.kind = false)
    (member : later ∈ client.events) : ∀ above ∈ later.ancestors, above.serial ≠ event.serial := by
  intro above inside same
  have beneath : Beneath client.events later := by
    rcases inherits.events later member with ⟨_, beneath⟩ | ⟨_, _, ⟨_, beneath⟩, rfl | ⟨_, rfl⟩⟩
    · exact beneath
    · exact beneath
    · exact beneath
  obtain ⟨directory, before, kind, rfl⟩ := beneath above inside
  have opens : ∀ entry, entry ∈ client.events → isClosing entry.kind = false →
      entry ∈ client.events.filter fun event => !isClosing event.kind :=
    fun entry member opening => List.mem_filter.mpr ⟨member, by simp [opening]⟩
  have nodup : client.numbers.Nodup :=
    inherits.tracked.numbered.nodup.sublist (List.sublist_append_left _ _)
  have equal := List.inj_on_of_nodup_map nodup (opens directory before (by rw [kind]; rfl))
    (opens event reported opening) same
  rw [equal] at kind
  exact single kind

end Walk
end DirList
