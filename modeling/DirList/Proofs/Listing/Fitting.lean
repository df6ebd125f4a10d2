import DirList.Proofs.Listing.Measuring

/-!
# What is measured fits

The columns of a measured directory are as wide as the entries that are shown in them need, whatever
was looked up on the way and whether an entry has a status or not.

Results:
1. `annotated_of_judge`: in long lines, every shown entry with a status has names.
2. `fits_of_collect`, `fitsLong_of_collect`: what is shown fits into the columns.
-/

namespace DirList

open FileSystem

/-! ## Widths -/

theorem length_zero_le_widest (numbers : List Int) :
    (decimal 0).length ≤ Descriptor.widest numbers :=
  length_decimal_mono le_rfl ((isGreatest_foldl_max 0 numbers).2 (.inl rfl))

theorem length_decimal_le_widest {numbers : List Int} {number : Int} (natural : 0 ≤ number)
    (member : number ∈ numbers) : (decimal number).length ≤ Descriptor.widest numbers :=
  length_decimal_mono natural ((isGreatest_foldl_max 0 numbers).2 (.inr member))

theorem length_le_longest {texts : List String} {text : String} (member : text ∈ texts) :
    text.length ≤ Descriptor.longest texts :=
  (isWidest_longest texts).2 (.inr ⟨text, member, rfl⟩)

/-! ## Judged entries -/

section Judging

variable {config : Config} {parent : Option Entry} {session session' : Session}

/-- What holds of every entry that is judged holds of all of them. -/
theorem forall_of_judgeAll {holds : Item → Prop}
    (each : ∀ {entry : Entry} {item : Item} {session session' : Session},
      Settles (Descriptor.judge config parent entry) session (.ok item) session' → holds item)
    {entries : List Entry} {items : List Item}
    (settles : Settles (Descriptor.judgeAll config parent entries) session (.ok items) session') :
    ∀ item ∈ items, holds item := by
  induction entries generalizing session items with
  | nil =>
    cases settles
    exact List.forall_mem_nil _
  | cons entry rest ih =>
    obtain ⟨judged, middle, judges, settles⟩ := Settles.of_bind settles
    cases judged with
    | error => cases settles
    | ok item =>
      obtain ⟨others, _, judgesAll, settles⟩ := Settles.of_bind settles
      cases others with
      | error => cases settles
      | ok others =>
        cases settles
        exact List.forall_mem_cons.mpr ⟨each judges, ih judgesAll⟩

/-- In long lines, an entry that is shown and has a status has names. -/
theorem annotated_of_judge (long : config.isLong = true) {entry : Entry} {item : Item}
    (settles : Settles (Descriptor.judge config parent entry) session (.ok item) session') :
    item.visible = true → ∀ status, item.entry.status = some status →
      ∃ names, item.annotation = some names := by
  unfold Descriptor.judge at settles
  split at settles
  · obtain ⟨_, _, -, settles⟩ := Settles.of_bind settles
    cases settles
    exact nofun
  split at settles
  · cases settles
    exact nofun
  split at settles
  next missing =>
    cases settles
    exact fun _ status known => nomatch missing.symm.trans known
  dsimp only at settles
  split at settles
  · obtain ⟨_, _, no, -⟩ := Settles.of_bind settles
    cases no
  obtain ⟨names, _, -, settles⟩ := Settles.of_bind settles
  cases names with
  | error => cases settles
  | ok names =>
    cases settles
    exact fun _ _ _ => ⟨names, rfl⟩

end Judging

/-! ## Measured entries -/

namespace Descriptor

/-- `descriptor.Fits config entry`: the columns of a short layout are wide enough for the entry. -/
structure Fits (config : Config) (descriptor : Descriptor) (entry : Entry) : Prop where
  name : entry.name.length ≤ descriptor.nameWidth
  inode : config.showInode = true → (decimal entry.inode).length ≤ descriptor.inodeWidth
  blocks : config.showBlocks = true →
    (decimal (unitsOf config.blockSize entry.allocatedBytes)).length ≤ descriptor.blockWidth

/-- `descriptor.FitsLong status names`: the columns of a long layout are wide enough for the numbers
of the status and for the names. -/
structure FitsLong (descriptor : Descriptor) (status : Status) (names : Annotation) : Prop where
  links : (decimal status.links).length ≤ descriptor.linkWidth
  owner : names.owner.length ≤ descriptor.ownerWidth
  group : names.group.length ≤ descriptor.groupWidth
  flags : (names.flags.getD "").length ≤ descriptor.flagsWidth
  size : (decimal status.size).length ≤ descriptor.sizeWidth

section Measured

variable {config : Config} {parent : Option Entry} {entries : Option (List Entry)}
  {descriptor : Descriptor} {session session' : Session}

/-- What a number is that an entry shows: that of its status, or zero. -/
theorem length_decimal_shown {items : List Item} {item : Item} (shown : item ∈ visibleItems items)
    (number : Status → Int) (natural : ∀ status ∈ item.entry.status, 0 ≤ number status) :
    (decimal ((item.entry.status.map number).getD 0)).length ≤
      widest ((visibleStatuses items).map number) := by
  cases known : item.entry.status with
  | none => exact length_zero_le_widest _
  | some status =>
    refine length_decimal_le_widest (natural status known) (List.mem_map_of_mem ?_)
    exact List.mem_filterMap.mpr ⟨item, shown, known⟩

/-- What is shown fits into the columns of a short layout, if no number in its status is negative
and blocks are counted in amounts that are not negative. -/
theorem fits_of_collect
    (collected : Settles (collect config parent entries) session (.ok (some descriptor)) session')
    (counted : config.showBlocks = true → 0 ≤ config.blockSize) {item : Item}
    (shown : item ∈ visibleItems descriptor.items)
    (natural : ∀ status ∈ item.entry.status, status.IsNatural) :
    descriptor.Fits config item.entry := by
  obtain ⟨items, _, -, rfl, sized⟩ := measured_of_collect collected
  refine ⟨length_le_longest (List.mem_map_of_mem shown), fun wanted => ?_, fun wanted => ?_⟩
  · have needed : config.needsStatus = true := by simp [Config.needsStatus, wanted]
    have width : (measure config parent items).inodeWidth =
        widest ((visibleStatuses items).map Status.inode) := if_pos needed
    rw [width]
    exact length_decimal_shown shown Status.inode fun status known => (natural status known).inode
  · have needed : config.needsStatus = true := by simp [Config.needsStatus, wanted]
    have positive : 0 < config.blockSize := lt_of_le_of_ne (counted wanted) (sized needed).symm
    have width : (measure config parent items).blockWidth =
        widest ((visibleStatuses items).map fun status =>
          unitsOf config.blockSize status.allocatedBytes) := if_pos needed
    have same : unitsOf config.blockSize item.entry.allocatedBytes =
        (item.entry.status.map fun status =>
          unitsOf config.blockSize status.allocatedBytes).getD 0 := by
      unfold Entry.allocatedBytes
      cases item.entry.status <;> simp [unitsOf]
    rw [width, same]
    exact length_decimal_shown shown _ fun status known =>
      unitsOf_nonneg positive (natural status known).allocatedBytes

/-- What is shown with a status fits into the columns of a long layout. -/
theorem fitsLong_of_collect
    (collected : Settles (collect config parent entries) session (.ok (some descriptor)) session')
    (long : config.isLong = true) {item : Item} (shown : item ∈ visibleItems descriptor.items)
    {status : Status} (known : item.entry.status = some status) (natural : status.IsNatural) :
    ∃ names, item.annotation = some names ∧ descriptor.FitsLong status names := by
  obtain ⟨items, _, judges, rfl, -⟩ := measured_of_collect collected
  have needed : config.needsStatus = true := by simp [Config.needsStatus, long]
  obtain ⟨inside, visible⟩ := List.mem_filter.mp shown
  obtain ⟨names, annotated⟩ :=
    forall_of_judgeAll (annotated_of_judge long) judges item inside visible status known
  have named : names ∈ (visibleItems items).filterMap Item.annotation :=
    List.mem_filterMap.mpr ⟨item, shown, annotated⟩
  have member : status ∈ visibleStatuses items := List.mem_filterMap.mpr ⟨item, shown, known⟩
  refine ⟨names, annotated, ?_, length_le_longest (List.mem_map_of_mem named),
    length_le_longest (List.mem_map_of_mem named), ?_, ?_⟩
  · have width : (measure config parent items).linkWidth =
        widest ((visibleStatuses items).map Status.links) := if_pos needed
    rw [width]
    exact length_decimal_le_widest natural.links (List.mem_map_of_mem member)
  · cases flags : names.flags with
    | none => exact Nat.zero_le _
    | some flags' => exact length_le_longest (List.mem_filterMap.mpr ⟨names, named, flags⟩)
  · have width : (measure config parent items).sizeWidth =
        widest ((visibleStatuses items).map Status.size) := if_pos needed
    rw [width]
    exact length_decimal_le_widest natural.size (List.mem_map_of_mem member)

end Measured
end Descriptor
end DirList
