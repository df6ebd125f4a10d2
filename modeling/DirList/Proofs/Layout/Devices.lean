import DirList.Proofs.Layout.Fields

/-!
# Sizes beside devices

In a directory with devices, the sizes of its other entries are moved to the end of a column that is
as wide as the numbers of most devices: a major and a minor number of three digits each. The column
is widened for large sizes but not for large numbers, and the numbers of a device are not moved to
the end of a wider one. So sizes and devices have one width only where both need the same room.

Results:
1. `length_sizeText`: the length of what stands in the size column.
2. `length_sizeText_eq_iff`: where a size and a device have one width.
3. `sizes_beside_devices`: the size column of a directory with a device.
4. `exists_uneven`: a directory where it has two widths.
-/

namespace DirList

open FileSystem

/-! ## Numbers of devices -/

theorem length_decimal_le_iff {number : Int} {count : Nat} (natural : 0 ≤ number)
    (some : 0 < count) : (decimal number).length ≤ count ↔ number < 10 ^ count := by
  obtain ⟨n, rfl⟩ := Int.eq_ofNat_of_zero_le natural
  rw [decimal, if_neg (Int.not_lt.mpr natural)]
  refine (length_digits_le_iff some).trans ?_
  rw [Int.toNat_natCast]
  norm_cast

theorem widest_le {numbers : List Int} {count : Nat} (some : 0 < count)
    (small : ∀ number ∈ numbers, number < 10 ^ count) : Descriptor.widest numbers ≤ count := by
  obtain ⟨inside, above⟩ := isGreatest_foldl_max 0 numbers
  refine (length_decimal_le_iff (above (.inl rfl)) some).mpr ?_
  rcases inside with none | member
  · rw [none]
    positivity
  · exact small _ member

namespace Status

theorem majorNumber_nonneg (status : Status) : 0 ≤ status.majorNumber := by
  unfold majorNumber
  omega

theorem minorNumber_nonneg (status : Status) : 0 ≤ status.minorNumber := by
  unfold minorNumber
  omega

/-- The number of digits by which the numbers of a device are longer than their fields. -/
def deviceExcess (status : Status) : Nat :=
  ((decimal status.majorNumber).length - 3) + ((decimal status.minorNumber).length - 3)

theorem length_deviceLabel (status : Status) :
    status.deviceLabel.length = Layout.deviceWidth + status.deviceExcess := by
  have comma : ", ".length = 2 := rfl
  unfold deviceLabel deviceExcess Layout.deviceWidth
  rw [String.length_append, String.length_append, length_padLeft, length_padLeft]
  omega

/-- The numbers of a device fit if they are less than a thousand. -/
theorem deviceExcess_eq_zero_iff (status : Status) :
    status.deviceExcess = 0 ↔ status.majorNumber < 1000 ∧ status.minorNumber < 1000 := by
  have major := length_decimal_le_iff status.majorNumber_nonneg (by decide : 0 < 3)
  have minor := length_decimal_le_iff status.minorNumber_nonneg (by decide : 0 < 3)
  rw [show (1000 : Int) = 10 ^ 3 by rfl, ← major, ← minor]
  unfold deviceExcess
  omega

end Status

namespace Layout

/-! ## The size column -/

section Column

variable {config : Config} {descriptor : Descriptor}

/-- What stands in the size column of a directory with a device. -/
def sizeText (descriptor : Descriptor) (status : Status) : String :=
  if status.fileType.isDevice then status.deviceLabel
  else padLeft (max deviceWidth descriptor.sizeWidth) (decimal status.size)

theorem sizeField_eq (device : descriptor.hasDevice = true) (status : Status) :
    sizeField descriptor status = sizeText descriptor status ++ " " := by
  rw [sizeField, device, sizeText]
  split <;> rfl

/-- The numbers of a device take the room they need, and a size takes the width of the column. -/
theorem length_sizeText {status : Status}
    (fits : (decimal status.size).length ≤ descriptor.sizeWidth) :
    (sizeText descriptor status).length =
      if status.fileType.isDevice then deviceWidth + status.deviceExcess
      else max deviceWidth descriptor.sizeWidth := by
  unfold sizeText
  split
  · exact status.length_deviceLabel
  · exact (length_padded (fits.trans (Nat.le_max_right _ _))).1

/-- A size and a device have one width if the largest size exceeds the usual width by as much as the
numbers of the device do. -/
theorem length_sizeText_eq_iff {plain device : Status}
    (fits : (decimal plain.size).length ≤ descriptor.sizeWidth)
    (sized : plain.fileType.isDevice = false) (numbered : device.fileType.isDevice = true) :
    (sizeText descriptor plain).length = (sizeText descriptor device).length ↔
      descriptor.sizeWidth - deviceWidth = device.deviceExcess := by
  rw [length_sizeText fits, sized, if_neg Bool.false_ne_true]
  unfold sizeText
  rw [if_pos numbered, device.length_deviceLabel]
  omega

/-- `ShowsSize config descriptor now item row text`: the row is a line of the item, and the text is
what stands in its size column. -/
inductive ShowsSize (config : Config) (descriptor : Descriptor) (now : Moment) (item : Item)
    (row : String) : String → Prop
  | field {status : Status} {fields : List String} :
      item.entry.status = some status → IsLineOf config descriptor now item fields row →
      fields[7]? = some (sizeText descriptor status ++ " ") →
      ShowsSize config descriptor now item row (sizeText descriptor status)

theorem IsLineOf.showsSize (device : descriptor.hasDevice = true) {now : Moment} {item : Item}
    {fields : List String} {row : String} (line : IsLineOf config descriptor now item fields row) :
    ∃ status, item.entry.status = some status ∧
      ShowsSize config descriptor now item row (sizeText descriptor status) := by
  cases line with
  | @line status field target known timed =>
    exact ⟨status, known, .field known (.line target known timed)
      (congrArg some (sizeField_eq device status))⟩

end Column

section Collected

variable {config : Config} {parent : Option Entry} {entries : Option (List Entry)}
  {descriptor : Descriptor} {session session' : Session}
  (collected : Settles (Descriptor.collect config parent entries) session
    (.ok (some descriptor)) session')
  (long : config.isLong = true)

include collected long

theorem hasDevice_of_collect {status : Status}
    (shown : status ∈ Descriptor.visibleStatuses descriptor.items)
    (device : status.fileType.isDevice = true) : descriptor.hasDevice = true := by
  obtain ⟨items, _, -, rfl, -⟩ := measured_of_collect collected
  exact Bool.and_eq_true_iff.mpr ⟨long, List.any_eq_true.mpr ⟨status, shown, device⟩⟩

theorem sizeWidth_of_collect :
    descriptor.sizeWidth =
      Descriptor.widest ((Descriptor.visibleStatuses descriptor.items).map Status.size) := by
  obtain ⟨items, _, -, rfl, -⟩ := measured_of_collect collected
  exact if_pos (by simp [Config.needsStatus, long])

/-- In the long lines of a directory with a device, a size and a device have one width exactly if
the largest size exceeds the usual width by as much as the numbers of the device do. All sizes and
devices have the usual width if sizes have no more than eight digits and numbers no more than
three. -/
theorem sizes_beside_devices
    (device : ∃ status ∈ Descriptor.visibleStatuses descriptor.items,
      status.fileType.isDevice = true)
    (natural : ∀ status ∈ Descriptor.visibleStatuses descriptor.items,
      status.fileType.isDevice = false → 0 ≤ status.size)
    (writing : Session) :
    (∃ answer written shown rows,
      (Renderer.long.render config descriptor).run.run writing = (answer, written) ∧
      written.output = writing.output ++ (totalLine config descriptor ++ lines rows) ∧
      shown <+: Descriptor.visibleItems descriptor.items ∧
      (answer = .ok () → shown = Descriptor.visibleItems descriptor.items) ∧
      List.Forall₂ (fun item row => ∃ status, item.entry.status = some status ∧
        ShowsSize config descriptor writing.world.now.measured item row
          (sizeText descriptor status)) shown rows) ∧
    (∀ status ∈ Descriptor.visibleStatuses descriptor.items,
      ∀ status' ∈ Descriptor.visibleStatuses descriptor.items,
      status.fileType.isDevice = false →
      ((sizeText descriptor status).length = (sizeText descriptor status').length ↔
        (status'.fileType.isDevice = true →
          descriptor.sizeWidth - deviceWidth = status'.deviceExcess))) ∧
    ((∀ status ∈ Descriptor.visibleStatuses descriptor.items, status.size < 10 ^ 8 ∧
        (status.fileType.isDevice = true →
          status.majorNumber < 1000 ∧ status.minorNumber < 1000)) →
      ∀ status ∈ Descriptor.visibleStatuses descriptor.items,
        (sizeText descriptor status).length = deviceWidth) := by
  obtain ⟨device, inside, numbered⟩ := device
  have width := sizeWidth_of_collect collected long
  have fits : ∀ status ∈ Descriptor.visibleStatuses descriptor.items,
      status.fileType.isDevice = false →
      (decimal status.size).length ≤ descriptor.sizeWidth := by
    intro status shown sized
    rw [width]
    exact length_decimal_le_widest (natural status shown sized) (List.mem_map_of_mem shown)
  refine ⟨?_, fun status shown status' shown' sized => ?_, fun small status shown => ?_⟩
  · obtain ⟨answer, written, shown, rows, ran, output, each, first, all⟩ :=
      run_long config descriptor writing
    refine ⟨answer, written, shown, rows, ran, output, first, all, each.imp ?_⟩
    rintro item row ⟨fields, line⟩
    exact line.showsSize (hasDevice_of_collect collected long inside numbered)
  · cases numbered' : status'.fileType.isDevice with
    | true =>
      rw [length_sizeText_eq_iff (fits status shown sized) sized numbered']
      exact ⟨fun same _ => same, fun same => same rfl⟩
    | false =>
      rw [length_sizeText (fits status shown sized), sized,
        length_sizeText (fits status' shown' numbered'), numbered']
      exact ⟨fun _ => nofun, fun _ => rfl⟩
  · have narrow : descriptor.sizeWidth ≤ deviceWidth := by
      rw [width]
      refine widest_le (by decide) fun size member => ?_
      obtain ⟨other, inside', rfl⟩ := List.mem_map.mp member
      exact (small other inside').1
    cases numbered' : status.fileType.isDevice with
    | true =>
      have none := (status.deviceExcess_eq_zero_iff).mpr ((small status shown).2 numbered')
      rw [sizeText, if_pos numbered', status.length_deviceLabel, none, Nat.add_zero]
    | false =>
      rw [length_sizeText (fits status shown numbered'), numbered', if_neg Bool.false_ne_true,
        max_eq_left narrow]

end Collected

/-! ## Samples -/

/-- An entry for a device. -/
def deviceEntry (name : String) (number : Int) : Entry :=
  let entry := sizedEntry name .other 0o020620 0 none 0
  { entry with status := entry.status.map fun status => { status with deviceNumber := number } }

/-- Long lines without more. -/
def plainLines : Config :=
  { displayMode := DisplayMode.long }

/-- The descriptor of entries in long lines. -/
def plainDescriptor (entries : List Entry) : Descriptor :=
  .measure plainLines (some default)
    (entries.map fun entry => ⟨entry, true, some ⟨"0", "0", none⟩⟩)

/-- The session in which they were measured. -/
def plainSession (entries : List Entry) : Session :=
  ((Descriptor.collect plainLines (some default) (some entries)).run.run default).2

/-- A file whose size has nine digits, a device with a number of four, and one with small numbers.
-/
def largeEntries : List Entry :=
  [sizedEntry "f" .file 0o100644 123456789 (some 0) 0, deviceEntry "pts" 0x408800,
    deviceEntry "null" 0x103]

/-- The size is as wide as the numbers of the first device, but not as those of the second. -/
theorem sizes_beside_devices_sample :
    Settles (Descriptor.collect plainLines (some default) (some largeEntries)) default
      (.ok (some (plainDescriptor largeEntries))) (plainSession largeEntries) ∧
    (∃ status ∈ Descriptor.visibleStatuses (plainDescriptor largeEntries).items,
      status.fileType.isDevice = true) ∧
    (∀ status ∈ Descriptor.visibleStatuses (plainDescriptor largeEntries).items,
      status.fileType.isDevice = false → 0 ≤ status.size) ∧
    ((Renderer.long.render plainLines (plainDescriptor largeEntries)).run.run default).2.output =
      "total 0\n" ++
      "-rw-r--r--  1 0  0  123456789 Jan  1 00:00 f\n" ++
      "crw--w----  1 0  0  136, 1024 Jan  1 00:00 pts\n" ++
      "crw--w----  1 0  0    1,   3 Jan  1 00:00 null\n" ∧
    ∃ plain wide small,
      Descriptor.visibleStatuses (plainDescriptor largeEntries).items = [plain, wide, small] ∧
      (sizeText (plainDescriptor largeEntries) plain).length =
        (sizeText (plainDescriptor largeEntries) wide).length ∧
      (sizeText (plainDescriptor largeEntries) plain).length ≠
        (sizeText (plainDescriptor largeEntries) small).length := by
  have collected : Settles (Descriptor.collect plainLines (some default) (some largeEntries))
    default (.ok (some (plainDescriptor largeEntries))) (plainSession largeEntries) := rfl
  have device : ∃ status ∈ Descriptor.visibleStatuses (plainDescriptor largeEntries).items,
    status.fileType.isDevice = true := by decide +kernel
  have natural : ∀ status ∈ Descriptor.visibleStatuses (plainDescriptor largeEntries).items,
    status.fileType.isDevice = false → 0 ≤ status.size := by decide +kernel
  obtain ⟨-, same, -⟩ := sizes_beside_devices collected rfl device natural default
  refine ⟨collected, device, natural, by decide +kernel, _, _, _, rfl, ?_, ?_⟩
  · refine (same _ List.mem_cons_self _ (List.mem_cons_of_mem _ List.mem_cons_self) rfl).mpr ?_
    decide +kernel
  · refine mt (same _ List.mem_cons_self _ ?_ rfl).mp (by decide +kernel)
    exact List.mem_cons_of_mem _ (List.mem_cons_of_mem _ List.mem_cons_self)

/-- A small file beside a device with a number of four digits. -/
def smallEntries : List Entry :=
  [sizedEntry "f" .file 0o100644 5 (some 0) 0, deviceEntry "pts" 0x408800]

/-- Not all sizes are as wide as the devices beside them. -/
theorem exists_uneven :
    Settles (Descriptor.collect plainLines (some default) (some smallEntries)) default
      (.ok (some (plainDescriptor smallEntries))) (plainSession smallEntries) ∧
    (∀ status ∈ Descriptor.visibleStatuses (plainDescriptor smallEntries).items,
      0 ≤ status.size) ∧
    ((Renderer.long.render plainLines (plainDescriptor smallEntries)).run.run default).2.output =
      "total 0\n" ++
      "-rw-r--r--  1 0  0         5 Jan  1 00:00 f\n" ++
      "crw--w----  1 0  0  136, 1024 Jan  1 00:00 pts\n" ∧
    ∃ plain ∈ Descriptor.visibleStatuses (plainDescriptor smallEntries).items,
      ∃ device ∈ Descriptor.visibleStatuses (plainDescriptor smallEntries).items,
        plain.fileType.isDevice = false ∧ device.fileType.isDevice = true ∧
        (sizeField (plainDescriptor smallEntries) plain).length ≠
          (sizeField (plainDescriptor smallEntries) device).length :=
  ⟨rfl, by decide +kernel, by decide +kernel, by decide +kernel⟩

end Layout
end DirList
