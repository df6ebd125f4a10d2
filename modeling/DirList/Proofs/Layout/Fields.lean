import DirList.Proofs.Layout.Tabs
import DirList.Proofs.Listing.Lines
import DirList.Proofs.Time.Labels

/-!
# Fields of long lines

A field of a long line is as wide as its column, or its length does not depend on what it shows. So
the fields of all lines of a directory without devices end at the same places, and their names start
at one place behind them.

Results:
1. `map_length_longFields`: the lengths of the fields of a line.
2. `long_aligned`: the fields of the lines of a directory.
3. `exists_jagged`: they do not end at the same places where blocks have a negative size.
-/

namespace DirList

open FileSystem

namespace Layout

/-! ## Lengths of fields -/

/-- The places where texts of given lengths end that follow one another. -/
def endsFrom : Nat → List Nat → List Nat
  | _, [] => []
  | place, length :: rest => (place + length) :: endsFrom (place + length) rest

/-- The lengths of the fields of a line, each with the blanks behind it. -/
def fieldLengths (config : Config) (descriptor : Descriptor) : List Nat :=
  [if config.showInode then descriptor.inodeWidth + 1 else 0,
   if config.showBlocks then descriptor.blockWidth + 1 else 0,
   12,
   descriptor.linkWidth + 1,
   descriptor.ownerWidth + 2,
   descriptor.groupWidth + 2,
   if config.showFlags then descriptor.flagsWidth + 1 else 0,
   descriptor.sizeWidth + 1,
   if config.fullTime then 21 else 13]

/-- `IsRuled stops start fields name line`: the line consists of the fields, which end at `stops`,
of the name, which starts at `start`, and of what follows it. -/
structure IsRuled (stops : List Nat) (start : Nat) (fields : List String) (name line : String) :
    Prop where
  whole : ∃ rest, line = String.join fields ++ (name ++ rest)
  stops : endsFrom 0 (fields.map String.length) = stops
  start : (String.join fields).length = start

section Lengths

variable {config : Config} {descriptor : Descriptor} {now : Moment} {item : Item}

theorem length_join (texts : List String) :
    (String.join texts).length = (texts.map String.length).sum := by
  induction texts with
  | nil => rfl
  | cons text rest ih => simp [ih]

theorem length_padded {width : Nat} {text : String} (fits : text.length ≤ width) :
    (padLeft width text).length = width ∧ (padRight width text).length = width := by
  rw [length_padLeft, length_padRight, max_eq_left fits]
  exact ⟨rfl, rfl⟩

/-- A line of fields of known lengths. -/
theorem IsLineOf.isRuled {fields : List String} {line : String} {lengths : List Nat}
    (written : IsLineOf config descriptor now item fields line)
    (same : fields.map String.length = lengths) :
    IsRuled (endsFrom 0 lengths) lengths.sum fields
      (shownName config.maskNames item.entry.name) line := by
  refine ⟨?_, congrArg (endsFrom 0) same, (length_join _).trans (congrArg List.sum same)⟩
  cases written with
  | line target known chosen =>
    unfold longLine
    rw [String.append_assoc, String.append_assoc]
    exact ⟨_, rfl⟩

/-- The fields of a line have fixed lengths, if what they show fits and is no device. -/
theorem map_length_longFields {entry : Entry} {status : Status} {names : Annotation}
    {field : TimeField} (fits : descriptor.Fits config entry)
    (fitsLong : descriptor.FitsLong status names) (noDevice : descriptor.hasDevice = false)
    (plain : status.fileType.isDevice = false)
    (four : (status.time field).measured.showsYear config.fullTime now = true →
      IsFourDigitYear (status.time field).measured.year) :
    (longFields config descriptor now entry status names field).map String.length =
      fieldLengths config descriptor := by
  have size : (sizeField descriptor status).length = descriptor.sizeWidth + 1 := by
    rw [sizeField, plain, noDevice]
    exact (String.length_append _ _).trans (congrArg (· + 1) (length_padded fitsLong.size).1)
  have flags : (if config.showFlags then
      padRight descriptor.flagsWidth (names.flags.getD "") ++ " " else "").length =
        if config.showFlags then descriptor.flagsWidth + 1 else 0 := by
    split
    · exact (String.length_append _ _).trans (congrArg (· + 1) (length_padded fitsLong.flags).2)
    · rfl
  have time : ((status.time field).measured.label config.fullTime now ++ " ").length =
      if config.fullTime then 21 else 13 := by
    rw [String.length_append, length_label four]
    split <;> rfl
  simp only [longFields, fieldLengths, List.map_cons, List.map_nil, length_inodeField fits,
    length_blocksField fits, flags, size, time, String.length_append, Mode.length_letters,
    (length_padded fitsLong.links).1, (length_padded fitsLong.owner).2,
    (length_padded fitsLong.group).2]
  rfl

end Lengths

/-! ## Fields of a directory -/

section Fields

variable {config : Config} {parent : Option Entry} {entries : Option (List Entry)}
  {descriptor : Descriptor} {session session' : Session}

/-- The time that is shown of a status. -/
def shownMoment? (config : Config) (status : Status) : Option Moment :=
  match config.timeField with
  | .known field => some (status.time field).measured
  | .unknown _ => none

/-- `HasPlainYear config now status`: if a year is shown of the status, it has four digits. -/
def HasPlainYear (config : Config) (now : Moment) (status : Status) : Prop :=
  ∀ moment ∈ shownMoment? config status, moment.showsYear config.fullTime now = true →
    IsFourDigitYear moment.year

instance (config : Config) (now : Moment) (status : Status) :
    Decidable (HasPlainYear config now status) :=
  inferInstanceAs (Decidable (∀ moment ∈ shownMoment? config status, _ → _))

/-- No device is shown in long lines, unless the descriptor says so. -/
theorem isDevice_of_collect
    (collected : Settles (Descriptor.collect config parent entries) session
      (.ok (some descriptor)) session')
    (long : config.isLong = true) (noDevice : descriptor.hasDevice = false) {item : Item}
    (shown : item ∈ Descriptor.visibleItems descriptor.items) {status : Status}
    (known : item.entry.status = some status) : status.fileType.isDevice = false := by
  obtain ⟨items, _, -, rfl, -⟩ := measured_of_collect collected
  have none : (Descriptor.visibleStatuses items).any (fun status => status.fileType.isDevice) =
      false := by
    have same : (config.isLong && (Descriptor.visibleStatuses items).any fun status =>
      status.fileType.isDevice) = false := noDevice
    rwa [long, Bool.true_and] at same
  exact eq_false_of_ne_true
    (List.any_eq_false.mp none status (List.mem_filterMap.mpr ⟨item, shown, known⟩))

section Collected

variable
  (collected : Settles (Descriptor.collect config parent entries) session
    (.ok (some descriptor)) session')
  (chosen : config.displayMode = .known .long) (noDevice : descriptor.hasDevice = false)
  (natural : ∀ entry ∈ descriptor.visibleEntries, ∀ status ∈ entry.status, status.IsNatural)
  (counted : config.showBlocks = true → 0 ≤ config.blockSize)

include collected chosen noDevice natural counted

/-- The fields of all lines of a directory have the same lengths. -/
theorem map_length_of_collect {now : Moment} {item : Item} {fields : List String} {line : String}
    (shown : item ∈ Descriptor.visibleItems descriptor.items)
    (years : ∀ status ∈ item.entry.status, HasPlainYear config now status)
    (written : IsLineOf config descriptor now item fields line) :
    fields.map String.length = fieldLengths config descriptor := by
  have long : config.isLong = true := decide_eq_true chosen
  have natural' := natural _ (List.mem_map_of_mem shown)
  cases written with
  | @line status field target known timed =>
    have moment : shownMoment? config status = some (status.time field).measured := by
      rw [shownMoment?, timed]
    obtain ⟨names, annotated, fitsLong⟩ :=
      Descriptor.fitsLong_of_collect collected long shown known (natural' _ known)
    rw [annotated, Option.getD_some]
    exact map_length_longFields (Descriptor.fits_of_collect collected counted shown natural')
      fitsLong noDevice (isDevice_of_collect collected long noDevice shown known)
      (years _ known _ moment)

/-- In the long lines of a directory, of which there is one for each entry unless the job is given
up for a reason, all fields end at the same places and all names start at one place. There must be
no devices, and blocks must not be counted in amounts of a negative size. -/
theorem long_aligned (writing : Session)
    (years : ∀ entry ∈ descriptor.visibleEntries, ∀ status ∈ entry.status,
      HasPlainYear config writing.world.now.measured status) :
    RendererTable.standard.select config = .ok .long ∧
      ∃ answer written shown rows,
        (Renderer.long.render config descriptor).run.run writing = (answer, written) ∧
        written.output = writing.output ++ (totalLine config descriptor ++ lines rows) ∧
        shown <+: Descriptor.visibleItems descriptor.items ∧
        (answer = .ok () → shown = Descriptor.visibleItems descriptor.items) ∧
        (∀ abort, answer = .error abort →
          Excuse config descriptor.visibleEntries writing abort) ∧
        List.Forall₂ (fun item row => ∃ fields,
          IsLineOf config descriptor writing.world.now.measured item fields row ∧
          IsRuled (endsFrom 0 (fieldLengths config descriptor))
            (fieldLengths config descriptor).sum fields
            (shownName config.maskNames item.entry.name) row) shown rows := by
  have selected : RendererTable.standard.select config = .ok .long := by
    rw [RendererTable.select, chosen]
    rfl
  have excused := (orderly_render selected descriptor writing).2
  obtain ⟨answer, written, shown, rows, ran, output, each, first, all⟩ :=
    run_long config descriptor writing
  have known := (List.forall₂_and_left shown rows).mpr ⟨fun _ member => first.subset member, each⟩
  refine ⟨selected, answer, written, shown, rows, ran, output, first, all, fun abort same => ?_,
    known.imp ?_⟩
  · exact excused abort ((congrArg Prod.fst ran).trans same)
  rintro item row ⟨inside, fields, line⟩
  refine ⟨fields, line, line.isRuled ?_⟩
  exact map_length_of_collect collected chosen noDevice natural counted inside
    (years _ (List.mem_map_of_mem inside)) line

end Collected

/-! ## Samples -/

/-- Long lines with everything. -/
def detailedLines : Config :=
  { fullLines with showInode := true, classify := true }

/-- A program of an owner with a long number, and a file that was changed long before. -/
def agedEntries : List Entry :=
  [sizedEntry "run" .file 0o100755 12345 (some 24) 1000,
    let entry := sizedEntry "notes" .file 0o100644 99 none 0
    { entry with status := entry.status.map fun status =>
      { status with links := 10, modified := ⟨-40000000, 0⟩ } }]

/-- The descriptor of these entries. -/
def agedDescriptor : Descriptor :=
  .measure detailedLines (some default) (agedEntries.map fun entry =>
    ⟨entry, true, some ⟨decimal ((entry.status.map Status.owner).getD 0), "0", some "-"⟩⟩)

/-- The session in which they were measured. -/
def agedSession : Session :=
  ((Descriptor.collect detailedLines (some default) (some agedEntries)).run.run default).2

/-- The time of day of one file and the year of the other take the same room. -/
theorem long_aligned_sample :
    Settles (Descriptor.collect detailedLines (some default) (some agedEntries)) default
      (.ok (some agedDescriptor)) agedSession ∧
    agedDescriptor.hasDevice = false ∧
    (∀ entry ∈ agedDescriptor.visibleEntries, ∀ status ∈ entry.status, status.IsNatural) ∧
    (∀ entry ∈ agedDescriptor.visibleEntries, ∀ status ∈ entry.status,
      HasPlainYear detailedLines (default : Session).world.now.measured status) ∧
    ((Renderer.long.render detailedLines agedDescriptor).run.run default).2.output =
      "total 13\n" ++
      "12 12 -rwxr-xr-x   1 1000  0  - 12345 Jan  1 00:00 run*\n" ++
      "12  1 -rw-r--r--  10 0     0  -    99 Sep 25  1968 notes\n" ∧
    ∃ rows,
      ((Renderer.long.render detailedLines agedDescriptor).run.run default).2.output =
        "" ++ (totalLine detailedLines agedDescriptor ++ lines rows) ∧
      List.Forall₂ (fun item row => ∃ fields,
        IsLineOf detailedLines agedDescriptor (default : Session).world.now.measured item fields
          row ∧
        IsRuled [3, 6, 18, 21, 27, 30, 32, 38, 51] 51 fields item.entry.name row)
        (Descriptor.visibleItems agedDescriptor.items) rows := by
  have collected : Settles (Descriptor.collect detailedLines (some default) (some agedEntries))
    default (.ok (some agedDescriptor)) agedSession := rfl
  have natural : ∀ entry ∈ agedDescriptor.visibleEntries, ∀ status ∈ entry.status,
    status.IsNatural := by decide
  have years : ∀ entry ∈ agedDescriptor.visibleEntries, ∀ status ∈ entry.status,
    HasPlainYear detailedLines (default : Session).world.now.measured status := by decide +kernel
  obtain ⟨-, answer, written, shown, rows, ran, output, -, all, -, each⟩ :=
    long_aligned collected rfl rfl natural (by decide) default years
  have done : answer = .ok () := (congrArg Prod.fst ran).symm
  rw [all done] at each
  refine ⟨collected, rfl, natural, years, by decide +kernel, rows, ?_, each⟩
  rw [ran]
  exact output

/-- Long lines with blocks of minus one byte. -/
def negativeLines : Config :=
  { displayMode := DisplayMode.long, showBlocks := true, blockSize := -1 }

/-- A file without blocks and one with many. -/
def lightAndHeavy : List Entry :=
  [sizedEntry "a" .file 0o100644 0 (some 0) 0, sizedEntry "b" .file 0o100644 0 (some 1000) 0]

/-- Where blocks have a negative size, their numbers are negative and wider than was measured, so
that fields and names stand in no columns. -/
theorem exists_jagged :
    ∃ descriptor session',
      Settles (Descriptor.collect negativeLines (some default) (some lightAndHeavy)) default
        (.ok (some descriptor)) session' ∧
      descriptor.hasDevice = false ∧
      (∀ entry ∈ descriptor.visibleEntries, ∀ status ∈ entry.status, status.IsNatural) ∧
      (∀ entry ∈ descriptor.visibleEntries, ∀ status ∈ entry.status,
        HasPlainYear negativeLines (default : Session).world.now.measured status) ∧
      ((Renderer.long.render negativeLines descriptor).run.run default).2.output =
        "total -512000\n" ++
        "0 -rw-r--r--  1 0  0  0 Jan  1 00:00 a\n" ++
        "-512000 -rw-r--r--  1 0  0  0 Jan  1 00:00 b\n" ∧
      ¬∃ stops start, ∀ item ∈ Descriptor.visibleItems descriptor.items, ∀ fields line,
        IsLineOf negativeLines descriptor (default : Session).world.now.measured item fields line →
        IsRuled stops start fields item.entry.name line := by
  refine ⟨_, _, rfl, rfl, by decide, by decide +kernel, by decide +kernel, ?_⟩
  rintro ⟨stops, start, ruled⟩
  have light := (ruled _ List.mem_cons_self _ _ (.line none rfl rfl)).start
  have heavy := (ruled _ (List.mem_cons_of_mem _ List.mem_cons_self) _ _ (.line none rfl rfl)).start
  exact absurd (light.trans heavy.symm) (by decide +kernel)

end Fields
end Layout
end DirList
