import DirList.Proofs.Layout.Arrangement
import DirList.Proofs.Listing.Fitting

/-!
# Tabs between columns

The cells of a row are separated by tabs. A terminal shows a tab as blanks up to its next stop, and
its stops are eight columns apart. As the columns of a listing are a multiple of eight wide and
wider than every cell, the tabs behind a cell lead to the start of the next column.

Results:
1. `expandTabs_joinRow`: what a terminal shows of a row.
2. `length_cell_lt`: a cell is narrower than its column.
3. `columns_aligned`: the cells of a directory stand in columns.
4. `exists_crooked`: they do not where blocks have a negative size.
-/

namespace DirList

open FileSystem

/-- Whether a text has neither tabs nor newlines. -/
def IsPlain (text : String) : Prop :=
  '\t' ∉ text.toList ∧ '\n' ∉ text.toList

instance (text : String) : Decidable (IsPlain text) :=
  inferInstanceAs (Decidable (_ ∧ _))

theorem IsPlain.append {text text' : String} (plain : IsPlain text) (plain' : IsPlain text') :
    IsPlain (text ++ text') := by
  unfold IsPlain at *
  simp only [String.toList_append, List.mem_append]
  tauto

theorem IsClean.isPlain {text : String} (clean : IsClean text) : IsPlain text := by
  have control : isPrintable '\t' = false ∧ isPrintable '\n' = false := by decide +kernel
  refine ⟨fun tab => ?_, fun newline => ?_⟩
  · exact absurd (clean _ tab) (by simp [control.1])
  · exact absurd (clean _ newline) (by simp [control.2])

theorem IsPlain.shownName {name : String} (plain : IsPlain name) (mask : Bool) :
    IsPlain (shownName mask name) := by
  unfold DirList.shownName
  split
  · exact (isClean_masked name).isPlain
  · exact plain

namespace Layout

/-! ## What a terminal shows -/

/-- What a terminal shows of characters from a column on: blanks up to the next multiple of eight in
the place of a tab. -/
def expandFrom : Nat → List Char → List Char
  | _, [] => []
  | column, c :: rest =>
    if c = '\t' then
      List.replicate (8 - column % 8) ' ' ++ expandFrom (column + (8 - column % 8)) rest
    else c :: expandFrom (column + 1) rest

/-- What a terminal shows of a line. -/
def expandTabs (line : String) : List Char :=
  expandFrom 0 line.toList

/-- `IsAligned width limit row line`: the line shows the cells of the row, each at the start of its
column and all but the last one followed by blanks up to the next column, within the limit. -/
structure IsAligned (width : Nat) (limit : Int) (row : List String) (line : String) : Prop where
  unbroken : '\n' ∉ line.toList
  few : row.length ≤ limit.toNat / width
  starts : ∀ (j : Nat) (cell : String), row[j]? = some cell →
    cell.toList <+: (expandTabs line).drop (j * width)
  apart : ∀ (j : Nat) (cell : String), row[j]? = some cell → j + 1 < row.length →
    ∃ blanks, 0 < blanks ∧ cell.length + blanks = width ∧
      cell.toList ++ List.replicate blanks ' ' <+: (expandTabs line).drop (j * width)
  short : ((expandTabs line).length : Int) < limit

/-- The cells of a row, each but the last one brought to the width of its column with blanks. -/
def padRow (width : Nat) : List String → List Char
  | [] => []
  | [cell] => cell.toList
  | cell :: next :: rest => (padRight width cell).toList ++ padRow width (next :: rest)

section Expanding

variable {width : Nat}

theorem expandFrom_append {column : Nat} {text : List Char} (plain : '\t' ∉ text)
    (rest : List Char) :
    expandFrom column (text ++ rest) = text ++ expandFrom (column + text.length) rest := by
  induction text generalizing column with
  | nil => rfl
  | cons c text ih =>
    have first : c ≠ '\t' := fun same => plain (same ▸ List.mem_cons_self)
    rw [List.cons_append, expandFrom, if_neg first,
      ih fun member => plain (List.mem_cons_of_mem c member), List.length_cons, List.cons_append,
      Nat.add_assoc, Nat.add_comm 1]

/-- Tabs lead to as many stops as there are tabs. -/
theorem expandFrom_tabs (tabs column : Nat) (rest : List Char) :
    expandFrom column (List.replicate (tabs + 1) '\t' ++ rest) =
      List.replicate ((column / 8 + tabs + 1) * 8 - column) ' ' ++
        expandFrom ((column / 8 + tabs + 1) * 8) rest := by
  induction tabs generalizing column with
  | zero =>
    rw [List.replicate_succ, List.cons_append, expandFrom, if_pos rfl]
    congr 2 <;> omega
  | succ tabs ih =>
    rw [List.replicate_succ, List.cons_append, expandFrom, if_pos rfl, ih, ← List.append_assoc,
      List.replicate_append_replicate]
    congr 2 <;> omega

/-- A terminal shows cells that are narrower than their columns at the starts of these. -/
theorem expandFrom_joinFrom (stops : 8 ∣ width) {stop position : Nat} {row : List String}
    (fits : ∀ cell ∈ row, cell.length < width) (plain : ∀ cell ∈ row, '\t' ∉ cell.toList)
    (aligned : 8 ∣ position) (next : stop = position + width) :
    expandFrom position (joinFrom width stop position row).toList = padRow width row := by
  fun_induction joinFrom width stop position row with
  | case1 => rfl
  | case2 stop position cell =>
    have shown : expandFrom position (cell.toList ++ []) = _ :=
      expandFrom_append (plain cell List.mem_cons_self) []
    rwa [List.append_nil, expandFrom, List.append_nil] at shown
  | case3 stop position cell rest more reached tabs next' ih =>
    obtain ⟨first, others⟩ := List.forall_mem_cons.mp plain
    obtain ⟨narrow, othersFit⟩ := List.forall_mem_cons.mp fits
    have stopped : stop / 8 * 8 = stop := Nat.div_mul_cancel (next ▸ dvd_add aligned stops)
    -- The cell ends before its column does, so there is a tab at least.
    have some : 0 < tabs := by
      have counted : tabs = stop / 8 - (position + cell.length) / 8 := rfl
      omega
    have landed : next' = stop := (if_neg some.ne').trans stopped
    have reaches : (position + cell.length) / 8 + (tabs - 1) + 1 = stop / 8 := by
      have counted : tabs = stop / 8 - (position + cell.length) / 8 := rfl
      omega
    obtain ⟨second, rest, rfl⟩ := List.exists_cons_of_ne_nil more
    have shown := ih othersFit others (landed ▸ next ▸ dvd_add aligned stops) (by rw [landed])
    rw [landed] at shown
    rw [String.toList_append, String.toList_append, List.append_assoc, expandFrom_append first,
      String.length_toList, repeated, String.toList_ofList, ← Nat.sub_add_cancel some,
      expandFrom_tabs, reaches, stopped, landed, shown, padRow, padRight, String.toList_append,
      repeated, String.toList_ofList, List.append_assoc, next, Nat.add_sub_add_left]

/-- What a terminal shows of a row. -/
theorem expandTabs_joinRow (stops : 8 ∣ width) {row : List String}
    (fits : ∀ cell ∈ row, cell.length < width) (plain : ∀ cell ∈ row, '\t' ∉ cell.toList) :
    expandTabs (joinRow width row) = padRow width row :=
  expandFrom_joinFrom stops fits plain (dvd_zero 8) (Nat.zero_add width).symm

end Expanding

/-! ## Rows of cells -/

section Rows

variable {width : Nat} {row : List String}

theorem mem_joinFrom {stop position : Nat} {c : Char}
    (member : c ∈ (joinFrom width stop position row).toList) :
    c = '\t' ∨ ∃ cell ∈ row, c ∈ cell.toList := by
  fun_induction joinFrom width stop position row with
  | case1 => cases member
  | case2 stop position cell => exact .inr ⟨cell, List.mem_cons_self, member⟩
  | case3 stop position cell rest more reached tabs next ih =>
    rw [String.toList_append, String.toList_append, List.mem_append, List.mem_append] at member
    rcases member with (inside | tab) | later
    · exact .inr ⟨cell, List.mem_cons_self, inside⟩
    · rw [repeated, String.toList_ofList] at tab
      exact .inl (List.eq_of_mem_replicate tab)
    · rcases ih later with tab | ⟨cell', known, inside⟩
      · exact .inl tab
      · exact .inr ⟨cell', List.mem_cons_of_mem _ known, inside⟩

/-- The cells from one on stand behind the columns of those before it. -/
theorem drop_padRow (fits : ∀ cell ∈ row, cell.length < width) {j : Nat} (inside : j < row.length) :
    (padRow width row).drop (j * width) = padRow width (row.drop j) := by
  induction j generalizing row with
  | zero => rw [Nat.zero_mul, List.drop_zero, List.drop_zero]
  | succ j ih =>
    match row, inside with
    | cell :: next :: rest, inside =>
      obtain ⟨narrow, others⟩ := List.forall_mem_cons.mp fits
      have whole : (padRight width cell).toList.length = width := by
        rw [String.length_toList, length_padRight, max_eq_left narrow.le]
      rw [padRow, Nat.succ_mul, Nat.add_comm, ← List.drop_drop, List.drop_left' whole,
        ih others (Nat.lt_of_succ_lt_succ inside), List.drop_succ_cons]

theorem length_padRow_lt (fits : ∀ cell ∈ row, cell.length < width) (some : row ≠ []) :
    (padRow width row).length < row.length * width := by
  induction row with
  | nil => exact absurd rfl some
  | cons cell rest ih =>
    obtain ⟨narrow, others⟩ := List.forall_mem_cons.mp fits
    cases rest with
    | nil => simpa [padRow, String.length_toList] using narrow
    | cons next rest =>
      have shorter := ih others (List.cons_ne_nil _ _)
      rw [padRow, List.length_append, String.length_toList, length_padRight,
        max_eq_left narrow.le, List.length_cons, Nat.succ_mul]
      omega

/-- A row of cells that are narrower than their columns is aligned, whatever is in the cells but
tabs and newlines. -/
theorem isAligned_joinRow {limit : Int} (stops : 8 ∣ width) (some : row ≠ [])
    (fits : ∀ cell ∈ row, cell.length < width) (plain : ∀ cell ∈ row, IsPlain cell)
    (few : row.length ≤ limit.toNat / width) : IsAligned width limit row (joinRow width row) := by
  have shown := expandTabs_joinRow stops fits fun cell member => (plain cell member).1
  have from_ : ∀ {j : Nat} {cell : String}, row[j]? = Option.some cell →
      (padRow width row).drop (j * width) = padRow width (cell :: row.drop (j + 1)) := by
    intro j cell found
    obtain ⟨inside, rfl⟩ := List.getElem?_eq_some_iff.mp found
    rw [drop_padRow fits inside, List.drop_eq_getElem_cons inside]
  refine ⟨fun newline => ?_, few, fun j cell found => ?_, fun j cell found more => ?_, ?_⟩
  · rcases mem_joinFrom newline with no | ⟨cell, member, inside⟩
    · cases no
    · exact (plain cell member).2 inside
  · rw [shown, from_ found]
    cases row.drop (j + 1) with
    | nil => exact List.prefix_rfl
    | cons next rest =>
      rw [padRow, padRight, String.toList_append, List.append_assoc]
      exact List.prefix_append _ _
  · have narrow := fits cell (List.mem_of_getElem? found)
    refine ⟨width - cell.length, Nat.sub_pos_of_lt narrow, Nat.add_sub_cancel' narrow.le, ?_⟩
    rw [shown, from_ found, List.drop_eq_getElem_cons more, padRow, padRight,
      String.toList_append, repeated, String.toList_ofList]
    exact List.prefix_append _ _
  · rw [shown]
    have shorter := length_padRow_lt fits some
    have most := Nat.mul_le_of_le_div width row.length limit.toNat few
    omega

end Rows

/-! ## Cells of a directory -/

section Cells

variable {config : Config} {descriptor : Descriptor} {entry : Entry}

theorem nextTabStop_spec (position : Nat) :
    8 ∣ nextTabStop position ∧ position < nextTabStop position := by
  unfold nextTabStop tabWidth
  omega

theorem length_shownName (mask : Bool) (name : String) :
    (shownName mask name).length = name.length := by
  unfold shownName masked
  split
  · exact String.length_map
  · rfl

theorem length_typeMark_le (config : Config) (entry : Entry) :
    (typeMark config entry).length ≤ if config.marksTypes then 1 else 0 := by
  have mark : ∀ mode, (modeMark config mode).length ≤ 1 := by
    intro mode
    unfold modeMark
    split
    · decide
    split
    · decide
    split
    · decide
    · decide
    · decide
    · split <;> decide
    · decide
  unfold typeMark
  split
  · split
    · exact mark _
    · exact le_rfl
  · exact Nat.zero_le _

theorem length_inodeField (fits : descriptor.Fits config entry) :
    (inodeField config descriptor entry).length =
      if config.showInode then descriptor.inodeWidth + 1 else 0 := by
  unfold inodeField
  split
  next wanted =>
    rw [String.length_append, length_padLeft, max_eq_left (fits.inode wanted)]
    rfl
  · rfl

theorem length_blocksField (fits : descriptor.Fits config entry) :
    (blocksField config descriptor entry).length =
      if config.showBlocks then descriptor.blockWidth + 1 else 0 := by
  unfold blocksField
  split
  next wanted =>
    rw [String.length_append, length_padLeft, max_eq_left (fits.blocks wanted)]
    rfl
  · rfl

/-- A cell is narrower than its column. -/
theorem length_cell_lt (fits : descriptor.Fits config entry) :
    (cell config descriptor entry).length < columnWidth config descriptor := by
  have name := fits.name
  have mark := length_typeMark_le config entry
  refine Nat.lt_of_le_of_lt ?_ (nextTabStop_spec _).2
  rw [cell, String.length_append, String.length_append, String.length_append,
    length_inodeField fits, length_blocksField fits, length_shownName]
  omega

theorem isPlain_cell (plain : IsPlain entry.name) : IsPlain (cell config descriptor entry) :=
  (((isClean_inodeField config descriptor entry).append
    (isClean_blocksField config descriptor entry)).isPlain.append
      (plain.shownName config.maskNames)).append (isClean_typeMark config entry).isPlain

end Cells

/-! ## Columns of a directory -/

section Columns

variable {config : Config} {parent : Option Entry} {entries : Option (List Entry)}
  {descriptor : Descriptor} {session session' : Session}

/-- `Fills mode arrange`: a layout in columns, with the order in which it fills its rows. -/
inductive Fills : DisplayMode → (List String → Nat → List (List String)) → Prop
  | down : Fills .columns arrangeDown
  | across : Fills .across arrangeAcross

variable {mode : DisplayMode} {arrange : List String → Nat → List (List String)}

theorem Fills.select (fills : Fills mode arrange) (chosen : config.displayMode = .known mode) :
    ∃ label, RendererTable.standard.select config =
      .ok (.ofText label (columns arrange)) := by
  unfold RendererTable.select
  rw [chosen]
  cases fills with
  | down => exact ⟨_, rfl⟩
  | across => exact ⟨_, rfl⟩

theorem Fills.row {cells : List String} {columns : Nat} (fills : Fills mode arrange)
    (some : cells ≠ []) (room : 0 < columns) :
    ∀ row ∈ arrange cells columns,
      row ≠ [] ∧ row.length ≤ columns ∧ ∀ cell ∈ row, cell ∈ cells := by
  intro row member
  cases fills with
  | down =>
    obtain ⟨full, short⟩ := (isArranged_down some room).filled row member
    exact ⟨full, short, (arranges_down cells columns).2 row member⟩
  | across =>
    obtain ⟨full, short⟩ := (isArranged_across room).filled row member
    exact ⟨full, short, (arranges_across cells columns).2 row member⟩

/-- The cells of a directory that is laid out in columns, down or across, stand in columns on a
terminal whose tab stops are eight columns apart, with a blank between two cells at least and no row
as long as the width. For this, blocks must not be counted in amounts of a negative size. -/
theorem columns_aligned
    (collected : Settles (Descriptor.collect config parent entries) session
      (.ok (some descriptor)) session')
    (natural : ∀ entry ∈ descriptor.visibleEntries, ∀ status ∈ entry.status, status.IsNatural)
    (plain : ∀ entry ∈ descriptor.visibleEntries, IsPlain entry.name)
    (chosen : config.displayMode = .known mode) (fills : Fills mode arrange)
    (wide : 2 * (columnWidth config descriptor : Int) ≤ config.width)
    (counted : config.showBlocks = true → 0 ≤ config.blockSize) :
    let width := columnWidth config descriptor
    let rows := arrange (cells config descriptor) (config.width.toNat / width)
    (∃ renderer, RendererTable.standard.select config = .ok renderer ∧
      renderer.render config descriptor =
        Job.write (totalLine config descriptor ++ lines (rows.map (joinRow width)))) ∧
    2 ≤ config.width.toNat / width ∧
    ∀ row ∈ rows, IsAligned width config.width row (joinRow width row) := by
  intro width rows
  have several : 2 ≤ config.width.toNat / width := by
    rw [Nat.le_div_iff_mul_le (columnWidth_pos config descriptor)]
    omega
  refine ⟨?_, several, fun row member => ?_⟩
  · obtain ⟨label, selected⟩ := fills.select chosen
    refine ⟨_, selected, congrArg Job.write ?_⟩
    unfold columns
    exact if_neg (Int.not_lt.mpr wide)
  have shown : cells config descriptor ≠ [] := by
    cases collect_cases collected with
    | measured shown _ visible =>
      rw [cells, visible]
      exact fun none => shown (List.map_eq_nil_iff.mp none)
  obtain ⟨full, short, inside⟩ :=
    fills.row shown (Nat.lt_of_lt_of_le Nat.two_pos several) row member
  have each : ∀ cell ∈ row, cell.length < width ∧ IsPlain cell := by
    intro text member
    obtain ⟨entry, known, rfl⟩ := List.mem_map.mp (inside text member)
    obtain ⟨item, visible, rfl⟩ := List.mem_map.mp known
    refine ⟨length_cell_lt ?_, isPlain_cell (plain _ known)⟩
    exact Descriptor.fits_of_collect collected counted visible (natural _ known)
  exact isAligned_joinRow (nextTabStop_spec _).1 full (fun cell member => (each cell member).1)
    (fun cell member => (each cell member).2) short

/-! ## Samples -/

/-- Columns with inodes, blocks and marks. -/
def crowdedColumns : Config :=
  { displayMode := DisplayMode.columns, width := 64, showInode := true, showBlocks := true,
    classify := true }

/-- A program, a file whose status was not taken, and a long name. -/
def assortedEntries : List Entry :=
  [sizedEntry "run" .file 0o100755 300 (some 24) 0,
    { sizedEntry "unread" .unasked 0 0 none 0 with status := none },
    sizedEntry "notes.txt" .file 0o100644 99 none 0]

/-- The descriptor of these entries, all of which are shown. -/
def assortedDescriptor : Descriptor :=
  .measure crowdedColumns (some default) (assortedEntries.map fun entry => ⟨entry, true, none⟩)

/-- The three cells make two rows of columns that are 24 wide. -/
theorem columns_aligned_sample :
    Settles (Descriptor.collect crowdedColumns (some default) (some assortedEntries)) default
      (.ok (some assortedDescriptor)) default ∧
    (∀ entry ∈ assortedDescriptor.visibleEntries, ∀ status ∈ entry.status, status.IsNatural) ∧
    (∀ entry ∈ assortedDescriptor.visibleEntries, IsPlain entry.name) ∧
    2 * (columnWidth crowdedColumns assortedDescriptor : Int) ≤ crowdedColumns.width ∧
    columns arrangeDown crowdedColumns assortedDescriptor =
      "total 13\n12 12 run*\t\t12  1 notes.txt\n 0  0 unread\n" ∧
    ∀ row ∈ arrangeDown (cells crowdedColumns assortedDescriptor) 2,
      IsAligned 24 64 row (joinRow 24 row) := by
  have collected : Settles (Descriptor.collect crowdedColumns (some default)
    (some assortedEntries)) default (.ok (some assortedDescriptor)) default := rfl
  have natural : ∀ entry ∈ assortedDescriptor.visibleEntries, ∀ status ∈ entry.status,
    status.IsNatural := by decide
  have plain : ∀ entry ∈ assortedDescriptor.visibleEntries, IsPlain entry.name := by decide
  have wide : 2 * (columnWidth crowdedColumns assortedDescriptor : Int) ≤ crowdedColumns.width := by
    decide
  obtain ⟨-, -, aligned⟩ :=
    columns_aligned collected natural plain rfl .down wide (by decide)
  exact ⟨collected, natural, plain, wide, by decide, aligned⟩

/-- Blocks of minus one byte. -/
def negativeBlocks : Config :=
  { displayMode := DisplayMode.columns, showBlocks := true, blockSize := -1 }

/-- Two files with many blocks. -/
def heavyEntries : List Entry :=
  [sizedEntry "a" .file 0o100644 0 (some 1000000) 0,
    sizedEntry "b" .file 0o100644 0 (some 1000000) 0]

/-- Where blocks have a negative size, their numbers are negative and wider than was measured, so
that cells stand in no columns and have no blank between them. -/
theorem exists_crooked :
    ∃ descriptor,
      Settles (Descriptor.collect negativeBlocks none (some heavyEntries)) default
        (.ok (some descriptor)) default ∧
      (∀ entry ∈ descriptor.visibleEntries, ∀ status ∈ entry.status, status.IsNatural) ∧
      (∀ entry ∈ descriptor.visibleEntries, IsPlain entry.name) ∧
      2 * (columnWidth negativeBlocks descriptor : Int) ≤ negativeBlocks.width ∧
      columns arrangeDown negativeBlocks descriptor = "-512000000 a-512000000 b\n" ∧
      ∃ row ∈ arrangeDown (cells negativeBlocks descriptor)
          (negativeBlocks.width.toNat / columnWidth negativeBlocks descriptor),
        ¬ IsAligned (columnWidth negativeBlocks descriptor) negativeBlocks.width row
          (joinRow (columnWidth negativeBlocks descriptor) row) := by
  refine ⟨_, rfl, by decide, by decide, by decide, by decide,
    ["-512000000 a", "-512000000 b"], by decide, fun aligned => ?_⟩
  have start := aligned.starts 1 "-512000000 b" rfl
  revert start
  decide

end Columns
end Layout
end DirList
