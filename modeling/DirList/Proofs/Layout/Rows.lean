import DirList.Layout.Columns
import DirList.Layout.Long
import DirList.Layout.Stream
import Mathlib.Data.List.Basic
import Mathlib.Data.Nat.Basic

/-!
# Layouts of masked names

Where names are masked, a layout consists of rows of printable characters and of the tabs between
its columns. It puts the newlines behind the rows itself, so there are no more rows than cells,
whatever the names are.

Results:
1. `isClean_masked`: a masked text is printable.
2. `isClean_cell`: so is a cell.
3. `laid_columns`, `laid_stream`: cells are laid out in rows.
4. `isClean_longLine`: a long line is printable.
-/

namespace DirList

/-- Every character of the text is printable. -/
def IsClean (text : String) : Prop :=
  ∀ c ∈ text.toList, isPrintable c = true

/-- Every character of the text is printable or a tab. -/
def IsRow (text : String) : Prop :=
  ∀ c ∈ text.toList, isPrintable c = true ∨ c = '\t'

/-- `Laid limit text`: the text consists of so many rows at most, each ended by a newline. -/
def Laid (limit : Nat) (text : String) : Prop :=
  ∃ rows, text = Layout.lines rows ∧ rows.length ≤ limit ∧ ∀ row ∈ rows, IsRow row

instance (text : String) : Decidable (IsClean text) :=
  List.decidableBAll (fun c => isPrintable c = true) text.toList

/-! ## Printable texts -/

section Clean

variable {text text' : String}

theorem IsClean.append (clean : IsClean text) (clean' : IsClean text') :
    IsClean (text ++ text') := by
  intro c member
  rw [String.toList_append] at member
  exact (List.mem_append.mp member).elim (clean c) (clean' c)

theorem isClean_join {texts : List String} (clean : ∀ text ∈ texts, IsClean text) :
    IsClean (String.join texts) := by
  intro c member
  rw [String.toList_join] at member
  obtain ⟨text, inside, member⟩ := List.mem_flatMap.mp member
  exact clean text inside c member

theorem isClean_ite {test : Prop} [Decidable test] (clean : IsClean text)
    (clean' : IsClean text') : IsClean (if test then text else text') := by
  split
  · exact clean
  · exact clean'

theorem isPrintable_of_ascii {c : Char} (low : 0x20 ≤ c.toNat) (high : c.toNat ≤ 0x7e) :
    isPrintable c = true := by
  refine List.any_eq_true.mpr ⟨(0x20, 0x7e), ?_, ?_⟩
  · unfold printableRanges
    exact List.mem_cons_self
  · simpa using ⟨low, high⟩

theorem isClean_empty : IsClean "" :=
  fun _ no => nomatch no

theorem isClean_digits (n : Nat) : IsClean (digits n) := by
  intro c member
  rw [digits, String.toList_ofList] at member
  have digit := Nat.isDigit_of_mem_toDigits (by decide) (by decide) member
  obtain ⟨low, high⟩ : 48 ≤ c.val ∧ c.val ≤ 57 := by
    simpa [Char.isDigit] using digit
  have low : 48 ≤ c.toNat := UInt32.le_iff_toNat_le.mp low
  have high : c.toNat ≤ 57 := UInt32.le_iff_toNat_le.mp high
  exact isPrintable_of_ascii (by omega) (by omega)

theorem isClean_decimal (n : Int) : IsClean (decimal n) := by
  unfold decimal
  split
  · exact .append (by decide) (isClean_digits _)
  · exact isClean_digits _

theorem isClean_blanks (n : Nat) : IsClean (repeated n ' ') := by
  intro c member
  rw [repeated, String.toList_ofList] at member
  rw [List.eq_of_mem_replicate member]
  decide

theorem isClean_padLeft (width : Nat) (clean : IsClean text) : IsClean (padLeft width text) :=
  (isClean_blanks _).append clean

theorem isClean_padRight (width : Nat) (clean : IsClean text) : IsClean (padRight width text) :=
  clean.append (isClean_blanks _)

/-- A masked text is printable. -/
theorem isClean_masked (text : String) : IsClean (masked text) := by
  intro c member
  rw [masked, String.toList_map] at member
  obtain ⟨d, -, rfl⟩ := List.mem_map.mp member
  split
  next printable => exact printable
  next => decide

theorem IsClean.isRow (clean : IsClean text) : IsRow text :=
  fun c member => .inl (clean c member)

theorem IsRow.append (row : IsRow text) (row' : IsRow text') : IsRow (text ++ text') := by
  intro c member
  rw [String.toList_append] at member
  exact (List.mem_append.mp member).elim (row c) (row' c)

end Clean

/-! ## Rows -/

section Rows

variable {limit limit' : Nat} {text text' : String}

theorem Layout.lines_append (rows rows' : List String) :
    lines (rows ++ rows') = lines rows ++ lines rows' := by
  rw [lines, List.map_append, String.join_append]
  rfl

theorem Layout.lines_singleton (row : String) : lines [row] = row ++ "\n" := by
  rw [lines, List.map_singleton, String.join_cons, String.join_nil, String.append_empty]

theorem Layout.lines_cons (row : String) (rows : List String) :
    lines (row :: rows) = row ++ ("\n" ++ lines rows) := by
  rw [← List.singleton_append, lines_append, lines_singleton, String.append_assoc]

/-- A character of rows is the end of a row or stands in one. -/
theorem Layout.mem_lines {rows : List String} {c : Char} (member : c ∈ (lines rows).toList) :
    c = '\n' ∨ ∃ row ∈ rows, c ∈ row.toList := by
  rw [lines, String.toList_join, List.flatMap_map] at member
  obtain ⟨row, inside, member⟩ := List.mem_flatMap.mp member
  rw [String.toList_append] at member
  rcases List.mem_append.mp member with before | ending
  · exact .inr ⟨row, inside, before⟩
  · exact .inl (List.mem_singleton.mp ending)

theorem laid_empty : Laid 0 "" :=
  ⟨[], rfl, le_rfl, List.forall_mem_nil _⟩

theorem laid_row {row : String} (isRow : IsRow row) : Laid 1 (row ++ "\n") :=
  ⟨[row], (Layout.lines_singleton row).symm, le_rfl, List.forall_mem_singleton.mpr isRow⟩

theorem laid_lines {rows : List String} (areRows : ∀ row ∈ rows, IsRow row) :
    Laid rows.length (Layout.lines rows) :=
  ⟨rows, rfl, le_rfl, areRows⟩

theorem Laid.append (laid : Laid limit text) (laid' : Laid limit' text') :
    Laid (limit + limit') (text ++ text') := by
  obtain ⟨rows, rfl, few, areRows⟩ := laid
  obtain ⟨rows', rfl, few', areRows'⟩ := laid'
  refine ⟨rows ++ rows', (Layout.lines_append rows rows').symm, ?_,
    List.forall_mem_append.mpr ⟨areRows, areRows'⟩⟩
  rw [List.length_append]
  exact Nat.add_le_add few few'

theorem Laid.mono (laid : Laid limit text) (le : limit ≤ limit') : Laid limit' text := by
  obtain ⟨rows, same, few, areRows⟩ := laid
  exact ⟨rows, same, Nat.le_trans few le, areRows⟩

end Rows

namespace Layout

variable {config : Config} {descriptor : Descriptor}

/-! ## Cells -/

section Cells

theorem isClean_typeMark (config : Config) (entry : Entry) : IsClean (typeMark config entry) := by
  have mark : ∀ mode, IsClean (modeMark config mode) := by
    intro mode
    unfold modeMark
    split
    · decide
    · refine isClean_ite isClean_empty ?_
      split
      · decide
      · decide
      · decide
      · exact isClean_ite (by decide) isClean_empty
      · exact isClean_empty
  unfold typeMark
  split
  · exact isClean_ite (mark _) isClean_empty
  · exact isClean_empty

theorem isClean_inodeField (config : Config) (descriptor : Descriptor) (entry : Entry) :
    IsClean (inodeField config descriptor entry) :=
  isClean_ite ((isClean_padLeft _ (isClean_decimal _)).append (by decide)) isClean_empty

theorem isClean_blocksField (config : Config) (descriptor : Descriptor) (entry : Entry) :
    IsClean (blocksField config descriptor entry) :=
  isClean_ite ((isClean_padLeft _ (isClean_decimal _)).append (by decide)) isClean_empty

theorem isClean_shownName (masks : config.maskNames = true) (name : String) :
    IsClean (shownName config.maskNames name) := by
  rw [masks]
  exact isClean_masked name

/-- A cell with a masked name is printable. -/
theorem isClean_cell (masks : config.maskNames = true) (entry : Entry) :
    IsClean (cell config descriptor entry) :=
  (((isClean_inodeField config descriptor entry).append
    (isClean_blocksField config descriptor entry)).append (isClean_shownName masks _)).append
      (isClean_typeMark config entry)

theorem isClean_of_mem_cells (masks : config.maskNames = true) :
    ∀ text ∈ cells config descriptor, IsClean text := by
  intro text member
  obtain ⟨entry, -, rfl⟩ := List.mem_map.mp member
  exact isClean_cell masks entry

end Cells

/-! ## Columns -/

section Columns

theorem isRow_tabs (n : Nat) : IsRow (repeated n '\t') := by
  intro c member
  rw [repeated, String.toList_ofList] at member
  exact .inr (List.eq_of_mem_replicate member)

theorem isRow_joinFrom {width stop position : Nat} {row : List String}
    (clean : ∀ text ∈ row, IsClean text) : IsRow (joinFrom width stop position row) := by
  fun_induction joinFrom width stop position row with
  | case1 => exact isClean_empty.isRow
  | case2 stop position cell => exact (clean cell List.mem_cons_self).isRow
  | case3 stop position cell rest more reached tabs next ih =>
    obtain ⟨first, others⟩ := List.forall_mem_cons.mp clean
    exact (first.isRow.append (isRow_tabs tabs)).append (ih others)

theorem rowCount_le (count columns : Nat) : rowCount count columns ≤ count := by
  unfold rowCount
  rcases Nat.eq_zero_or_pos columns with rfl | some
  · rw [Nat.div_zero]
    exact Nat.zero_le _
  rcases Nat.eq_zero_or_pos count with rfl | more
  · rw [Nat.zero_add, Nat.div_eq_of_lt (by omega)]
  · refine Nat.div_le_of_le_mul ?_
    have least : count - 1 ≤ columns * (count - 1) := Nat.le_mul_of_pos_left _ some
    have split : columns * count = columns * (count - 1) + columns := by
      rw [← Nat.mul_succ, Nat.succ_eq_add_one, Nat.sub_add_cancel more]
    omega

/-- `Arranges arrange`: cells are brought into no more rows than there are cells. -/
def Arranges (arrange : List String → Nat → List (List String)) : Prop :=
  ∀ cells columns, (arrange cells columns).length ≤ cells.length ∧
    ∀ row ∈ arrange cells columns, ∀ cell ∈ row, cell ∈ cells

theorem arranges_down : Arranges arrangeDown := by
  intro cells columns
  refine ⟨?_, fun row member cell inside => ?_⟩
  · rw [arrangeDown, List.length_map, List.length_range]
    exact rowCount_le _ _
  · obtain ⟨_, -, rfl⟩ := List.mem_map.mp member
    obtain ⟨_, -, found⟩ := List.mem_filterMap.mp inside
    exact List.mem_of_getElem? found

theorem arranges_across : Arranges arrangeAcross := by
  intro cells columns
  refine ⟨?_, fun row member cell inside => ?_⟩
  · rw [arrangeAcross, List.length_map, List.length_range]
    exact rowCount_le _ _
  · obtain ⟨_, -, rfl⟩ := List.mem_map.mp member
    exact List.mem_of_mem_drop (List.mem_of_mem_take inside)

theorem laid_totalLine (config : Config) (descriptor : Descriptor) :
    Laid 1 (totalLine config descriptor) := by
  unfold totalLine
  split
  · refine laid_row (IsClean.isRow ?_)
    exact .append (by decide) (isClean_decimal _)
  · exact laid_empty.mono (Nat.zero_le _)

theorem laid_singleColumn (masks : config.maskNames = true) :
    Laid (cells config descriptor).length (singleColumn config descriptor) :=
  laid_lines fun cell member => (isClean_of_mem_cells masks cell member).isRow

/-- Cells in columns are laid out in rows. -/
theorem laid_columns (masks : config.maskNames = true)
    {arrange : List String → Nat → List (List String)} (arranges : Arranges arrange) :
    Laid ((cells config descriptor).length + 1) (columns arrange config descriptor) := by
  unfold columns
  dsimp only
  split
  · exact (laid_singleColumn masks).mono (Nat.le_succ _)
  obtain ⟨few, inside⟩ := arranges (cells config descriptor)
    (config.width.toNat / columnWidth config descriptor)
  rw [Nat.add_comm]
  refine (laid_totalLine config descriptor).append ((laid_lines ?_).mono ?_)
  · intro row member
    obtain ⟨texts, known, rfl⟩ := List.mem_map.mp member
    exact isRow_joinFrom fun text member =>
      isClean_of_mem_cells masks text (inside texts known text member)
  · rw [List.length_map]
    exact few

end Columns

/-! ## Streams -/

section Streams

/-- Cells are laid out in rows behind what is on the line already. -/
theorem laid_streamFrom {width : Int} {onLine : Nat} {texts : List String} {start : String}
    (clean : ∀ text ∈ texts, IsClean text) (begun : IsClean start)
    (nothing : onLine = 0 → start = "") :
    Laid (texts.length + if onLine = 0 then 0 else 1)
      (start ++ streamFrom width onLine texts) := by
  induction texts generalizing onLine start with
  | nil =>
    unfold streamFrom
    by_cases some : 0 < onLine
    · rw [if_pos some, if_neg (by omega)]
      exact laid_row begun.isRow
    · rw [if_neg some, nothing (by omega)]
      exact laid_empty.mono (Nat.zero_le _)
  | cons text rest ih =>
    obtain ⟨first, others⟩ := List.forall_mem_cons.mp clean
    have tail : IsClean (if rest.isEmpty then "" else separator) :=
      isClean_ite isClean_empty (by decide)
    have unwritten : ∀ reached : Nat,
        reached + text.length + (if rest.isEmpty then 0 else separator.length) = 0 →
        text ++ (if rest.isEmpty then "" else separator) = "" := by
      intro reached none
      have some : separator.length = 2 := rfl
      split at none
      next last =>
        rw [if_pos last, String.append_empty]
        exact String.length_eq_zero_iff.mp (by omega)
      next => omega
    have atMost : ∀ n : Nat, (if n = 0 then 0 else 1) ≤ 1 := by
      intro n
      split <;> omega
    unfold streamFrom
    dsimp only
    rw [List.length_cons]
    cases breaks : breaksBefore width onLine text rest.isEmpty with
    | true =>
      -- What is on the line already becomes a row of its own.
      have some : onLine ≠ 0 := by
        rintro rfl
        simp [breaksBefore] at breaks
      have laid := (laid_row begun.isRow).append (ih others (first.append tail) (unwritten 0))
      rw [if_neg some, if_pos rfl, if_pos rfl]
      simp only [String.append_assoc] at laid ⊢
      have most := atMost (0 + text.length + if rest.isEmpty then 0 else separator.length)
      exact laid.mono (by omega)
    | false =>
      have laid := ih others (begun.append (first.append tail)) fun none => by
        rw [nothing (Nat.eq_zero_of_add_eq_zero_right
          (Nat.eq_zero_of_add_eq_zero_right none)), unwritten onLine none, String.empty_append]
      rw [if_neg Bool.false_ne_true, if_neg Bool.false_ne_true, String.empty_append]
      simp only [String.append_assoc] at laid ⊢
      refine laid.mono ?_
      have most := atMost (onLine + text.length + if rest.isEmpty then 0 else separator.length)
      by_cases none : onLine = 0
      · rw [if_pos none]
        omega
      · rw [if_neg none]
        omega

/-- Cells in a stream are laid out in rows. -/
theorem laid_stream (masks : config.maskNames = true) :
    Laid (cells config descriptor).length (stream config descriptor) := by
  have laid : Laid _ ("" ++ stream config descriptor) :=
    laid_streamFrom (isClean_of_mem_cells masks) isClean_empty fun _ => rfl
  rwa [String.empty_append] at laid

end Streams

/-! ## Long lines -/

section Long

theorem isClean_monthName (month : Nat) : IsClean (monthName month) := by
  have known : ∀ name ∈ "" :: monthNames, IsClean name := by decide
  rw [monthName, List.getD_eq_getElem?_getD]
  cases found : monthNames[month - 1]? with
  | none => exact known _ List.mem_cons_self
  | some name => exact known _ (List.mem_cons_of_mem _ (List.mem_of_getElem? found))

theorem isClean_twoDigits (n : Nat) : IsClean (twoDigits n) :=
  isClean_ite (.append (by decide) (isClean_digits _)) (isClean_digits _)

theorem isClean_label (full : Bool) (moment now : Moment) : IsClean (moment.label full now) := by
  have day : ∀ time : CivilTime, IsClean time.monthAndDay := fun time =>
    ((isClean_monthName _).append (by decide)).append (isClean_padLeft _ (isClean_digits _))
  have clock : ∀ time : CivilTime, IsClean time.clock := fun time =>
    ((isClean_twoDigits _).append (by decide)).append (isClean_twoDigits _)
  unfold Moment.label
  refine isClean_ite ?_ (isClean_ite ?_ ?_)
  · exact ((((((day _).append (by decide)).append (clock _)).append
      (by decide)).append (isClean_twoDigits _)).append (by decide)).append
        (isClean_decimal _)
  · exact ((day _).append (by decide)).append (clock _)
  · exact ((day _).append (by decide)).append (isClean_decimal _)

theorem isClean_letters (mode : Mode) : IsClean mode.letters := by
  have letter : ∀ type : FileType, isPrintable type.letter = true := by
    intro type
    cases type <;> decide
  have triple : ∀ read write execute special on off, isPrintable on = true →
      isPrintable off = true → ∀ c ∈ mode.triple read write execute special on off,
        isPrintable c = true := by
    intro read write execute special on off shownOn shownOff c member
    have known : IsClean "rwx-" := by decide
    simp only [Mode.triple, List.mem_cons, List.not_mem_nil, or_false] at member
    rcases member with rfl | rfl | rfl
    · split <;> exact known _ (by decide)
    · split <;> exact known _ (by decide)
    · split <;> split
      · exact shownOn
      · exact shownOff
      · exact known _ (by decide)
      · exact known _ (by decide)
  intro c member
  rw [Mode.letters, String.toList_ofList, List.mem_cons, List.mem_append, List.mem_append] at member
  rcases member with rfl | (user | group) | other
  · exact letter _
  · exact triple _ _ _ _ _ _ (by decide) (by decide) c user
  · exact triple _ _ _ _ _ _ (by decide) (by decide) c group
  · exact triple _ _ _ _ _ _ (by decide) (by decide) c other

theorem isClean_sizeField (descriptor : Descriptor) (status : Status) :
    IsClean (sizeField descriptor status) := by
  have label : IsClean status.deviceLabel :=
    ((isClean_padLeft _ (isClean_decimal _)).append (by decide)).append
      (isClean_padLeft _ (isClean_decimal _))
  have blank : IsClean " " := by decide
  unfold sizeField
  refine isClean_ite (label.append blank) (isClean_ite ?_ ?_)
  · exact (isClean_padLeft _ (isClean_decimal _)).append blank
  · exact (isClean_padLeft _ (isClean_decimal _)).append blank

/-- A long line with masked names is printable, if the names of the owner and the group are. -/
theorem isClean_longLine (masks : config.maskNames = true) (now : Moment) (entry : Entry)
    (status : Status) {names : Annotation} (field : TimeField) (target : Option String)
    (owner : IsClean names.owner) (group : IsClean names.group)
    (flags : IsClean (names.flags.getD "")) :
    IsClean (longLine config descriptor now entry status names field target) := by
  have blank : IsClean " " := by decide
  have gap : IsClean "  " := by decide
  have fields : IsClean
      (String.join (longFields config descriptor now entry status names field)) := by
    refine isClean_join ?_
    simp only [longFields, List.forall_mem_cons, List.not_mem_nil, false_implies, implies_true,
      and_true]
    exact ⟨isClean_inodeField config descriptor entry, isClean_blocksField config descriptor entry,
      (isClean_letters _).append gap, (isClean_padLeft _ (isClean_decimal _)).append blank,
      (isClean_padRight _ owner).append gap, (isClean_padRight _ group).append gap,
      isClean_ite ((isClean_padRight _ flags).append blank) isClean_empty,
      isClean_sizeField descriptor status, (isClean_label _ _ _).append blank⟩
  refine ((fields.append (isClean_shownName masks _)).append
    (isClean_typeMark config entry)).append ?_
  cases target with
  | none => exact isClean_empty
  | some target => exact .append (by decide) (isClean_shownName masks target)

end Long
end Layout
end DirList
