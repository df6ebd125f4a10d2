import DirList.Proofs.Layout.Endings
import Mathlib.Algebra.Order.Floor.Ring
import Mathlib.Data.Rat.Floor

/-!
# Cells in rows

Cells are brought into rows down the columns or across the rows. Neither loses a cell, repeats one
or puts two in another order: every cell has one place, and reading the rows in the direction in
which they were filled gives the cells back.

Results:
1. `rowCount_eq_ceil`: there are as many rows as are needed.
2. `cell_arrangeDown`, `cell_arrangeAcross`: which cell stands in which place.
3. `arrangements_whole`: both arrangements hold every cell once and in order.
-/

namespace DirList.Layout

/-! ## Rows that are needed -/

section Counting

variable {count columns : Nat}

theorem rowCount_le_iff (room : 0 < columns) {limit : Nat} :
    rowCount count columns ≤ limit ↔ count ≤ limit * columns := by
  rw [rowCount, Nat.div_le_iff_le_mul_add_pred room, Nat.mul_comm columns]
  omega

theorem lt_rowCount_iff (room : 0 < columns) {row : Nat} :
    row < rowCount count columns ↔ row * columns < count := by
  rw [← not_le, ← not_le, rowCount_le_iff room]

/-- So many cells fill as many rows as their number divided by the columns, rounded up. -/
theorem rowCount_eq_ceil (room : 0 < columns) :
    rowCount count columns = ⌈(count : ℚ) / columns⌉₊ := by
  refine eq_of_forall_ge_iff fun limit => ?_
  rw [rowCount_le_iff room, Nat.ceil_le, div_le_iff₀ (Nat.cast_pos.mpr room)]
  exact_mod_cast Iff.rfl

theorem count_le_rowCount_mul (count : Nat) (room : 0 < columns) :
    count ≤ rowCount count columns * columns :=
  (rowCount_le_iff room).mp le_rfl

end Counting

/-! ## Slices of a list -/

section Slices

variable {α β : Type}

/-- The slices of a list, one after another, are the list as far as they reach. -/
theorem flatMap_slices (list : List α) (size count : Nat) :
    ((List.range count).flatMap fun index => (list.drop (index * size)).take size) =
      list.take (count * size) := by
  induction count with
  | zero => simp
  | succ count ih =>
    rw [List.range_succ, List.flatMap_append, ih, Nat.succ_mul, List.take_add,
      List.flatMap_singleton]

theorem filterMap_getElem?_range (list : List α) (count : Nat) :
    (List.range count).filterMap (list[·]?) = list.take count := by
  induction count with
  | zero => rfl
  | succ count ih =>
    rw [List.range_succ, List.filterMap_append, ih, List.take_add_one]
    cases found : list[count]? <;> simp [found]

theorem map_some_filterMap {f : α → Option β} {list : List α}
    (given : ∀ x ∈ list, (f x).isSome = true) : (list.filterMap f).map some = list.map f := by
  rw [List.map_filterMap, ← List.filterMap_eq_map]
  refine List.filterMap_congr fun x member => ?_
  obtain ⟨y, found⟩ := Option.isSome_iff_exists.mp (given x member)
  rw [found, Option.map_some, Function.comp_apply, found]

/-- What answers exactly the numbers below a size is left as it is by taking its answers to all
numbers below a larger one. -/
theorem filterMap_range {f : Nat → Option β} {size count : Nat} (fits : size ≤ count)
    (answers : ∀ n, (f n).isSome = true ↔ n < size) :
    ((List.range count).filterMap f).length = size ∧
      ∀ n, ((List.range count).filterMap f)[n]? = f n := by
  have inside : ((List.range size).filterMap f).map some = (List.range size).map f :=
    map_some_filterMap fun n member => (answers n).mpr (List.mem_range.mp member)
  have outside : ∀ n, size ≤ n → f n = none := fun n beyond =>
    Option.not_isSome_iff_eq_none.mp fun given => Nat.not_lt_of_le beyond ((answers n).mp given)
  obtain ⟨extra, rfl⟩ := Nat.exists_eq_add_of_le fits
  have nothing : ((List.range extra).map (size + ·)).filterMap f = [] := by
    refine List.filterMap_eq_nil_iff.mpr (List.forall_mem_map.mpr fun n _ => ?_)
    exact outside (size + n) (Nat.le_add_right _ _)
  rw [List.range_add, List.filterMap_append, nothing, List.append_nil]
  have length : ((List.range size).filterMap f).length = size := by
    rw [← List.length_map some, inside, List.length_map, List.length_range]
  refine ⟨length, fun n => ?_⟩
  rcases Nat.lt_or_ge n size with known | beyond
  · have same := congrArg (·[n]?) inside
    simp only [List.getElem?_map, List.getElem?_range known, Option.map_some] at same
    obtain ⟨x, found, known⟩ := Option.map_eq_some_iff.mp same
    rw [found, known]
  · rw [outside n beyond, List.getElem?_eq_none (length.trans_le beyond)]

end Slices

/-! ## Places -/

/-- The cell in a row and a column, if there is one. -/
def cellAt? (rows : List (List String)) (row column : Nat) : Option String :=
  rows[row]?.bind (·[column]?)

/-- `IsArranged cells columns index rows`: the rows are as many as cells in so many columns need,
none of them is empty or too long, and every cell stands in exactly one place, of which `index`
tells the position in the list. -/
structure IsArranged (cells : List String) (columns : Nat) (index : Nat → Nat → Nat)
    (rows : List (List String)) : Prop where
  count : rows.length = ⌈(cells.length : ℚ) / columns⌉₊
  filled : ∀ row ∈ rows, row ≠ [] ∧ row.length ≤ columns
  cell : ∀ row column, (cellAt? rows row column).isSome = true →
    cellAt? rows row column = cells[index row column]?
  once : ∀ position < cells.length, ∃! place : Nat × Nat,
    (cellAt? rows place.1 place.2).isSome = true ∧ index place.1 place.2 = position

/-- The cells as they are read down so many columns. -/
def readDown (columns : Nat) (rows : List (List String)) : List String :=
  (List.range columns).flatMap fun column => rows.filterMap (·[column]?)

section Arranging

variable {cells : List String} {columns : Nat}

/-- Where the places that are filled are known, and every position is that of one of them, each cell
stands in exactly one place. -/
theorem IsArranged.of_cell {rows : List (List String)} {index : Nat → Nat → Nat}
    {fills : Nat → Nat → Prop} [DecidableRel fills] (place : Nat → Nat × Nat)
    (count : rows.length = ⌈(cells.length : ℚ) / columns⌉₊)
    (filled : ∀ row ∈ rows, row ≠ [] ∧ row.length ≤ columns)
    (cell : ∀ row column, cellAt? rows row column =
      if fills row column then cells[index row column]? else none)
    (places : ∀ row column position,
      fills row column ∧ index row column = position ↔ (row, column) = place position) :
    IsArranged cells columns index rows := by
  have legal : ∀ row column, (cellAt? rows row column).isSome = true → fills row column := by
    intro row column given
    rw [cell] at given
    split at given
    next fills => exact fills
    next => cases given
  refine ⟨count, filled, fun row column given => ?_,
    fun position inside => ⟨place position, ?_, ?_⟩⟩
  · exact (cell row column).trans (if_pos (legal row column given))
  · obtain ⟨fills, same⟩ := (places _ _ position).mpr rfl
    rw [cell, if_pos fills, same, isSome_getElem?]
    exact ⟨inside, rfl⟩
  · rintro ⟨row, column⟩ ⟨given, same⟩
    exact (places row column position).mp ⟨legal row column given, same⟩

/-- A position is told by its quotient and its remainder. -/
theorem quotient_remainder {size : Nat} (some : 0 < size) (outer inner position : Nat) :
    inner < size ∧ outer * size + inner = position ↔
      outer = position / size ∧ inner = position % size := by
  constructor
  · rintro ⟨inside, same⟩
    obtain ⟨quotient, remainder⟩ := (Nat.div_mod_unique some).mpr
      ⟨(by rw [← same, Nat.add_comm, Nat.mul_comm] : inner + size * outer = position), inside⟩
    exact ⟨quotient.symm, remainder.symm⟩
  · rintro ⟨rfl, rfl⟩
    exact ⟨Nat.mod_lt _ some, Nat.div_add_mod' _ _⟩

/-! ### Down the columns -/

/-- One of the rows that are filled down the columns. -/
def rowDown (cells : List String) (columns row : Nat) : List String :=
  (List.range (min columns cells.length)).filterMap fun column =>
    cells[column * rowCount cells.length columns + row]?

theorem arrangeDown_eq (cells : List String) (columns : Nat) : arrangeDown cells columns =
    (List.range (rowCount cells.length columns)).map (rowDown cells columns) :=
  rfl

/-- A row that is filled down the columns holds the cells at a fixed distance from one another, as
far as there are any. -/
theorem rowDown_spec (room : 0 < columns) {row : Nat}
    (inside : row < rowCount cells.length columns) :
    (rowDown cells columns row).length =
        (cells.length - 1 - row) / rowCount cells.length columns + 1 ∧
      ∀ column, (rowDown cells columns row)[column]? =
        cells[column * rowCount cells.length columns + row]? := by
  have few := rowCount_le cells.length columns
  have enough := count_le_rowCount_mul cells.length room
  unfold rowDown
  generalize rowCount cells.length columns = rows at inside few enough
  have some : 0 < rows := Nat.zero_lt_of_lt inside
  refine filterMap_range (Nat.succ_le_of_lt (lt_min ?_ ?_)) fun column => ?_
  · rw [Nat.div_lt_iff_lt_mul some, Nat.mul_comm]
    omega
  · exact Nat.lt_of_le_of_lt (Nat.div_le_self _ _) (by omega)
  · rw [isSome_getElem?, Nat.lt_succ_iff, Nat.le_div_iff_mul_le some]
    omega

theorem cell_arrangeDown (room : 0 < columns) (row column : Nat) :
    cellAt? (arrangeDown cells columns) row column =
      if row < rowCount cells.length columns then
        cells[column * rowCount cells.length columns + row]?
      else none := by
  unfold cellAt?
  rw [arrangeDown_eq, List.getElem?_map]
  split
  next inside =>
    rw [List.getElem?_range inside, Option.map_some, Option.bind_some,
      (rowDown_spec room inside).2]
  next outside =>
    rw [List.getElem?_eq_none (List.length_range.trans_le (Nat.le_of_not_lt outside))]
    rfl

/-- Reading down the columns gives back the cells that were brought into rows down the columns. -/
theorem readDown_arrangeDown (room : 0 < columns) :
    readDown columns (arrangeDown cells columns) = cells := by
  have column : ∀ column, (arrangeDown cells columns).filterMap (·[column]?) =
      (cells.drop (column * rowCount cells.length columns)).take
        (rowCount cells.length columns) := by
    intro column
    rw [← filterMap_getElem?_range, arrangeDown_eq, List.filterMap_map]
    refine List.filterMap_congr fun row member => ?_
    rw [Function.comp_apply, (rowDown_spec room (List.mem_range.mp member)).2, List.getElem?_drop]
  unfold readDown
  simp only [column]
  rw [flatMap_slices, List.take_of_length_le]
  rw [Nat.mul_comm]
  exact count_le_rowCount_mul _ room

theorem length_rowDown_le (room : 0 < columns) {row : Nat}
    (inside : row < rowCount cells.length columns) :
    (rowDown cells columns row).length ≤ columns := by
  have enough := count_le_rowCount_mul cells.length room
  have few := rowCount_le cells.length columns
  rw [(rowDown_spec room inside).1, Nat.succ_le_iff, Nat.div_lt_iff_lt_mul (by omega),
    Nat.mul_comm]
  omega

/-- The rows that are filled down the columns differ by one cell at most. -/
theorem length_rowDown_le_succ (room : 0 < columns) {row row' : Nat}
    (inside : row < rowCount cells.length columns)
    (inside' : row' < rowCount cells.length columns) :
    (rowDown cells columns row).length ≤ (rowDown cells columns row').length + 1 := by
  have some : 0 < rowCount cells.length columns := Nat.zero_lt_of_lt inside
  rw [(rowDown_spec room inside).1, (rowDown_spec room inside').1, Nat.add_le_add_iff_right,
    ← Nat.add_div_right _ some]
  exact Nat.div_le_div_right (by omega)

theorem isArranged_down (some : cells ≠ []) (room : 0 < columns) :
    IsArranged cells columns (fun row column => column * rowCount cells.length columns + row)
      (arrangeDown cells columns) := by
  have filled : 0 < rowCount cells.length columns :=
    rowCount_pos (List.length_pos_iff.mpr some) room
  refine .of_cell
    (fun position =>
      (position % rowCount cells.length columns, position / rowCount cells.length columns))
    ((length_arrangeDown _ _).trans (rowCount_eq_ceil room)) ?_ (cell_arrangeDown room)
    fun row column position => ?_
  · rw [arrangeDown_eq]
    refine List.forall_mem_map.mpr fun row member => ?_
    have inside := List.mem_range.mp member
    refine ⟨List.ne_nil_of_length_pos ?_, length_rowDown_le room inside⟩
    rw [(rowDown_spec room inside).1]
    exact Nat.succ_pos _
  · rw [quotient_remainder filled, Prod.mk.injEq, and_comm]

/-! ### Across the rows -/

theorem cell_arrangeAcross (room : 0 < columns) (row column : Nat) :
    cellAt? (arrangeAcross cells columns) row column =
      if column < columns then cells[row * columns + column]? else none := by
  unfold cellAt?
  rw [arrangeAcross, List.getElem?_map]
  rcases Nat.lt_or_ge row (rowCount cells.length columns) with inside | outside
  · rw [List.getElem?_range inside, Option.map_some, Option.bind_some, List.getElem?_take,
      List.getElem?_drop]
  · have beyond := (rowCount_le_iff room).mp outside
    rw [List.getElem?_eq_none (List.length_range.trans_le outside),
      List.getElem?_eq_none (beyond.trans (Nat.le_add_right _ column)), ite_self]
    rfl

theorem flatten_arrangeAcross (room : 0 < columns) :
    (arrangeAcross cells columns).flatten = cells := by
  rw [arrangeAcross, ← List.flatMap_def, flatMap_slices,
    List.take_of_length_le (count_le_rowCount_mul _ room)]

theorem isArranged_across (room : 0 < columns) :
    IsArranged cells columns (fun row column => row * columns + column)
      (arrangeAcross cells columns) := by
  refine .of_cell (fun position => (position / columns, position % columns))
    ((length_arrangeAcross _ _).trans (rowCount_eq_ceil room)) ?_ (cell_arrangeAcross room)
    fun row column position => ?_
  · rw [arrangeAcross]
    refine List.forall_mem_map.mpr fun row member => ⟨List.ne_nil_of_length_pos ?_, ?_⟩
    · have inside := (lt_rowCount_iff room).mp (List.mem_range.mp member)
      rw [List.length_take, List.length_drop]
      omega
    · exact List.length_take_le _ _
  · rw [quotient_remainder room, Prod.mk.injEq]

/-- Cells that are brought into rows, down the columns or across the rows, stand in the rows that
are needed, each in one place. In rows filled down the columns the cells of a column follow one
another in the list, the rows differ by one cell at most, and reading down gives the list back; rows
filled across give it back one after another. -/
theorem arrangements_whole (some : cells ≠ []) (room : 0 < columns) :
    (let rows := arrangeDown cells columns
     rows ≠ [] ∧ IsArranged cells columns (fun row column => column * rows.length + row) rows ∧
     (∀ row < rows.length, ∀ column,
       cellAt? rows row column = cells[column * rows.length + row]?) ∧
     readDown columns rows = cells ∧
     ∀ row ∈ rows, ∀ row' ∈ rows, row.length ≤ row'.length + 1) ∧
    (let rows := arrangeAcross cells columns
     rows ≠ [] ∧ IsArranged cells columns (fun row column => row * columns + column) rows ∧
     rows.flatten = cells) := by
  have filled : 0 < rowCount cells.length columns :=
    rowCount_pos (List.length_pos_iff.mpr some) room
  refine ⟨⟨?_, ?_, ?_, readDown_arrangeDown room, ?_⟩, ?_, isArranged_across room,
    flatten_arrangeAcross room⟩
  · exact List.ne_nil_of_length_pos (length_arrangeDown cells columns ▸ filled)
  · rw [length_arrangeDown]
    exact isArranged_down some room
  · intro row inside column
    rw [length_arrangeDown] at inside ⊢
    rw [cell_arrangeDown room, if_pos inside]
  · rw [arrangeDown_eq]
    refine List.forall_mem_map.mpr fun row member => List.forall_mem_map.mpr fun row' member' => ?_
    exact length_rowDown_le_succ room (List.mem_range.mp member) (List.mem_range.mp member')
  · exact List.ne_nil_of_length_pos (length_arrangeAcross cells columns ▸ filled)

/-- Five cells, which make a row and a cell of four columns. -/
def fiveCells : List String := ["a", "b", "c", "d", "e"]

/-- Five cells fill two rows of four columns: three of the columns down, or the first row across. -/
theorem arrangements_whole_sample :
    fiveCells ≠ [] ∧ 0 < 4 ∧
    arrangeDown fiveCells 4 = [["a", "c", "e"], ["b", "d"]] ∧
    IsArranged fiveCells 4 (fun row column => column * 2 + row) (arrangeDown fiveCells 4) ∧
    readDown 4 (arrangeDown fiveCells 4) = fiveCells ∧
    arrangeAcross fiveCells 4 = [["a", "b", "c", "d"], ["e"]] ∧
    IsArranged fiveCells 4 (fun row column => row * 4 + column) (arrangeAcross fiveCells 4) := by
  have some : fiveCells ≠ [] := by decide
  have room : 0 < 4 := by decide
  obtain ⟨⟨-, down, -, read, -⟩, -, across, -⟩ := arrangements_whole some room
  exact ⟨some, room, by decide, down, read, by decide, across⟩

end Arranging
end DirList.Layout
