import DirList.Proofs.Layout.Rows

/-!
# Blocks end with a line

Whatever layout entries are written in, something is written for them if there are any and their
names are not empty, and the last line of it is ended.

Results:
1. `endsLine_streamFrom`: a stream ends its last line.
2. `endsLine_columns`: so do columns, which have a row at least.
-/

namespace DirList

/-- Whether a text consists of lines, the last of which is ended. -/
def EndsLine (text : String) : Prop :=
  ∃ rest, text = rest ++ "\n"

theorem EndsLine.append {text : String} (ends : EndsLine text) (before : String) :
    EndsLine (before ++ text) := by
  obtain ⟨rest, rfl⟩ := ends
  exact ⟨before ++ rest, (String.append_assoc).symm⟩

theorem EndsLine.ne_empty {text : String} (ends : EndsLine text) : text ≠ "" := by
  obtain ⟨rest, rfl⟩ := ends
  intro empty
  have length := congrArg String.length empty
  rw [String.length_append] at length
  exact absurd length (Nat.succ_ne_zero _)

namespace Layout

variable {config : Config} {descriptor : Descriptor}

theorem endsLine_lines {rows : List String} (some : rows ≠ []) : EndsLine (lines rows) := by
  rw [← List.dropLast_append_getLast some, lines_append, lines_singleton]
  exact ⟨_, (String.append_assoc).symm⟩

/-- A stream ends its last line, if anything is on it. -/
theorem endsLine_streamFrom {width : Int} {onLine : Nat} {texts : List String}
    (full : ∀ text ∈ texts, text ≠ "") (some : 0 < onLine ∨ texts ≠ []) :
    EndsLine (streamFrom width onLine texts) := by
  induction texts generalizing onLine with
  | nil =>
    rw [streamFrom, if_pos (some.resolve_right fun no => no rfl)]
    exact ⟨"", rfl⟩
  | cons text rest ih =>
    obtain ⟨first, others⟩ := List.forall_mem_cons.mp full
    have long : 0 < text.length :=
      Nat.pos_of_ne_zero fun none => first (String.length_eq_zero_iff.mp none)
    rw [streamFrom]
    exact (ih others (.inl (by omega))).append _

theorem shownName_ne_empty (mask : Bool) {name : String} (named : name ≠ "") :
    shownName mask name ≠ "" := by
  intro empty
  refine named (String.toList_injective ?_)
  have none := congrArg String.toList empty
  unfold shownName masked at none
  split at none
  · rw [String.toList_map] at none
    exact List.map_eq_nil_iff.mp none
  · exact none

theorem cell_ne_empty {entry : Entry} (named : entry.name ≠ "") :
    cell config descriptor entry ≠ "" := by
  intro empty
  unfold cell at empty
  exact shownName_ne_empty config.maskNames named
    (String.append_eq_empty_iff.mp (String.append_eq_empty_iff.mp empty).1).2

@[simp] theorem length_arrangeDown (cells : List String) (columns : Nat) :
    (arrangeDown cells columns).length = rowCount cells.length columns := by
  rw [arrangeDown, List.length_map, List.length_range]

@[simp] theorem length_arrangeAcross (cells : List String) (columns : Nat) :
    (arrangeAcross cells columns).length = rowCount cells.length columns := by
  rw [arrangeAcross, List.length_map, List.length_range]

theorem rowCount_pos {count columns : Nat} (some : 0 < count) (room : 0 < columns) :
    0 < rowCount count columns :=
  Nat.div_pos (by omega) room

theorem columnWidth_pos (config : Config) (descriptor : Descriptor) :
    0 < columnWidth config descriptor := by
  have stop : ∀ position, 0 < nextTabStop position := fun position =>
    Nat.mul_pos (Nat.div_pos (Nat.le_add_left tabWidth position) (by decide)) (by decide)
  exact stop _

/-- Columns have a row at least, if there are cells. -/
theorem endsLine_columns {arrange : List String → Nat → List (List String)}
    (rows : ∀ cells columns, (arrange cells columns).length = rowCount cells.length columns)
    (some : cells config descriptor ≠ []) : EndsLine (columns arrange config descriptor) := by
  unfold columns
  dsimp only
  split
  · exact endsLine_lines some
  next room =>
    have width := columnWidth_pos config descriptor
    have several : 0 < config.width.toNat / columnWidth config descriptor :=
      Nat.div_pos (by omega) width
    have filled := rowCount_pos (List.length_pos_iff.mpr some) several
    refine (endsLine_lines fun none => ?_).append _
    rw [← rows, List.map_eq_nil_iff.mp none] at filled
    cases filled

end Layout
end DirList
