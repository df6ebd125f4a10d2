import DirList.Layout.Renderer
import DirList.Proofs.Layout.Endings

/-!
# Lines of a stream

A stream is cells with separators between them, broken into lines. Only a line with a single cell
reaches the width, and a line is broken only where the next cell would bring it there.

Results:
1. `exists_wrapped`: a stream consists of lines that are as full as they can be.
2. `join_streamLines`: the lines without their ends are the cells with separators between them.
3. `stream_wraps`: both for the stream of a directory.
-/

namespace DirList.Layout

/-! ## Lines -/

/-- The text of the cells of one line, with a separator behind the last of them unless there is no
further line. -/
def lineText (isLast : Bool) (group : List String) : String :=
  separator.intercalate group ++ if isLast then "" else separator

/-- The texts of the lines that hold these groups of cells. -/
def streamLines : List (List String) → List String
  | [] => []
  | group :: rest => lineText rest.isEmpty group :: streamLines rest

/-- `Wrapped width groups`: no group is empty, a line with several cells is shorter than the width,
and a line ends only where the next cell, with the separator behind it if there is a further one,
would bring it to the width. -/
inductive Wrapped (width : Int) : List (List String) → Prop
  | last {group : List String} : group ≠ [] →
      (2 ≤ group.length → ((lineText true group).length : Int) < width) → Wrapped width [group]
  | break {group : List String} {cell : String} {others : List String}
      {rest : List (List String)} : group ≠ [] →
      (2 ≤ group.length → ((lineText false group).length : Int) < width) →
      width ≤ (lineText false group).length + cell.length +
        (if others = [] ∧ rest = [] then 0 else separator.length) →
      Wrapped width ((cell :: others) :: rest) → Wrapped width (group :: (cell :: others) :: rest)

section Lines

variable {width : Int} {groups : List (List String)}

theorem Wrapped.full (wrapped : Wrapped width groups) : ∀ group ∈ groups, group ≠ [] := by
  induction wrapped with
  | last full _ => exact List.forall_mem_singleton.mpr full
  | «break» full _ _ _ ih => exact List.forall_mem_cons.mpr ⟨full, ih⟩

theorem lineText_singleton (isLast : Bool) (cell : String) :
    lineText isLast [cell] = cell ++ if isLast then "" else separator := by
  rw [lineText, String.intercalate_singleton]

theorem lineText_append {group : List String} (some : group ≠ []) (isLast : Bool) (cell : String) :
    lineText isLast (group ++ [cell]) =
      lineText false group ++ (cell ++ if isLast then "" else separator) := by
  rw [lineText, String.intercalate_append_of_ne_nil some (List.cons_ne_nil _ _),
    String.intercalate_singleton, lineText, if_neg Bool.false_ne_true]
  simp only [String.append_assoc]

theorem length_tail (isLast : Bool) : (if isLast then "" else separator).length =
    if isLast then 0 else separator.length := by
  cases isLast <;> rfl

/-- The lines without their ends are the cells with separators between them. -/
theorem join_streamLines (full : ∀ group ∈ groups, group ≠ []) :
    String.join (streamLines groups) = separator.intercalate groups.flatten := by
  induction groups with
  | nil => rfl
  | cons group rest ih =>
    obtain ⟨some, others⟩ := List.forall_mem_cons.mp full
    rw [streamLines, String.join_cons, ih others, List.flatten_cons, lineText]
    cases rest with
    | nil => simp
    | cons next rest =>
      have more : (next :: rest).flatten ≠ [] := fun none =>
        others next List.mem_cons_self (List.flatten_eq_nil_iff.mp none next List.mem_cons_self)
      rw [String.intercalate_append_of_ne_nil some more, List.isEmpty_cons,
        if_neg Bool.false_ne_true]

/-- Joining cells adds nothing but separators. -/
theorem mem_intercalate {texts : List String} {c : Char}
    (member : c ∈ (separator.intercalate texts).toList) :
    c ∈ separator.toList ∨ ∃ text ∈ texts, c ∈ text.toList := by
  induction texts with
  | nil => cases member
  | cons text rest ih =>
    by_cases last : rest = []
    · rw [last, String.intercalate_singleton] at member
      exact .inr ⟨text, List.mem_cons_self, member⟩
    rw [String.intercalate_cons_of_ne_nil last, String.toList_append, String.toList_append,
      List.mem_append, List.mem_append] at member
    rcases member with (here | between) | later
    · exact .inr ⟨text, List.mem_cons_self, here⟩
    · exact .inl between
    · rcases ih later with between | ⟨text', known, inside⟩
      · exact .inl between
      · exact .inr ⟨text', List.mem_cons_of_mem _ known, inside⟩

/-- No line is broken by a cell that is not. -/
theorem unbroken_of_mem_streamLines (full : ∀ group ∈ groups, group ≠ [])
    (even : ∀ text ∈ groups.flatten, '\n' ∉ text.toList) :
    ∀ line ∈ streamLines groups, '\n' ∉ line.toList := by
  intro line member inside
  have written : '\n' ∈ (String.join (streamLines groups)).toList := by
    rw [String.toList_join]
    exact List.mem_flatMap.mpr ⟨line, member, inside⟩
  rw [join_streamLines full] at written
  rcases mem_intercalate written with between | ⟨text, known, broken⟩
  · revert between
    decide
  · exact even text known broken

theorem lineText_ne_empty {group : List String} (some : group ≠ [])
    (full : ∀ text ∈ group, text ≠ "") (isLast : Bool) : lineText isLast group ≠ "" := by
  intro none
  obtain ⟨text, rest, rfl⟩ := List.exists_cons_of_ne_nil some
  have joined := (String.append_eq_empty_iff.mp none).1
  refine full text List.mem_cons_self ?_
  cases rest with
  | nil => rwa [String.intercalate_singleton] at joined
  | cons next rest =>
    rw [String.intercalate_cons_cons] at joined
    exact (String.append_eq_empty_iff.mp (String.append_eq_empty_iff.mp joined).1).1

theorem ne_empty_of_mem_streamLines (some : ∀ group ∈ groups, group ≠ [])
    (full : ∀ text ∈ groups.flatten, text ≠ "") : ∀ line ∈ streamLines groups, line ≠ "" := by
  induction groups with
  | nil => exact List.forall_mem_nil _
  | cons group rest ih =>
    obtain ⟨first, others⟩ := List.forall_mem_cons.mp some
    obtain ⟨here, later⟩ := List.forall_mem_append.mp full
    exact List.forall_mem_cons.mpr ⟨lineText_ne_empty first here _, ih others later⟩

theorem filter_lines {rows : List String} (unbroken : ∀ row ∈ rows, '\n' ∉ row.toList) :
    (lines rows).toList.filter (· ≠ '\n') = (String.join rows).toList := by
  induction rows with
  | nil => rfl
  | cons row rows ih =>
    obtain ⟨first, others⟩ := List.forall_mem_cons.mp unbroken
    rw [lines_cons, String.join_cons, String.toList_append, String.toList_append,
      String.toList_append, List.filter_append, List.filter_append, ih others,
      List.filter_eq_self.mpr]
    · rfl
    · exact fun c inside => decide_eq_true fun same => first (same ▸ inside)

/-- Rows that are not empty end with one newline. -/
theorem exists_body {rows : List String} (some : rows ≠ []) (full : ∀ row ∈ rows, row ≠ "")
    (unbroken : ∀ row ∈ rows, '\n' ∉ row.toList) :
    ∃ body, lines rows = body ++ "\n" ∧ ¬ EndsLine body := by
  have whole := List.dropLast_append_getLast some
  refine ⟨lines rows.dropLast ++ rows.getLast some, ?_, fun ⟨rest, ends⟩ => ?_⟩
  · conv_lhs => rw [← whole, lines_append, lines_singleton]
    rw [String.append_assoc]
  · have last := congrArg (fun text => text.toList.getLast?) ends
    have filled : (rows.getLast some).toList ≠ [] := fun none =>
      full _ (List.getLast_mem some) (String.toList_injective none)
    simp only [String.toList_append, List.getLast?_append_of_ne_nil _ filled] at last
    exact unbroken _ (List.getLast_mem some) (List.mem_of_getLast? (last.trans (by simp)))

end Lines

/-! ## Streams -/

section Streams

variable {width : Int}

/-- The cells that follow a group complete its line and make further lines. -/
theorem exists_wrapped_from (group : List String) {texts : List String} (begun : group ≠ [])
    (written : lineText texts.isEmpty group ≠ "") (full : ∀ text ∈ texts, text ≠ "")
    (short : 2 ≤ group.length → ((lineText texts.isEmpty group).length : Int) < width) :
    ∃ added groups, Wrapped width ((group ++ added) :: groups) ∧
      added ++ groups.flatten = texts ∧
      lineText texts.isEmpty group ++
          streamFrom width (lineText texts.isEmpty group).length texts =
        lines (streamLines ((group ++ added) :: groups)) := by
  induction texts generalizing group with
  | nil =>
    have some : 0 < (lineText true group).length :=
      Nat.pos_of_ne_zero fun none => written (String.length_eq_zero_iff.mp none)
    refine ⟨[], [], ?_, rfl, ?_⟩
    · rw [List.append_nil]
      exact .last begun short
    · rw [List.append_nil, List.isEmpty_nil, streamFrom, if_pos some, streamLines, streamLines,
        lines_singleton, List.isEmpty_nil]
  | cons cell rest ih =>
    obtain ⟨named, others⟩ := List.forall_mem_cons.mp full
    rw [List.isEmpty_cons] at written short ⊢
    have some : 0 < (lineText false group).length :=
      Nat.pos_of_ne_zero fun none => written (String.length_eq_zero_iff.mp none)
    rw [streamFrom]
    cases breaks : breaksBefore width (lineText false group).length cell rest.isEmpty with
    | true =>
      have reaches := of_decide_eq_true (Bool.and_eq_true_iff.mp breaks).2
      obtain ⟨added, groups, wrapped, whole, same⟩ := ih [cell] (List.cons_ne_nil _ _)
        (lineText_ne_empty (List.cons_ne_nil _ _) (List.forall_mem_singleton.mpr named) _) others
        fun two => absurd two (by simp)
      have isLast : added = [] ∧ groups = [] ↔ rest.isEmpty = true := by
        obtain ⟨-, full⟩ := List.forall_mem_cons.mp wrapped.full
        rw [← whole, List.isEmpty_iff, List.append_eq_nil_iff, List.flatten_eq_nil_iff]
        refine and_congr_right fun _ => ⟨fun none => by simp [none], fun empty => ?_⟩
        exact List.eq_nil_iff_forall_not_mem.mpr fun group member =>
          full group member (empty group member)
      refine ⟨[], (cell :: added) :: groups, ?_, ?_, ?_⟩
      · rw [List.append_nil]
        refine .break begun short ?_ wrapped
        rwa [if_congr isLast rfl rfl]
      · rw [List.nil_append, List.flatten_cons, List.cons_append, whole]
      · rw [List.singleton_append] at same
        rw [streamLines, List.isEmpty_cons, lines_cons, ← same, lineText_singleton]
        simp only [if_true, List.append_nil, String.length_append, length_tail, Nat.zero_add,
          String.append_assoc]
    | false =>
      have fits : ((lineText false group).length + cell.length +
          (if rest.isEmpty then 0 else separator.length) : Int) < width := by
        rw [breaksBefore, decide_eq_true some, Bool.true_and] at breaks
        exact Int.not_le.mp (of_decide_eq_false breaks)
      have goesOn : lineText rest.isEmpty (group ++ [cell]) ≠ "" := by
        rw [lineText_append begun]
        exact fun none =>
          named (String.append_eq_empty_iff.mp (String.append_eq_empty_iff.mp none).2).1
      obtain ⟨added, groups, wrapped, whole, same⟩ :=
        ih (group ++ [cell]) (by simp) goesOn others fun _ => by
          rw [lineText_append begun, String.length_append, String.length_append, length_tail]
          push_cast at fits ⊢
          rwa [← Int.add_assoc]
      refine ⟨cell :: added, groups, ?_, ?_, ?_⟩
      · rwa [List.append_cons]
      · rw [List.cons_append, whole]
      · rw [List.append_cons, ← same, lineText_append begun]
        simp only [Bool.false_eq_true, if_false, String.empty_append, String.length_append,
          length_tail, Nat.add_assoc, String.append_assoc]

/-- A stream of cells consists of lines that are as full as they can be. -/
theorem exists_wrapped (width : Int) {texts : List String} (some : texts ≠ [])
    (full : ∀ text ∈ texts, text ≠ "") :
    ∃ groups, groups.flatten = texts ∧ Wrapped width groups ∧
      streamFrom width 0 texts = lines (streamLines groups) := by
  obtain ⟨cell, rest, rfl⟩ := List.exists_cons_of_ne_nil some
  obtain ⟨first, others⟩ := List.forall_mem_cons.mp full
  obtain ⟨added, groups, wrapped, whole, same⟩ :=
    exists_wrapped_from [cell] (List.cons_ne_nil _ _)
      (lineText_ne_empty (List.cons_ne_nil _ _) (List.forall_mem_singleton.mpr first) _) others
      (fun two => absurd two (by simp))
  refine ⟨([cell] ++ added) :: groups, ?_, wrapped, ?_⟩
  · rw [List.flatten_cons, List.append_assoc, whole, List.singleton_append]
  · have stays : breaksBefore width 0 cell rest.isEmpty = false := rfl
    rw [← same, streamFrom, stays, lineText_singleton]
    simp only [Bool.false_eq_true, if_false, String.empty_append, String.length_append,
      length_tail, Nat.zero_add, String.append_assoc]

/-- The stream of cells that are neither empty nor broken ends with one newline, and without the
newlines inside it is the cells with commas between them. In its lines, the cells of which are those
of `groups`, only a single cell reaches the width, and a line ends only where the next cell would
bring it there. -/
theorem stream_wraps (width : Int) {texts : List String} (some : texts ≠ [])
    (full : ∀ text ∈ texts, text ≠ "") (even : ∀ text ∈ texts, '\n' ∉ text.toList) :
    (∃ body, streamFrom width 0 texts = body ++ "\n" ∧ ¬ EndsLine body ∧
      body.toList.filter (· ≠ '\n') = (", ".intercalate texts).toList) ∧
    (∃ groups, groups.flatten = texts ∧ Wrapped width groups ∧
      streamFrom width 0 texts = lines (streamLines groups) ∧
      ∀ line ∈ streamLines groups, '\n' ∉ line.toList) ∧
    ∀ config descriptor, config.width = width → cells config descriptor = texts →
      Renderer.stream.render config descriptor = Job.write (streamFrom width 0 texts) := by
  obtain ⟨groups, rfl, wrapped, same⟩ := exists_wrapped width some full
  have unbroken := unbroken_of_mem_streamLines wrapped.full even
  have filled : streamLines groups ≠ [] := by
    cases wrapped <;> exact List.cons_ne_nil _ _
  obtain ⟨body, ends, ended⟩ :=
    exists_body filled (ne_empty_of_mem_streamLines wrapped.full full) unbroken
  refine ⟨⟨body, same.trans ends, ended, ?_⟩, ⟨groups, rfl, wrapped, same, unbroken⟩, ?_⟩
  · have letters := filter_lines unbroken
    rw [ends, String.toList_append, List.filter_append, join_streamLines wrapped.full] at letters
    exact (List.append_nil _).symm.trans letters
  · rintro config descriptor rfl written
    rw [← written]
    rfl

/-- Names for a line of 14 characters. -/
def threeTexts : List String := ["alpha", "beta", "gamma"]

/-- The second text fits with its comma, the third does not. -/
theorem stream_wraps_sample :
    threeTexts ≠ [] ∧ (∀ text ∈ threeTexts, text ≠ "") ∧
    (∀ text ∈ threeTexts, '\n' ∉ text.toList) ∧
    streamFrom 14 0 threeTexts = "alpha, beta, \ngamma\n" ∧
    ∃ groups, groups.flatten = threeTexts ∧ Wrapped 14 groups ∧
      streamFrom 14 0 threeTexts = lines (streamLines groups) := by
  have some : threeTexts ≠ [] := by decide
  have full : ∀ text ∈ threeTexts, text ≠ "" := by decide
  have even : ∀ text ∈ threeTexts, '\n' ∉ text.toList := by decide
  obtain ⟨-, ⟨groups, whole, wrapped, same, -⟩, -⟩ := stream_wraps 14 some full even
  exact ⟨some, full, even, by decide, groups, whole, wrapped, same⟩

end Streams
end DirList.Layout
