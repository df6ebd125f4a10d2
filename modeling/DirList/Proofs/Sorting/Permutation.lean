import DirList.Order
import Mathlib.Data.List.Perm.Basic

/-!
# Sorting rearranges

Whatever the test is, also one that is no order, sorting a list loses nothing and adds nothing.

Results:
1. `merge_perm`: a merge holds the elements of both runs, from whichever end it goes and however
   often it gallops.
2. `sortBy_perm`: a sorted list is a rearrangement of the list.
3. `sortEntries_perm`: entries sorted by a comparator are a rearrangement of the entries.
-/

namespace DirList

namespace Sorting

variable {α : Type}

/-! ## Runs -/

theorem continuation_append (before : α → α → Bool) (descending : Bool) (previous : α)
    (items : List α) :
    (continuation before descending previous items).1
      ++ (continuation before descending previous items).2 = items := by
  induction items generalizing previous with
  | nil => rfl
  | cons x rest ih =>
    rw [continuation]
    split
    · rw [List.cons_append, ih x]
    · rfl

theorem firstRun_cons_cons (before : α → α → Bool) (x y : α) (rest : List α) :
    firstRun before (x :: y :: rest) =
      if before y x then
        ((x :: y :: (continuation before (before y x) y rest).1).reverse,
          (continuation before (before y x) y rest).2)
      else
        (x :: y :: (continuation before (before y x) y rest).1,
          (continuation before (before y x) y rest).2) :=
  rfl

theorem firstRun_perm (before : α → α → Bool) (items : List α) :
    ((firstRun before items).1 ++ (firstRun before items).2).Perm items := by
  match items with
  | [] => exact .refl _
  | [x] => exact .refl _
  | x :: y :: rest =>
    have whole := continuation_append before (before y x) y rest
    rw [firstRun_cons_cons]
    split
    · refine ((List.reverse_perm _).append_right _).trans ?_
      exact .of_eq (by rw [List.cons_append, List.cons_append, whole])
    · exact .of_eq (by rw [List.cons_append, List.cons_append, whole])

theorem length_firstRun_pos (before : α → α → Bool) (x : α) (rest : List α) :
    0 < (firstRun before (x :: rest)).1.length := by
  cases rest with
  | nil => exact Nat.one_pos
  | cons y rest =>
    rw [firstRun_cons_cons]
    split
    · rw [List.length_reverse]
      exact Nat.succ_pos _
    · exact Nat.succ_pos _

theorem insert_perm (before : α → α → Bool) (run : List α) (x : α) :
    (insert before run x).Perm (x :: run) := by
  refine List.perm_middle.trans (List.Perm.cons x ?_)
  rw [List.take_append_drop]

theorem insertAll_perm (before : α → α → Bool) (run others : List α) :
    (insertAll before run others).Perm (run ++ others) := by
  induction others generalizing run with
  | nil => exact .of_eq (List.append_nil run).symm
  | cons x others ih =>
    refine (ih (insert before run x)).trans ?_
    refine ((insert_perm before run x).append_right others).trans ?_
    exact List.perm_middle.symm

theorem nextRun_eq (before : α → α → Bool) (least : Nat) (items : List α) :
    nextRun before least items =
      (insertAll before (firstRun before items).1
          ((firstRun before items).2.take (least - (firstRun before items).1.length)),
        (firstRun before items).2.drop (least - (firstRun before items).1.length)) :=
  rfl

theorem nextRun_perm (before : α → α → Bool) (least : Nat) (items : List α) :
    ((nextRun before least items).1 ++ (nextRun before least items).2).Perm items := by
  rw [nextRun_eq]
  refine ((insertAll_perm before _ _).append_right _).trans ?_
  rw [List.append_assoc, List.take_append_drop]
  exact firstRun_perm before items

/-- A run is cut off a list that is not empty, so that the rest of the list is shorter. -/
theorem length_nextRun_lt (before : α → α → Bool) (least : Nat) (x : α) (rest : List α) :
    (nextRun before least (x :: rest)).2.length < (x :: rest).length := by
  have whole := (firstRun_perm before (x :: rest)).length_eq
  have nonempty := length_firstRun_pos before x rest
  rw [List.length_append] at whole
  rw [nextRun_eq, List.length_drop]
  omega

/-! ## Merges -/

theorem gallopKept_perm (dir : Direction α) (runs : Runs α) :
    ((gallopKept dir runs).out ++ (gallopKept dir runs).left.rest).Perm runs.rest := by
  unfold gallopKept
  cases runs with
  | mk kept spent =>
    cases spent with
    | nil => exact .refl _
    | cons y spent =>
      simp only [Runs.rest]
      split
      · refine (List.perm_append_comm_assoc _ _ _).trans ?_
        rw [List.take_append_drop]
      · rw [List.append_assoc]
        refine (List.perm_append_comm_assoc _ _ _).trans ?_
        refine (List.Perm.append_left _ (List.perm_append_comm_assoc _ _ _)).trans ?_
        rw [List.take_append_drop]
        exact .refl _

theorem gallopSpent_perm (dir : Direction α) (runs : Runs α) :
    ((gallopSpent dir runs).out ++ (gallopSpent dir runs).left.rest).Perm runs.rest := by
  unfold gallopSpent
  cases runs with
  | mk kept spent =>
    cases kept with
    | nil => exact .refl _
    | cons x kept =>
      simp only [Runs.rest]
      split
      · rw [← List.append_assoc, List.take_append_drop]
      · rw [List.append_assoc]
        refine (List.Perm.append_left _ (List.perm_append_comm_assoc _ _ _)).trans ?_
        rw [← List.append_assoc, List.take_append_drop]
        exact .refl _

theorem gallopRound_perm (dir : Direction α) (runs : Runs α) :
    ((gallopRound dir runs).out ++ (gallopRound dir runs).left.rest).Perm runs.rest := by
  have kept := gallopKept_perm dir
  have spent := gallopSpent_perm dir
  unfold gallopRound
  cases dir.keptGallopsFirst with
  | true =>
    simp only [if_true]
    split
    · exact kept runs
    · rw [List.append_assoc]
      exact ((spent _).append_left _).trans (kept runs)
  | false =>
    simp only [Bool.false_eq_true, if_false]
    split
    · exact spent runs
    · rw [List.append_assoc]
      exact ((kept _).append_left _).trans (spent runs)

theorem mergeRest_perm (dir : Direction α) (enough : Nat) (pace : Pace) (runs : Runs α) :
    (mergeRest dir enough pace runs).1.Perm runs.rest := by
  fun_induction mergeRest dir enough pace runs with
  | case1 enough _ _ x x' xs y ys spent pace out _ result ih =>
    rw [result] at ih
    exact ih.cons y
  | case2 enough _ _ x x' xs y ys kept pace out _ result ih =>
    rw [result] at ih
    exact (ih.cons x).trans List.perm_middle.symm
  | case3 => exact .refl _
  | case4 enough runs more round going _ pace next _ out _ result ih =>
    rw [result] at ih
    exact (ih.append_left round.out).trans (gallopRound_perm dir runs)
  | case5 enough runs more round spent => exact gallopRound_perm dir runs
  | case6 => exact .refl _

theorem mergeFrom_perm (dir : Direction α) (enough : Nat) (kept spent : List α) :
    (mergeFrom dir enough kept spent).1.Perm (spent ++ kept) := by
  cases spent with
  | nil => exact .refl _
  | cons y ys => exact (mergeRest_perm dir enough (.stepping 0 0) ⟨kept, ys⟩).cons y

/-- A merge whose outer parts are in their places already. -/
theorem perm_settled {left right : List α} {out : List α} (front place : Nat)
    (inner : out.Perm (left.drop front ++ right.take place)) :
    (left.take front ++ out ++ right.drop place).Perm (left ++ right) := by
  refine ((inner.append_left _).append_right _).trans (.of_eq ?_)
  rw [List.append_assoc, List.append_assoc, List.take_append_drop, ← List.append_assoc,
    List.take_append_drop]

theorem merge_perm (before : α → α → Bool) (enough : Nat) (left right : List α) :
    (merge before enough left right).1.Perm (left ++ right) := by
  unfold merge
  split
  · rw [List.append_nil]
  next r _ =>
    dsimp only
    split
    · exact .refl _
    next l leftBack reversed =>
      have front := congrArg List.reverse reversed
      rw [List.reverse_reverse] at front
      split
      · exact .refl _
      · split
        · apply perm_settled
          exact (mergeFrom_perm _ _ _ _).trans List.perm_append_comm
        · apply perm_settled
          refine (List.reverse_perm _).trans ((mergeFrom_perm _ _ _ _).trans ?_)
          rw [front]
          exact (List.reverse_perm _).symm.append (List.reverse_perm _)

/-! ## The stack of runs -/

theorem mergeAbove_perm (before : α → α → Bool) (power : Nat) (top : Pending α) (enough : Nat)
    (below : List (Pending α)) :
    ((mergeAbove before power top enough below).2.flatMap Pending.run).Perm
      (top.run ++ below.flatMap Pending.run) := by
  induction below generalizing top enough with
  | nil => exact .refl _
  | cons next below ih =>
    rw [mergeAbove]
    split
    · refine (ih _ _).trans ?_
      refine ((merge_perm before enough next.run top.run).append_right _).trans ?_
      rw [List.append_assoc]
      exact List.perm_append_comm_assoc _ _ _
    · exact .refl _

theorem stackRuns_perm (before : α → α → Bool) (length least fuel enough : Nat)
    (stack : List (Pending α)) (items : List α) (enoughFuel : items.length ≤ fuel) :
    ((stackRuns before length least fuel enough stack items).2.flatMap Pending.run).Perm
      (stack.flatMap Pending.run ++ items) := by
  induction fuel generalizing enough stack items with
  | zero =>
    have nothing : items = [] := List.length_eq_zero_iff.mp (Nat.le_zero.mp enoughFuel)
    rw [nothing, List.append_nil]
    exact .refl _
  | succ fuel ih =>
    cases items with
    | nil =>
      rw [List.append_nil]
      exact .refl _
    | cons x rest =>
      have shorter := length_nextRun_lt before least x rest
      have left : (nextRun before least (x :: rest)).2.length ≤ fuel := by omega
      have whole := nextRun_perm before least (x :: rest)
      rw [stackRuns]
      simp only [List.isEmpty_cons, Bool.false_eq_true, if_false]
      cases stack with
      | nil =>
        refine (ih _ _ _ left).trans ?_
        simpa using whole
      | cons top below =>
        refine (ih _ _ _ left).trans ?_
        rw [List.flatMap_cons, List.append_assoc]
        refine List.perm_append_comm_assoc _ _ _ |>.trans ?_
        refine (whole.append_left _).trans ?_
        exact (mergeAbove_perm before _ top enough below).append_right _

theorem collapse_perm (before : α → α → Bool) (enough : Nat) (stack : List (List α)) :
    (collapse before enough stack).Perm stack.flatten := by
  fun_induction collapse before enough stack with
  | case1 => exact .refl _
  | case2 => simp
  | case3 enough c b =>
    refine (merge_perm before enough b c).trans ?_
    simpa using List.perm_append_comm
  | case4 enough c b a rest _ run _ result ih =>
    refine ih.trans ?_
    have merged := merge_perm before enough a b
    rw [result] at merged
    rw [List.flatten_cons, List.flatten_cons, List.flatten_cons, List.flatten_cons,
      List.flatten_cons, ← List.append_assoc b]
    exact ((merged.trans List.perm_append_comm).append_right _).append_left _
  | case5 enough c b a rest _ run _ result ih =>
    refine ih.trans ?_
    have merged := merge_perm before enough b c
    rw [result] at merged
    rw [List.flatten_cons, List.flatten_cons, List.flatten_cons, List.flatten_cons,
      List.flatten_cons, ← List.append_assoc c]
    exact (merged.trans List.perm_append_comm).append_right _

end Sorting

open Sorting

/-- A sorted list is a rearrangement of the list. -/
theorem sortBy_perm {α : Type} (before : α → α → Bool) (items : List α) :
    (sortBy before items).Perm items := by
  have stacked := stackRuns_perm before items.length (minRun items.length 0) items.length minGallop
    [] items (Nat.le_refl _)
  refine (collapse_perm before _ _).trans ?_
  rw [List.flatMap_nil, List.nil_append, List.flatMap_def] at stacked
  exact stacked

/-- Entries sorted by a comparator that answers are a rearrangement of the entries. -/
theorem sortEntries_perm {comparator : Option Comparator} {entries sorted : List Entry}
    (success : sortEntries comparator entries = .ok sorted) : sorted.Perm entries := by
  match comparator with
  | none =>
    cases success
    exact .refl _
  | some (.field _) | some (.listing _) | some (.other _) =>
    cases success
    exact sortBy_perm _ _
  | some (.failing _) =>
    rw [sortEntries] at success
    split at success
    · cases success
      exact .refl _
    · cases success

end DirList
