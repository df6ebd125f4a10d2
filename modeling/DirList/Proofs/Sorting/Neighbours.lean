import DirList.Proofs.Sorting.Permutation
import Mathlib.Data.List.Chain

/-!
# Neighbours in a sorted list

A test that is no order can leave a list unsorted, but not locally: whenever no two elements are
each before the other, a sorted list has no two neighbours in the wrong order. A search ends at a
place where the test turns, however the elements lie elsewhere, and every element that comes out of
a merge has been compared with what follows it.

Results:
1. `gallop_turns`: a search ends where the test turns.
2. `mergeRest_isChain`: a merge brings no neighbours out in the wrong order.
3. `merge_isChain`: so do two neighbouring runs that are merged.
4. `sortBy_isChain`: a sorted list has no neighbours in the wrong order.
-/

namespace DirList

namespace Sorting

variable {α : Type}

/-! ## Searches -/

section Searching

variable {test : α → Bool} {run : List α}

/-- A test turns at a place: the element before it passes, if there is one, and no element at the
place does. -/
structure Turns (test : α → Bool) (run : List α) (place : Nat) : Prop where
  passed : ∀ before, place = before + 1 → passesAt test run before = true
  failed : passesAt test run place = false

theorem passesAt_eq_true {place : Nat} :
    passesAt test run place = true ↔ ∃ x, run[place]? = some x ∧ test x = true := by
  simp [passesAt, Option.any_eq_true]

theorem passesAt_outside {place : Nat} (outside : run.length ≤ place) :
    passesAt test run place = false := by
  simp [passesAt, List.getElem?_eq_none outside]

/-- Halving an interval at whose ends the test turns ends where it turns. -/
theorem halve_turns (middle : Middle) {low length : Nat}
    (passed : ∀ before, low = before + 1 → passesAt test run before = true)
    (failed : passesAt test run (low + length) = false) :
    Turns test run (halve middle test run low length) := by
  fun_induction halve middle test run low length with
  | case1 low => exact ⟨passed, failed⟩
  | case2 low length nonempty step inside passes ih =>
    refine ih (fun before next => ?_) ?_
    · rwa [show before = low + step by omega]
    · rwa [show low + step + 1 + (length - (step + 1)) = low + length by omega]
  | case3 low length nonempty step inside fails ih =>
    exact ih passed (Bool.eq_false_iff.mpr fails)

theorem gallopTo_turns {last reach : Nat} (ahead : last < reach)
    (passed : passesAt test run last = true) :
    (gallopTo test run last reach).1 < (gallopTo test run last reach).2 ∧
      passesAt test run (gallopTo test run last reach).1 = true ∧
      passesAt test run (gallopTo test run last reach).2 = false := by
  fun_induction gallopTo test run last reach with
  | case1 last reach inside passes ih => exact ih (by omega) passes
  | case2 last reach inside fails => exact ⟨ahead, passed, Bool.eq_false_iff.mpr fails⟩
  | case3 last reach outside =>
    refine ⟨Nat.lt_of_not_le fun beyond => ?_, passed, passesAt_outside (Nat.le_refl _)⟩
    rw [passesAt_outside beyond] at passed
    cases passed

/-- Galloping ends where the test turns. -/
theorem gallop_turns (middle : Middle) (test : α → Bool) (run : List α) :
    Turns test run (gallop middle test run) := by
  unfold gallop
  split
  next passes =>
    obtain ⟨ahead, passed, failed⟩ := gallopTo_turns Nat.one_pos passes
    refine halve_turns middle (fun before next => ?_) ?_
    · rwa [← Nat.succ.inj next]
    · rwa [Nat.add_sub_cancel' ahead]
  next fails => exact ⟨nofun, Bool.eq_false_iff.mpr fails⟩

namespace Turns

variable {place : Nat}

/-- The last element in front of the place passes. -/
theorem last (turns : Turns test run place) : ∀ x ∈ (run.take place).getLast?, test x = true := by
  intro x isLast
  cases place with
  | zero => simp at isLast
  | succ before =>
    obtain ⟨y, found, passes⟩ := passesAt_eq_true.mp (turns.passed before rfl)
    obtain ⟨inside, rfl⟩ := List.getElem?_eq_some_iff.mp found
    simp only [List.getLast?_take, Nat.add_one_ne_zero, if_false, Nat.add_sub_cancel, found,
      Option.some_or, Option.mem_some_iff] at isLast
    rwa [← isLast]

/-- The first element behind the place fails. -/
theorem first (turns : Turns test run place) : ∀ x ∈ (run.drop place).head?, test x = false := by
  intro x isFirst
  have found : run[place]? = some x := by simpa using isFirst
  simpa [passesAt, found] using turns.failed

end Turns

end Searching

/-! ## Merges -/

section Merging

/-- A direction that lets two elements come out in the right order, whichever it chooses. -/
structure Direction.Decides (dir : Direction α) (lies : α → α → Prop) : Prop where
  wins : ∀ {x y}, dir.spentFirst y x = true → lies y x
  loses : ∀ {x y}, dir.spentFirst y x = false → lies x y

/-- `Meets lies out tail runs`: what has come out is continued by either run, and either run by the
tail; the last kept element may follow the last spent one. -/
structure Meets (lies : α → α → Prop) (out tail : List α) (runs : Runs α) : Prop where
  kept : (out ++ (runs.kept ++ tail)).IsChain lies
  spent : (out ++ (runs.spent ++ tail)).IsChain lies
  ends : ∀ x ∈ runs.kept.getLast?, ∀ y ∈ runs.spent.getLast?, lies y x

variable {dir : Direction α} {lies : α → α → Prop} {out tail front back others : List α}

/-- After a stretch of one run the other run comes out. -/
theorem isChain_turn {c : α} (first : (out ++ (front ++ back)).IsChain lies)
    (second : (out ++ (c :: others)).IsChain lies) (last : ∀ x ∈ front.getLast?, lies x c) :
    (out ++ (front ++ (c :: others))).IsChain lies := by
  rcases front.eq_nil_or_concat with rfl | ⟨front, x, rfl⟩
  · exact second
  rw [← List.append_assoc] at first ⊢
  refine List.isChain_append.mpr ⟨first.left_of_append, second.right_of_append, ?_⟩
  intro y isLast z isFirst
  simp only [← List.append_assoc, List.concat_eq_append, List.getLast?_concat, List.head?_cons,
    Option.mem_some_iff] at isLast isFirst last
  rw [← isLast, ← isFirst]
  exact last x rfl

/-- After an element of one run the other run goes on. -/
theorem isChain_return {c : α} (first : (out ++ back).IsChain lies)
    (second : (out ++ (c :: others)).IsChain lies) (next : ∀ x ∈ back.head?, lies c x) :
    (out ++ (c :: back)).IsChain lies := by
  rw [List.isChain_split] at second ⊢
  exact ⟨second.1, List.isChain_cons.mpr ⟨next, first.right_of_append⟩⟩

namespace Meets

variable {runs : Runs α}

/-- Once a merge is done, what is left comes out. -/
theorem rest (meets : Meets lies out tail runs) (done : runs.isDone = true) :
    (out ++ (runs.rest ++ tail)).IsChain lies := by
  obtain ⟨kept, spent⟩ := runs
  rcases kept with _ | ⟨x, _ | ⟨x', kept⟩⟩
  · simpa [Runs.rest] using meets.spent
  · have chain : (out ++ (spent ++ (x :: tail))).IsChain lies :=
      isChain_turn meets.spent meets.kept fun y isLast => meets.ends x rfl y isLast
    simpa [Runs.rest] using chain
  · have nothing : spent = [] := by simpa [Runs.isDone] using done
    simpa [Runs.rest, nothing] using meets.kept

/-- A step of the merge, by which some elements come out. -/
theorem step {more kept spent : List α} (meets : Meets lies out tail runs)
    (first : (out ++ (more ++ (kept ++ tail))).IsChain lies)
    (second : (out ++ (more ++ (spent ++ tail))).IsChain lies)
    (keptLast : kept <:+ runs.kept) (spentLast : spent <:+ runs.spent) :
    Meets lies (out ++ more) tail ⟨kept, spent⟩ where
  kept := by rwa [List.append_assoc]
  spent := by rwa [List.append_assoc]
  ends := by
    intro x isLast y isLast'
    refine meets.ends x ?_ y ?_
    · obtain ⟨front, whole⟩ := keptLast
      rw [← whole, List.getLast?_append, isLast, Option.some_or]
      rfl
    · obtain ⟨front, whole⟩ := spentLast
      rw [← whole, List.getLast?_append, isLast', Option.some_or]
      rfl

end Meets

section Rounds

variable (decides : dir.Decides lies)
include decides

theorem gallopKept_meets {runs : Runs α} (meets : Meets lies out tail runs) :
    Meets lies (out ++ (gallopKept dir runs).out) tail (gallopKept dir runs).left := by
  obtain ⟨kept, _ | ⟨y, spent⟩⟩ := runs
  · simpa [gallopKept] using meets
  have turns := gallop_turns dir.middle (fun x => !dir.spentFirst y x) kept
  simp only [gallopKept]
  generalize gallop dir.middle (fun x => !dir.spentFirst y x) kept = place at turns
  have whole := meets.kept
  rw [← List.take_append_drop place kept, List.append_assoc] at whole
  have loses : ∀ x ∈ (kept.take place).getLast?, lies x y := fun x isLast =>
    decides.loses (by simpa using turns.last x isLast)
  have turned : (out ++ (kept.take place ++ (y :: (spent ++ tail)))).IsChain lies :=
    isChain_turn whole meets.spent loses
  split
  · exact meets.step whole turned (List.drop_suffix _ _) List.suffix_rfl
  next long =>
    refine meets.step ?_ (by simpa using turned) (List.drop_suffix _ _) (List.suffix_cons _ _)
    have wins : ∀ x ∈ (kept.drop place ++ tail).head?, lies y x := by
      intro x isFirst
      refine decides.wins ?_
      rw [List.head?_append_of_ne_nil _ (List.ne_nil_of_length_pos (by omega))] at isFirst
      simpa using turns.first x isFirst
    rw [← List.append_assoc] at whole turned
    simpa using isChain_return whole turned wins

theorem gallopSpent_meets {runs : Runs α} (meets : Meets lies out tail runs) :
    Meets lies (out ++ (gallopSpent dir runs).out) tail (gallopSpent dir runs).left := by
  obtain ⟨_ | ⟨x, kept⟩, spent⟩ := runs
  · simpa [gallopSpent] using meets
  have turns := gallop_turns dir.middle (fun y => dir.spentFirst y x) spent
  simp only [gallopSpent]
  generalize gallop dir.middle (fun y => dir.spentFirst y x) spent = place at turns
  have whole := meets.spent
  rw [← List.take_append_drop place spent, List.append_assoc] at whole
  have wins : ∀ y ∈ (spent.take place).getLast?, lies y x := fun y isLast =>
    decides.wins (turns.last y isLast)
  have turned : (out ++ (spent.take place ++ (x :: (kept ++ tail)))).IsChain lies :=
    isChain_turn whole meets.kept wins
  split
  · exact meets.step turned whole List.suffix_rfl (List.drop_suffix _ _)
  next more =>
    refine meets.step (by simpa using turned) ?_ (List.suffix_cons _ _) (List.drop_suffix _ _)
    have loses : ∀ y ∈ (spent.drop place ++ tail).head?, lies x y := by
      intro y isFirst
      refine decides.loses (turns.first y ?_)
      rwa [List.head?_append_of_ne_nil _ (by simpa using more)] at isFirst
    rw [← List.append_assoc] at whole turned
    simpa using isChain_return whole turned loses

theorem gallopRound_meets {runs : Runs α} (meets : Meets lies out tail runs) :
    Meets lies (out ++ (gallopRound dir runs).out) tail (gallopRound dir runs).left := by
  unfold gallopRound
  cases dir.keptGallopsFirst with
  | true =>
    have first := gallopKept_meets decides meets
    simp only [if_true]
    split
    · exact first
    · simpa using gallopSpent_meets decides first
  | false =>
    have first := gallopSpent_meets decides meets
    simp only [Bool.false_eq_true, if_false]
    split
    · exact first
    · simpa using gallopKept_meets decides first

/-- A merge brings no neighbours out in the wrong order, however often it gallops. -/
theorem mergeRest_isChain (enough : Nat) (pace : Pace) (runs : Runs α) :
    ∀ out, Meets lies out tail runs →
      (out ++ ((mergeRest dir enough pace runs).1 ++ tail)).IsChain lies := by
  fun_induction mergeRest dir enough pace runs with
  | case1 enough _ _ x x' xs y ys wins pace rest _ result ih =>
    intro out meets
    have chain : (out ++ ([y] ++ (x :: x' :: xs ++ tail))).IsChain lies :=
      isChain_return meets.kept meets.spent (by simpa using decides.wins wins)
    have merged := ih _ (meets.step chain meets.spent List.suffix_rfl (List.suffix_cons _ _))
    rw [result] at merged
    simpa using merged
  | case2 enough _ _ x x' xs y ys loses pace rest _ result ih =>
    intro out meets
    have chain : (out ++ ([x] ++ (y :: ys ++ tail))).IsChain lies :=
      isChain_return meets.spent meets.kept
        (by simpa using decides.loses (Bool.eq_false_iff.mpr loses))
    have merged := ih _ (meets.step meets.kept chain (List.suffix_cons _ _) List.suffix_rfl)
    rw [result] at merged
    simpa using merged
  | case3 enough _ _ runs short =>
    intro out meets
    refine meets.rest ?_
    obtain ⟨_ | ⟨x, _ | ⟨x', xs⟩⟩, _ | ⟨y, ys⟩⟩ := runs
    case cons.cons.cons => exact absurd rfl (short x x' xs y ys)
    all_goals rfl
  | case4 enough runs more round going _ pace next _ rest _ result ih =>
    intro out meets
    have merged := ih _ (gallopRound_meets decides meets)
    rw [result] at merged
    simpa using merged
  | case5 enough runs more round done =>
    intro out meets
    simpa using (gallopRound_meets decides meets).rest (by simpa using done)
  | case6 enough runs done =>
    intro out meets
    exact meets.rest (by simpa using done)

/-- A merge whose first spent element may come out before the first kept one. -/
theorem mergeFrom_isChain (enough : Nat) {kept spent : List α}
    (meets : Meets lies out tail ⟨kept, spent⟩)
    (first : ∀ y ∈ spent.head?, ∀ x ∈ (kept ++ tail).head?, lies y x) :
    (out ++ ((mergeFrom dir enough kept spent).1 ++ tail)).IsChain lies := by
  cases spent with
  | nil => exact meets.kept
  | cons y ys =>
    have chain : (out ++ ([y] ++ (kept ++ tail))).IsChain lies :=
      isChain_return meets.kept meets.spent (first y rfl)
    simpa [mergeFrom] using mergeRest_isChain decides enough (.stepping 0 0) ⟨kept, ys⟩ _
      (meets.step chain meets.spent List.suffix_rfl (List.suffix_cons _ _))

end Rounds
end Merging

/-! ## Sorting -/

/-- `x` may come out directly before `y`. -/
def Adjoins (before : α → α → Bool) (x y : α) : Prop :=
  before y x = false

section Stacking

variable {before : α → α → Bool} (asymm : ∀ x y, before x y = true → before y x = false)
include asymm

theorem fromFront_decides : (fromFront before).Decides (Adjoins before) :=
  ⟨asymm _ _, id⟩

theorem fromBack_decides : (fromBack before).Decides (flip (Adjoins before)) :=
  ⟨asymm _ _, id⟩

section Ends

variable {front left right settled : List α} (some : left ≠ []) (some' : right ≠ [])
variable (chain : (front ++ left).IsChain (Adjoins before))
variable (chain' : (right ++ settled).IsChain (Adjoins before))
variable (enters : ∀ x ∈ front.getLast?, ∀ y ∈ right.head?, Adjoins before x y)
variable (starts : ∀ x ∈ left.head?, ∀ y ∈ right.head?, before y x = true)
variable (ends : ∀ x ∈ left.getLast?, ∀ y ∈ right.getLast?, before y x = true)
variable (leaves : ∀ x ∈ left.getLast?, ∀ y ∈ settled.head?, Adjoins before x y)

include some chain chain' leaves in
omit asymm in
theorem isChain_kept : (front ++ (left ++ settled)).IsChain (Adjoins before) := by
  rw [← List.append_assoc]
  refine List.isChain_append.mpr ⟨chain, chain'.right_of_append, fun x isLast => leaves x ?_⟩
  rwa [List.getLast?_append_of_ne_nil _ some] at isLast

include some' chain chain' enters in
omit asymm in
theorem isChain_spent : (front ++ (right ++ settled)).IsChain (Adjoins before) := by
  refine List.isChain_append.mpr ⟨chain.left_of_append, chain', fun x isLast y isFirst => ?_⟩
  rw [List.head?_append_of_ne_nil _ some'] at isFirst
  exact enters x isLast y isFirst

include some some' chain chain' enters starts ends leaves

/-- A merge from the front between two parts that are in their places already. -/
theorem mergeFrom_front_isChain (enough : Nat) :
    (front ++ ((mergeFrom (fromFront before) enough left right).1 ++ settled)).IsChain
      (Adjoins before) := by
  refine mergeFrom_isChain (fromFront_decides asymm) enough
    ⟨isChain_kept some chain chain' leaves, isChain_spent some' chain chain' enters,
      fun x isLast y isLast' => asymm _ _ (ends x isLast y isLast')⟩ fun y isFirst x isFirst' => ?_
  rw [List.head?_append_of_ne_nil _ some] at isFirst'
  exact asymm _ _ (starts x isFirst' y isFirst)

/-- Such a merge from the back. -/
theorem mergeFrom_back_isChain (enough : Nat) :
    (front ++ ((mergeFrom (fromBack before) enough right.reverse left.reverse).1.reverse
      ++ settled)).IsChain (Adjoins before) := by
  have turned : ∀ {run : List α}, run.IsChain (Adjoins before) →
      run.reverse.IsChain (flip (Adjoins before)) := List.isChain_reverse.mpr
  have meets : Meets (flip (Adjoins before)) settled.reverse front.reverse
      ⟨right.reverse, left.reverse⟩ := by
    refine ⟨?_, ?_, fun y isLast x isLast' => ?_⟩
    · simpa using turned (isChain_spent some' chain chain' enters)
    · simpa using turned (isChain_kept some chain chain' leaves)
    · exact asymm _ _ (starts x (by simpa using isLast') y (by simpa using isLast))
  have merged := mergeFrom_isChain (fromBack_decides asymm) enough meets
    fun x isFirst y isFirst' => by
      rw [List.head?_append_of_ne_nil _ (by simpa using some')] at isFirst'
      exact asymm _ _ (ends x (by simpa using isFirst) y (by simpa using isFirst'))
  have back : (settled.reverse ++ ((mergeFrom (fromBack before) enough right.reverse left.reverse).1
      ++ front.reverse)).reverse.IsChain (Adjoins before) := List.isChain_reverse.mpr merged
  simpa using back

end Ends

omit asymm in
variable (before) in
/-- The left elements that are not after the first right one end where the others begin. -/
theorem front_turns (left : List α) (r : α) :
    (∀ x ∈ (left.take (gallop .right (fun x => !before r x) left)).getLast?, Adjoins before x r) ∧
      ∀ x ∈ (left.drop (gallop .right (fun x => !before r x) left)).head?, before r x = true := by
  have turns := gallop_turns .right (fun x => !before r x) left
  exact ⟨fun x isLast => by simpa [Adjoins] using turns.last x isLast,
    fun x isFirst => by simpa using turns.first x isFirst⟩

omit asymm in
/-- The right elements that are not before the last left one begin where the others end. -/
theorem back_turns {right : List α} {l : α} {place : Nat}
    (found : place = right.length - gallop .left (fun y => !before y l) right.reverse) :
    (∀ y ∈ (right.take place).getLast?, before y l = true) ∧
      ∀ y ∈ (right.drop place).head?, Adjoins before l y := by
  have turns := gallop_turns .left (fun y => !before y l) right.reverse
  subst found
  refine ⟨fun y isLast => ?_, fun y isFirst => ?_⟩
  · simpa using turns.first y (by rwa [List.drop_reverse, List.head?_reverse])
  · simpa [Adjoins] using turns.last y (by rwa [List.take_reverse, List.getLast?_reverse])

/-- Two neighbouring runs without neighbours in the wrong order are merged into such a run. -/
theorem merge_isChain (enough : Nat) {left right : List α}
    (chain : left.IsChain (Adjoins before)) (chain' : right.IsChain (Adjoins before)) :
    (merge before enough left right).1.IsChain (Adjoins before) := by
  obtain _ | ⟨r, others⟩ := right
  · exact chain
  obtain ⟨enters, starts⟩ := front_turns before left r
  have first : ∀ y ∈ (r :: others).head?, y = r := by simp
  simp only [merge]
  generalize gallop .right (fun x => !before r x) left = front at enters starts
  generalize r :: others = right at chain' first ⊢
  have whole := List.take_append_drop front left
  split
  next none =>
    have all : left.take front = left := by simpa [List.reverse_eq_nil_iff.mp none] using whole
    rw [all] at enters
    exact List.isChain_append.mpr
      ⟨chain, chain', fun x isLast y isFirst => first y isFirst ▸ enters x isLast⟩
  next l leftBack turned =>
    have last : ∀ x ∈ (left.drop front).getLast?, x = l := by simp [← List.head?_reverse, turned]
    have some : left.drop front ≠ [] := fun none => by simp [none] at turned
    rw [← whole] at chain
    generalize found : right.length - gallop .left (fun y => !before y l) right.reverse = place
    obtain ⟨ends, leaves⟩ := back_turns found.symm
    have whole' := List.take_append_drop place right
    have leaves' : ∀ x ∈ (left.drop front).getLast?, ∀ y ∈ (right.drop place).head?,
        Adjoins before x y := fun x isLast => last x isLast ▸ leaves
    split
    next none =>
      have all : right.drop place = right := by simpa [List.isEmpty_iff.mp none] using whole'
      rw [all] at leaves'
      rw [← whole]
      refine List.isChain_append.mpr ⟨chain, chain', fun x isLast => leaves' x ?_⟩
      rwa [List.getLast?_append_of_ne_nil _ some] at isLast
    next more =>
      have some' : right.take place ≠ [] := by simpa using more
      rw [← whole', List.head?_append_of_ne_nil _ some'] at first
      rw [← whole'] at chain'
      have enters' : ∀ x ∈ (left.take front).getLast?, ∀ y ∈ (right.take place).head?,
          Adjoins before x y := fun x isLast y isFirst => first y isFirst ▸ enters x isLast
      have starts' : ∀ x ∈ (left.drop front).head?, ∀ y ∈ (right.take place).head?,
          before y x = true := fun x isFirst y isFirst' => first y isFirst' ▸ starts x isFirst
      have ends' : ∀ x ∈ (left.drop front).getLast?, ∀ y ∈ (right.take place).getLast?,
          before y x = true := fun x isLast => last x isLast ▸ ends
      split
      · rw [List.append_assoc]
        exact mergeFrom_front_isChain asymm some some' chain chain' enters' starts' ends' leaves'
          enough
      · rw [← turned, List.append_assoc]
        exact mergeFrom_back_isChain asymm some some' chain chain' enters' starts' ends' leaves'
          enough

/-! ## Runs -/

omit asymm in
theorem continuation_isChain (descending : Bool) (previous : α) (items : List α) :
    (previous :: (continuation before descending previous items).1).IsChain
      fun x y => before y x = descending := by
  induction items generalizing previous with
  | nil => exact .singleton _
  | cons x rest ih =>
    rw [continuation]
    split
    next alike => exact .cons_cons alike (ih x)
    next => exact .singleton _

theorem firstRun_isChain (items : List α) :
    (firstRun before items).1.IsChain (Adjoins before) := by
  match items with
  | [] => exact .nil
  | [x] => exact .singleton _
  | x :: y :: rest =>
    have chain : (x :: y :: (continuation before (before y x) y rest).1).IsChain
        fun x' y' => before y' x' = before y x := .cons_cons rfl (continuation_isChain _ y rest)
    rw [firstRun_cons_cons]
    split
    next descends =>
      rw [descends] at chain ⊢
      exact List.isChain_reverse.mpr (chain.imp fun _ _ => asymm _ _)
    next ascends =>
      rw [Bool.not_eq_true] at ascends
      rw [ascends] at chain ⊢
      exact chain

theorem insert_isChain {run : List α} (chain : run.IsChain (Adjoins before)) (x : α) :
    (insert before run x).IsChain (Adjoins before) := by
  have turns : Turns (fun y => !before x y) run
      (halve .right (fun y => !before x y) run 0 run.length) :=
    halve_turns .right nofun (passesAt_outside (by omega))
  rw [insert]
  generalize halve .right (fun y => !before x y) run 0 run.length = place at turns
  rw [← List.take_append_drop place run] at chain
  refine List.isChain_append.mpr ⟨chain.left_of_append,
    List.isChain_cons.mpr ⟨fun y isFirst => ?_, chain.right_of_append⟩,
    fun y isLast z isFirst => ?_⟩
  · exact asymm _ _ (by simpa using turns.first y isFirst)
  · simp only [List.head?_cons, Option.mem_some_iff] at isFirst
    simpa [Adjoins, isFirst] using turns.last y isLast

theorem insertAll_isChain {run : List α} (chain : run.IsChain (Adjoins before))
    (others : List α) : (insertAll before run others).IsChain (Adjoins before) := by
  induction others generalizing run with
  | nil => exact chain
  | cons x others ih => exact ih (insert_isChain asymm chain x)

theorem nextRun_isChain (least : Nat) (items : List α) :
    (nextRun before least items).1.IsChain (Adjoins before) := by
  rw [nextRun_eq]
  exact insertAll_isChain asymm (firstRun_isChain asymm items) _

/-! ## The stack of runs -/

theorem mergeAbove_isChain (power : Nat) (top : Pending α) (enough : Nat)
    (below : List (Pending α))
    (chains : ∀ pending ∈ top :: below, pending.run.IsChain (Adjoins before)) :
    ∀ pending ∈ (mergeAbove before power top enough below).2,
      pending.run.IsChain (Adjoins before) := by
  induction below generalizing top enough with
  | nil => simpa [mergeAbove] using chains
  | cons next below ih =>
    obtain ⟨first, second, others⟩ : top.run.IsChain (Adjoins before) ∧
        next.run.IsChain (Adjoins before) ∧ ∀ pending ∈ below, pending.run.IsChain _ := by
      simpa using chains
    rw [mergeAbove]
    split
    · exact ih _ _ (List.forall_mem_cons.mpr ⟨merge_isChain asymm enough second first, others⟩)
    · exact List.forall_mem_cons.mpr ⟨first, List.forall_mem_cons.mpr ⟨second, others⟩⟩

theorem stackRuns_isChain (length least fuel enough : Nat) (stack : List (Pending α))
    (items : List α) (chains : ∀ pending ∈ stack, pending.run.IsChain (Adjoins before)) :
    ∀ pending ∈ (stackRuns before length least fuel enough stack items).2,
      pending.run.IsChain (Adjoins before) := by
  induction fuel generalizing enough stack items with
  | zero => exact chains
  | succ fuel ih =>
    have next := nextRun_isChain asymm least items
    rw [stackRuns]
    split
    · exact chains
    cases stack with
    | nil => exact ih _ _ _ (List.forall_mem_cons.mpr ⟨next, chains⟩)
    | cons top below =>
      exact ih _ _ _ (List.forall_mem_cons.mpr
        ⟨next, mergeAbove_isChain asymm _ top enough below chains⟩)

theorem collapse_isChain (enough : Nat) (stack : List (List α))
    (chains : ∀ run ∈ stack, run.IsChain (Adjoins before)) :
    (collapse before enough stack).IsChain (Adjoins before) := by
  fun_induction collapse before enough stack with
  | case1 => exact .nil
  | case2 enough run => exact chains run List.mem_cons_self
  | case3 enough c b => exact merge_isChain asymm enough (chains b (by simp)) (chains c (by simp))
  | case4 enough c b a rest _ run _ result ih =>
    have merged := merge_isChain asymm enough (chains a (by simp)) (chains b (by simp))
    rw [result] at merged
    simp only [List.forall_mem_cons] at chains ih
    exact ih ⟨chains.1, merged, chains.2.2.2⟩
  | case5 enough c b a rest _ run _ result ih =>
    have merged := merge_isChain asymm enough (chains b (by simp)) (chains c (by simp))
    rw [result] at merged
    simp only [List.forall_mem_cons] at chains ih
    exact ih ⟨merged, chains.2.2⟩

end Stacking
end Sorting

open Sorting

/-- Where no two elements are each before the other, a sorted list has no neighbours in the wrong
order, also if the test is no order. -/
theorem sortBy_isChain {α : Type} {before : α → α → Bool}
    (asymm : ∀ x y, before x y = true → before y x = false) (items : List α) :
    (sortBy before items).IsChain fun x y => before y x = false := by
  refine collapse_isChain asymm _ _ fun run member => ?_
  obtain ⟨pending, inside, rfl⟩ := List.mem_map.mp member
  exact stackRuns_isChain asymm _ _ _ _ [] items (List.forall_mem_nil _) pending inside

end DirList
