import DirList.Proofs.Sorting.Mapping

/-!
# Sorting sorts

Where the test is a strict weak order, sorting brings the elements in ascending order, and it leaves
elements that are equivalent in the order in which they were.

Results:
1. `gallop_append`: the boundary of a run that is split by a test is found.
2. `mergeRest_pairwise`: a merge comes out in order, from whichever end it goes and however often it
   gallops.
3. `merge_pairwise`: so do two neighbouring runs that are merged.
4. `sortBy_pairwise`: a sorted list is in order.
5. `filter_sortBy`: equivalent elements come out in the order in which they were.
6. `sortBy_eq_of_perm`: where no two elements are equivalent, sorting forgets how they lay.
-/

namespace DirList

namespace Sorting

variable {α : Type}

/-! ## Orders -/

/-- A strict weak order: no two elements are each before the other, and if one is not before a
second nor that before a third, then it is not before the third. -/
structure IsOrder (before : α → α → Bool) : Prop where
  asymm : ∀ {x y}, before x y = true → before y x = false
  trans : ∀ {x y z}, before x y = false → before y z = false → before x z = false

/-- `Ordered before lay x y`: in a sorted list `x` may come out before `y`, where `lay` says how
elements lay at first. -/
def Ordered (before : α → α → Bool) (lay : α → α → Prop) (x y : α) : Prop :=
  before y x = false ∧ (before x y = true ∨ lay x y)

/-- Of two elements neither of which is before the other, the one that lay first comes out first. -/
theorem Ordered.lies {before : α → α → Bool} {lay : α → α → Prop} {x y : α}
    (ordered : Ordered before lay x y) (notBefore : before x y = false) : lay x y :=
  ordered.2.resolve_left (Bool.eq_false_iff.mp notBefore)

namespace IsOrder

variable {before : α → α → Bool} {x y z : α}

/-- An element that is before another is before all that are not before that one. -/
theorem before_of_left (order : IsOrder before) (first : before x y = true)
    (second : before z y = false) : before x z = true := by
  cases known : before x z with
  | true => rfl
  | false => exact nomatch first.symm.trans (order.trans known second)

/-- An element that is not after another is before all that this is before. -/
theorem before_of_right (order : IsOrder before) (first : before y x = false)
    (second : before y z = true) : before x z = true := by
  cases known : before x z with
  | true => rfl
  | false => exact nomatch second.symm.trans (order.trans first known)

end IsOrder

/-! ## Searches -/

section Searching

variable {test : α → Bool} {front back : List α}

theorem passesAt_front (passes : ∀ x ∈ front, test x = true) {place : Nat}
    (inside : place < front.length) : passesAt test (front ++ back) place = true := by
  rw [passesAt, List.getElem?_append_left inside, List.getElem?_eq_getElem inside]
  exact passes _ (List.getElem_mem inside)

theorem passesAt_back (fails : ∀ x ∈ back, test x = false) {place : Nat}
    (outside : front.length ≤ place) : passesAt test (front ++ back) place = false := by
  rw [passesAt, List.getElem?_append_right outside]
  cases found : back[place - front.length]? with
  | none => rfl
  | some x => exact fails x (List.mem_of_getElem? found)

variable (passes : ∀ x ∈ front, test x = true) (fails : ∀ x ∈ back, test x = false)
include passes fails

theorem halve_append (middle : Middle) {low length : Nat} (above : low ≤ front.length)
    (below : front.length ≤ low + length) :
    halve middle test (front ++ back) low length = front.length := by
  generalize same : front ++ back = run
  fun_induction halve middle test run low length with
  | case1 low => omega
  | case2 low length nonempty step inside passed ih =>
    subst same
    refine ih (Nat.lt_of_not_le fun outside => ?_) (by omega)
    rw [passesAt_back fails outside] at passed
    cases passed
  | case3 low length nonempty step inside failed ih =>
    subst same
    refine ih above (Nat.le_of_not_lt fun inside => ?_)
    exact failed (passesAt_front passes inside)

theorem gallopTo_append {last reach : Nat} (passed : last < front.length) (ahead : last < reach) :
    (gallopTo test (front ++ back) last reach).1 < front.length ∧
      front.length ≤ (gallopTo test (front ++ back) last reach).2 := by
  generalize same : front ++ back = run
  fun_induction gallopTo test run last reach with
  | case1 last reach inside passed' ih =>
    subst same
    refine ih (Nat.lt_of_not_le fun outside => ?_) (by omega)
    rw [passesAt_back fails outside] at passed'
    cases passed'
  | case2 last reach inside failed =>
    subst same
    exact ⟨passed, Nat.le_of_not_lt fun inside => failed (passesAt_front passes inside)⟩
  | case3 last reach outside =>
    subst same
    refine ⟨passed, ?_⟩
    rw [List.length_append]
    exact Nat.le_add_right _ _

/-- Galloping finds the boundary of a run that is split by a test. -/
theorem gallop_append (middle : Middle) :
    gallop middle test (front ++ back) = front.length := by
  unfold gallop
  split
  next passed =>
    have some : 0 < front.length := Nat.pos_of_ne_zero fun none => by
      rw [passesAt_back fails (Nat.le_of_eq none)] at passed
      cases passed
    obtain ⟨last, reach⟩ := gallopTo_append passes fails some Nat.one_pos
    exact halve_append passes fails middle last (by omega)
  next failed =>
    refine (Nat.eq_zero_of_not_pos fun some => ?_).symm
    exact failed (passesAt_front passes some)

omit passes fails in
variable (test) in
/-- A run in order is split by every test that passes whatever comes before what it passes. -/
theorem exists_split {lies : α → α → Prop} {run : List α} (sorted : run.Pairwise lies)
    (mono : ∀ {x y}, lies x y → test y = true → test x = true) :
    ∃ front back, run = front ++ back ∧ (∀ x ∈ front, test x = true) ∧
      ∀ x ∈ back, test x = false := by
  induction run with
  | nil => exact ⟨[], [], rfl, List.forall_mem_nil _, List.forall_mem_nil _⟩
  | cons x rest ih =>
    obtain ⟨first, others⟩ := List.pairwise_cons.mp sorted
    cases passed : test x with
    | true =>
      obtain ⟨front, back, rfl, passes, fails⟩ := ih others
      exact ⟨x :: front, back, rfl, List.forall_mem_cons.mpr ⟨passed, passes⟩, fails⟩
    | false =>
      refine ⟨[], x :: rest, rfl, List.forall_mem_nil _, ?_⟩
      refine List.forall_mem_cons.mpr ⟨passed, fun y member => ?_⟩
      refine Bool.eq_false_iff.mpr fun later => ?_
      rw [mono (first y member) later] at passed
      cases passed

omit passes fails in
variable (test) in
/-- A run in order is split by a test that fails for whatever comes before what it fails for. -/
theorem exists_split_not {lies : α → α → Prop} {run : List α} (sorted : run.Pairwise lies)
    (mono : ∀ {x y}, lies x y → test x = true → test y = true) :
    ∃ front back, run = front ++ back ∧ (∀ x ∈ front, test x = false) ∧
      ∀ x ∈ back, test x = true := by
  obtain ⟨front, back, whole, passes, fails⟩ := exists_split (fun x => !test x) sorted
    fun {x _} ordered passed => by
      cases known : test x with
      | false => rfl
      | true => rw [mono ordered known] at passed; exact passed
  exact ⟨front, back, whole, fun x inside => by simpa using passes x inside,
    fun x inside => by simpa using fails x inside⟩

omit passes fails in
theorem gallop_not_append (middle : Middle) (fails : ∀ x ∈ front, test x = false)
    (passes : ∀ x ∈ back, test x = true) :
    gallop middle (fun x => !test x) (front ++ back) = front.length :=
  gallop_append (fun x inside => by rw [fails x inside]; rfl)
    (fun x inside => by rw [passes x inside]; rfl) middle

end Searching

/-! ## Merges -/

section Merging

/-- A direction whose test respects the order in which elements come out. -/
structure Direction.Fits (dir : Direction α) (lies : α → α → Prop) : Prop where
  kept : ∀ {x x' y}, lies x x' → dir.spentFirst y x = true → dir.spentFirst y x' = true
  spent : ∀ {x y y'}, lies y y' → dir.spentFirst y' x = true → dir.spentFirst y x = true

/-- What a merge starts from and keeps: both runs are in order, the test says how their elements
come out, and the last kept element comes out after all spent ones. -/
structure Merging (dir : Direction α) (lies : α → α → Prop) (runs : Runs α) : Prop where
  kept : runs.kept.Pairwise lies
  spent : runs.spent.Pairwise lies
  wins : ∀ x ∈ runs.kept, ∀ y ∈ runs.spent, dir.spentFirst y x = true → lies y x
  loses : ∀ x ∈ runs.kept, ∀ y ∈ runs.spent, dir.spentFirst y x = false → lies x y
  last : ∀ x, runs.kept.getLast? = some x → ∀ y ∈ runs.spent, dir.spentFirst y x = true

/-- `Emits lies out left`: what comes out is in order and before all that is left. -/
structure Emits (lies : α → α → Prop) (out : List α) (left : Runs α) : Prop where
  sorted : out.Pairwise lies
  first : ∀ x ∈ out, ∀ y ∈ left.rest, lies x y

variable {dir : Direction α} {lies : α → α → Prop}

namespace Merging

variable {runs : Runs α}

theorem mono (merging : Merging dir lies runs) {kept spent : List α}
    (keptLast : kept <:+ runs.kept) (spentLast : spent <:+ runs.spent) :
    Merging dir lies ⟨kept, spent⟩ where
  kept := merging.kept.sublist keptLast.sublist
  spent := merging.spent.sublist spentLast.sublist
  wins := fun x inside y inside' =>
    merging.wins x (keptLast.subset inside) y (spentLast.subset inside')
  loses := fun x inside y inside' =>
    merging.loses x (keptLast.subset inside) y (spentLast.subset inside')
  last := by
    intro x last y inside
    obtain ⟨front, whole⟩ := keptLast
    refine merging.last x ?_ y (spentLast.subset inside)
    rw [← whole, List.getLast?_append, show kept.getLast? = some x from last, Option.some_or]

/-- Once a merge is done, what is left is in order. -/
theorem rest_pairwise (merging : Merging dir lies runs) (done : runs.isDone = true) :
    runs.rest.Pairwise lies := by
  refine List.pairwise_append.mpr ⟨merging.spent, merging.kept, fun y inside' x inside => ?_⟩
  have last : runs.kept.getLast? = some x := by
    simp only [Runs.isDone, Bool.or_eq_true, decide_eq_true_eq, List.isEmpty_iff] at done
    rcases done with short | empty
    · obtain ⟨front, back, whole⟩ := List.append_of_mem inside
      rw [whole, List.length_append, List.length_cons] at short
      have none : front = [] ∧ back = [] :=
        ⟨List.length_eq_zero_iff.mp (by omega), List.length_eq_zero_iff.mp (by omega)⟩
      rw [whole, none.1, none.2]
      rfl
    · rw [empty] at inside'
      cases inside'
  exact merging.wins x inside y inside' (merging.last x last y inside')

end Merging

section Rounds

variable (fits : dir.Fits lies)
include fits

/-- A kept element that comes out before the first spent one comes out before all of them. -/
theorem lies_of_kept {kept spent : List α} {x y : α} (merging : Merging dir lies ⟨kept, y :: spent⟩)
    (inside : x ∈ kept) (loses : dir.spentFirst y x = false) : ∀ z ∈ y :: spent, lies x z := by
  intro z inside'
  refine merging.loses x inside z inside' (Bool.eq_false_iff.mpr fun wins => ?_)
  rcases List.mem_cons.mp inside' with rfl | later
  · exact Bool.false_ne_true (loses.symm.trans wins)
  · have ordered := (List.pairwise_cons.mp merging.spent).1 z later
    exact Bool.false_ne_true (loses.symm.trans (fits.spent ordered wins))

/-- A spent element that comes out before the first kept one comes out before all of them. -/
theorem lies_of_spent {kept spent : List α} {x y : α}
    (merging : Merging dir lies ⟨x :: kept, spent⟩)
    (inside : y ∈ spent) (wins : dir.spentFirst y x = true) : ∀ z ∈ x :: kept, lies y z := by
  intro z inside'
  refine merging.wins z inside' y inside ?_
  rcases List.mem_cons.mp inside' with rfl | later
  · exact wins
  · exact fits.kept ((List.pairwise_cons.mp merging.kept).1 z later) wins

theorem gallopKept_emits {runs : Runs α} (merging : Merging dir lies runs) :
    Emits lies (gallopKept dir runs).out (gallopKept dir runs).left ∧
      Merging dir lies (gallopKept dir runs).left := by
  obtain ⟨kept, _ | ⟨y, spent⟩⟩ := runs
  · exact ⟨⟨.nil, List.forall_mem_nil _⟩, merging⟩
  obtain ⟨front, back, rfl, fails, passes⟩ := exists_split_not
    (dir.spentFirst y) merging.kept fits.kept
  have loses : ∀ x ∈ front, ∀ z ∈ y :: spent, lies x z := fun x inside =>
    lies_of_kept fits merging (List.mem_append_left _ inside) (fails x inside)
  obtain ⟨frontSorted, -, between⟩ := List.pairwise_append.mp merging.kept
  have found : gallop dir.middle (fun x => !dir.spentFirst y x) (front ++ back) = front.length :=
    gallop_not_append _ fails passes
  simp only [gallopKept, found, List.drop_left, List.take_left]
  split
  · refine ⟨⟨frontSorted, fun x inside z left => ?_⟩,
      merging.mono (List.suffix_append _ _) List.suffix_rfl⟩
    exact (List.mem_append.mp left).elim (loses x inside z) (between x inside z)
  · refine ⟨⟨?_, fun x inside z left => ?_⟩,
      merging.mono (List.suffix_append _ _) (List.suffix_cons _ _)⟩
    · refine List.pairwise_append.mpr ⟨frontSorted, List.pairwise_singleton _ _, ?_⟩
      intro x inside z last
      exact loses x inside z (List.mem_singleton.mp last ▸ List.mem_cons_self)
    · rcases List.mem_append.mp inside with inside | last
      · refine (List.mem_append.mp left).elim (fun spent => ?_) (between x inside z)
        exact loses x inside z (List.mem_cons_of_mem _ spent)
      · obtain rfl := List.mem_singleton.mp last
        refine (List.mem_append.mp left).elim ((List.pairwise_cons.mp merging.spent).1 z) ?_
        intro kept
        exact merging.wins z (List.mem_append_right _ kept) x List.mem_cons_self (passes z kept)

theorem gallopSpent_emits {runs : Runs α} (merging : Merging dir lies runs) :
    Emits lies (gallopSpent dir runs).out (gallopSpent dir runs).left ∧
      Merging dir lies (gallopSpent dir runs).left := by
  obtain ⟨_ | ⟨x, kept⟩, spent⟩ := runs
  · exact ⟨⟨.nil, List.forall_mem_nil _⟩, merging⟩
  obtain ⟨front, back, rfl, passes, fails⟩ := exists_split
    (fun y => dir.spentFirst y x) merging.spent fits.spent
  have wins : ∀ y ∈ front, ∀ z ∈ x :: kept, lies y z := fun y inside =>
    lies_of_spent fits merging (List.mem_append_left _ inside) (passes y inside)
  obtain ⟨frontSorted, -, between⟩ := List.pairwise_append.mp merging.spent
  have found : gallop dir.middle (fun y => dir.spentFirst y x) (front ++ back) = front.length :=
    gallop_append passes fails _
  simp only [gallopSpent, found, List.drop_left, List.take_left]
  split
  · refine ⟨⟨frontSorted, fun y inside z left => ?_⟩,
      merging.mono List.suffix_rfl (List.suffix_append _ _)⟩
    exact (List.mem_append.mp left).elim (between y inside z) (wins y inside z)
  · refine ⟨⟨?_, fun y inside z left => ?_⟩,
      merging.mono (List.suffix_cons _ _) (List.suffix_append _ _)⟩
    · refine List.pairwise_append.mpr ⟨frontSorted, List.pairwise_singleton _ _, ?_⟩
      intro y inside z last
      exact wins y inside z (List.mem_singleton.mp last ▸ List.mem_cons_self)
    · rcases List.mem_append.mp inside with inside | last
      · refine (List.mem_append.mp left).elim (between y inside z) fun kept => ?_
        exact wins y inside z (List.mem_cons_of_mem _ kept)
      · obtain rfl := List.mem_singleton.mp last
        refine (List.mem_append.mp left).elim (fun spent => ?_)
          ((List.pairwise_cons.mp merging.kept).1 z)
        exact merging.loses y List.mem_cons_self z (List.mem_append_right _ spent) (fails z spent)

omit fits in
/-- A stretch after another one. -/
theorem Emits.append {first second : List α} {between left : Runs α}
    (one : Emits lies first between) (other : Emits lies second left)
    (same : (second ++ left.rest).Perm between.rest) : Emits lies (first ++ second) left := by
  refine ⟨List.pairwise_append.mpr ⟨one.sorted, other.sorted, fun x inside y inside' => ?_⟩,
    fun x inside y inside' => ?_⟩
  · exact one.first x inside y (same.mem_iff.mp (List.mem_append_left _ inside'))
  · rcases List.mem_append.mp inside with early | late
    · exact one.first x early y (same.mem_iff.mp (List.mem_append_right _ inside'))
    · exact other.first x late y inside'

theorem gallopRound_emits {runs : Runs α} (merging : Merging dir lies runs) :
    Emits lies (gallopRound dir runs).out (gallopRound dir runs).left ∧
      Merging dir lies (gallopRound dir runs).left := by
  unfold gallopRound
  cases dir.keptGallopsFirst with
  | true =>
    obtain ⟨emits, merging'⟩ := gallopKept_emits fits merging
    simp only [if_true]
    split
    · exact ⟨emits, merging'⟩
    · obtain ⟨emits', merging''⟩ := gallopSpent_emits fits merging'
      exact ⟨emits.append emits' (gallopSpent_perm dir _), merging''⟩
  | false =>
    obtain ⟨emits, merging'⟩ := gallopSpent_emits fits merging
    simp only [Bool.false_eq_true, if_false]
    split
    · exact ⟨emits, merging'⟩
    · obtain ⟨emits', merging''⟩ := gallopKept_emits fits merging'
      exact ⟨emits.append emits' (gallopKept_perm dir _), merging''⟩

/-- A merge comes out in order, however often it gallops. -/
theorem mergeRest_pairwise (enough : Nat) (pace : Pace) (runs : Runs α)
    (merging : Merging dir lies runs) : (mergeRest dir enough pace runs).1.Pairwise lies := by
  fun_induction mergeRest dir enough pace runs with
  | case1 enough _ _ x x' xs y ys wins pace out _ result ih =>
    have rest := mergeRest_perm dir enough pace ⟨x :: x' :: xs, ys⟩
    rw [result] at ih rest
    refine List.pairwise_cons.mpr
      ⟨fun z inside => ?_, ih (merging.mono List.suffix_rfl (List.suffix_cons _ _))⟩
    refine (List.mem_append.mp (rest.mem_iff.mp inside)).elim
      ((List.pairwise_cons.mp merging.spent).1 z) ?_
    exact lies_of_spent fits merging List.mem_cons_self wins z
  | case2 enough _ _ x x' xs y ys loses pace out _ result ih =>
    have rest := mergeRest_perm dir enough pace ⟨x' :: xs, y :: ys⟩
    rw [result] at ih rest
    refine List.pairwise_cons.mpr
      ⟨fun z inside => ?_, ih (merging.mono (List.suffix_cons _ _) List.suffix_rfl)⟩
    refine (List.mem_append.mp (rest.mem_iff.mp inside)).elim ?_
      ((List.pairwise_cons.mp merging.kept).1 z)
    exact lies_of_kept fits merging List.mem_cons_self (Bool.eq_false_iff.mpr loses) z
  | case3 enough _ _ runs short =>
    refine merging.rest_pairwise ?_
    obtain ⟨_ | ⟨x, _ | ⟨x', xs⟩⟩, _ | ⟨y, ys⟩⟩ := runs
    case cons.cons.cons => exact absurd rfl (short x x' xs y ys)
    all_goals rfl
  | case4 enough runs more round going _ pace next _ out _ result ih =>
    obtain ⟨emits, merging'⟩ := gallopRound_emits fits merging
    have rest := mergeRest_perm dir next pace round.left
    have sorted := ih merging'
    rw [result] at sorted rest
    refine List.pairwise_append.mpr ⟨emits.sorted, sorted, fun x inside y later => ?_⟩
    exact emits.first x inside y (rest.mem_iff.mp later)
  | case5 enough runs more round spent =>
    obtain ⟨emits, merging'⟩ := gallopRound_emits fits merging
    refine List.pairwise_append.mpr ⟨emits.sorted, merging'.rest_pairwise ?_, emits.first⟩
    simpa using spent
  | case6 enough runs spent => exact merging.rest_pairwise (by simpa using spent)

theorem mergeFrom_pairwise (enough : Nat) {kept spent : List α}
    (merging : Merging dir lies ⟨kept, spent⟩)
    (first : ∀ y, spent.head? = some y → ∀ x ∈ kept, dir.spentFirst y x = true) :
    (mergeFrom dir enough kept spent).1.Pairwise lies := by
  cases spent with
  | nil => exact merging.kept
  | cons y ys =>
    have rest := mergeRest_perm dir enough (.stepping 0 0) ⟨kept, ys⟩
    refine List.pairwise_cons.mpr ⟨fun z inside => ?_, mergeRest_pairwise fits _ _ _
      (merging.mono List.suffix_rfl (List.suffix_cons _ _))⟩
    refine (List.mem_append.mp (rest.mem_iff.mp inside)).elim
      ((List.pairwise_cons.mp merging.spent).1 z) fun kept => ?_
    exact merging.wins z kept y List.mem_cons_self (first y rfl z kept)

end Rounds
end Merging

/-! ## Sorting -/

section Stacking

variable {before : α → α → Bool} {lay : α → α → Prop} (order : IsOrder before)
include order

theorem fromFront_fits : (fromFront before).Fits (Ordered before lay) where
  kept := fun ordered wins => order.before_of_left wins ordered.1
  spent := fun ordered wins => order.before_of_right ordered.1 wins

theorem fromBack_fits : (fromBack before).Fits (flip (Ordered before lay)) where
  kept := fun ordered wins => order.before_of_right ordered.1 wins
  spent := fun ordered wins => order.before_of_left wins ordered.1

/-- An element that is before another one comes out before it. -/
theorem IsOrder.ordered {x y : α} (first : before x y = true) : Ordered before lay x y :=
  ⟨order.asymm first, .inl first⟩

section Ends

variable {left right : List α} (sorted : left.Pairwise (Ordered before lay))
variable (sorted' : right.Pairwise (Ordered before lay)) (lies : ∀ x ∈ left, ∀ y ∈ right, lay x y)
variable (starts : ∀ r, right.head? = some r → ∀ x ∈ left, before r x = true)
variable (ends : ∀ l, left.getLast? = some l → ∀ y ∈ right, before y l = true)
include sorted sorted' lies starts ends

/-- A merge from the front, where the first right element is before all left ones and the last left
one after all right ones. -/
theorem mergeFrom_front_pairwise (enough : Nat) :
    (mergeFrom (fromFront before) enough left right).1.Pairwise (Ordered before lay) := by
  refine mergeFrom_pairwise (fromFront_fits order) enough
    ⟨sorted, sorted', fun _ _ _ _ => order.ordered, fun x inside y inside' notBefore => ?_, ends⟩
    starts
  exact ⟨notBefore, .inr (lies x inside y inside')⟩

/-- Such a merge from the back. -/
theorem mergeFrom_back_pairwise (enough : Nat) :
    (mergeFrom (fromBack before) enough right.reverse left.reverse).1.reverse.Pairwise
      (Ordered before lay) := by
  refine List.pairwise_reverse.mpr (mergeFrom_pairwise (fromBack_fits order) enough
    ⟨List.pairwise_reverse.mpr sorted', List.pairwise_reverse.mpr sorted,
      fun _ _ _ _ => order.ordered, fun y inside' x inside notBefore => ?_,
      fun r last x inside => ?_⟩
    fun l first y inside' => ?_)
  · exact ⟨notBefore, .inr (lies x (List.mem_reverse.mp inside) y (List.mem_reverse.mp inside'))⟩
  · exact starts r (List.getLast?_reverse ▸ last) x (List.mem_reverse.mp inside)
  · exact ends l (List.head?_reverse ▸ first) y (List.mem_reverse.mp inside')

end Ends

/-- The left elements that are not after the first right one are in their places. -/
theorem exists_front {left others : List α} {r : α} (sorted : left.Pairwise (Ordered before lay))
    (sorted' : (r :: others).Pairwise (Ordered before lay))
    (lies : ∀ x ∈ left, ∀ y ∈ r :: others, lay x y) :
    ∃ front rest, left = front ++ rest ∧
      gallop .right (fun x => !before r x) left = front.length ∧
      (∀ x ∈ front, ∀ y ∈ r :: others, Ordered before lay x y) ∧
      ∀ x ∈ rest, before r x = true := by
  obtain ⟨front, rest, rfl, notAfter, after⟩ := exists_split_not (before r) sorted
    fun ordered first => order.before_of_left first ordered.1
  refine ⟨front, rest, rfl, gallop_not_append _ notAfter after, fun x inside y inside' => ?_, after⟩
  refine ⟨?_, .inr (lies x (List.mem_append_left _ inside) y inside')⟩
  rcases List.mem_cons.mp inside' with rfl | later
  · exact notAfter x inside
  · exact order.trans ((List.pairwise_cons.mp sorted').1 y later).1 (notAfter x inside)

/-- The right elements that are not before the last left one are in their places. -/
theorem exists_back {others right : List α} {l : α}
    (sorted : (others ++ [l]).Pairwise (Ordered before lay))
    (sorted' : right.Pairwise (Ordered before lay))
    (lies : ∀ x ∈ others ++ [l], ∀ y ∈ right, lay x y) :
    ∃ rest back, right = rest ++ back ∧
      gallop .left (fun y => !before y l) right.reverse = back.length ∧
      (∀ x ∈ others ++ [l], ∀ y ∈ back, Ordered before lay x y) ∧
      ∀ y ∈ rest, before y l = true := by
  obtain ⟨back, rest, whole, notBefore, earlier⟩ := exists_split_not (fun y => before y l)
    (List.pairwise_reverse.mpr sorted') fun ordered first => order.before_of_right ordered.1 first
  have parts := congrArg List.reverse whole
  rw [List.reverse_reverse, List.reverse_append] at parts
  refine ⟨rest.reverse, back.reverse, parts, ?_, fun x inside y inside' => ?_,
    fun y inside => earlier y (List.mem_reverse.mp inside)⟩
  · rw [whole, List.length_reverse]
    exact gallop_not_append _ notBefore earlier
  have notEarlier := notBefore y (List.mem_reverse.mp inside')
  refine ⟨?_, .inr (lies x inside y (parts ▸ List.mem_append_right _ inside'))⟩
  rcases List.mem_append.mp inside with early | same
  · exact order.trans notEarlier
      ((List.pairwise_append.mp sorted).2.2 x early l (List.mem_singleton_self l)).1
  · rwa [List.mem_singleton.mp same]

omit order in
/-- What is merged between a front and a back is in order with both. -/
theorem pairwise_between {lies : α → α → Prop} {front left right back inner : List α}
    (sorted : (front ++ left).Pairwise lies) (sorted' : (right ++ back).Pairwise lies)
    (ahead : ∀ x ∈ front, ∀ y ∈ right ++ back, lies x y) (behind : ∀ x ∈ left, ∀ y ∈ back, lies x y)
    (merged : inner.Pairwise lies) (same : inner.Perm (left ++ right)) :
    (front ++ inner ++ back).Pairwise lies := by
  obtain ⟨frontSorted, -, between⟩ := List.pairwise_append.mp sorted
  obtain ⟨-, backSorted, between'⟩ := List.pairwise_append.mp sorted'
  rw [List.append_assoc]
  refine List.pairwise_append.mpr ⟨frontSorted, List.pairwise_append.mpr
    ⟨merged, backSorted, fun x inside y inside' => ?_⟩, fun x inside y inside' => ?_⟩
  · exact (List.mem_append.mp (same.mem_iff.mp inside)).elim (fun left => behind x left y inside')
      fun right => between' x right y inside'
  rcases List.mem_append.mp inside' with inside' | inside'
  · exact (List.mem_append.mp (same.mem_iff.mp inside')).elim (between x inside y)
      fun right => ahead x inside y (List.mem_append_left _ right)
  · exact ahead x inside y (List.mem_append_right _ inside')

/-- Two neighbouring runs in order are merged into one. -/
theorem merge_pairwise (enough : Nat) {left right : List α}
    (sorted : left.Pairwise (Ordered before lay)) (sorted' : right.Pairwise (Ordered before lay))
    (lies : ∀ x ∈ left, ∀ y ∈ right, lay x y) :
    (merge before enough left right).1.Pairwise (Ordered before lay) := by
  obtain _ | ⟨r, others⟩ := right
  · exact sorted
  obtain ⟨front, left', rfl, found, ahead, after⟩ := exists_front order sorted sorted' lies
  obtain ⟨frontSorted, leftSorted, -⟩ := List.pairwise_append.mp sorted
  simp only [merge, found, List.drop_left, List.take_left]
  split
  next none =>
    rw [List.reverse_eq_nil_iff.mp none, List.append_nil]
    exact List.pairwise_append.mpr ⟨frontSorted, sorted', ahead⟩
  next l leftBack turned =>
    have last := congrArg List.reverse turned
    rw [List.reverse_reverse, List.reverse_cons] at last
    have lies' := fun x inside => lies x (List.mem_append_right front inside)
    obtain ⟨right', back, parts, found', behind, earlier⟩ :=
      exists_back order (last ▸ leftSorted) sorted' (last ▸ lies')
    rw [← last] at behind
    have place : (r :: others).length - back.length = right'.length := by
      rw [parts, List.length_append, Nat.add_sub_cancel]
    have taken : (r :: others).take right'.length = right' := by
      rw [parts, List.take_left]
    have dropped : (r :: others).drop right'.length = back := by
      rw [parts, List.drop_left]
    simp only [found', place, taken, dropped]
    have settled : ∀ {inner : List α}, inner.Pairwise (Ordered before lay) →
        inner.Perm (left' ++ right') →
        (front ++ inner ++ back).Pairwise (Ordered before lay) :=
      pairwise_between sorted (parts ▸ sorted') (parts ▸ ahead) behind
    have rightSorted := (List.pairwise_append.mp (parts ▸ sorted')).1
    have cross : ∀ x ∈ left', ∀ y ∈ right', lay x y := fun x inside y inside' =>
      lies' x inside y (parts ▸ List.mem_append_left _ inside')
    have starts : ∀ r', right'.head? = some r' → ∀ x ∈ left', before r' x = true := by
      intro r' first
      have head := congrArg List.head? parts
      rw [List.head?_append, first] at head
      cases head
      exact after
    have ends : ∀ l', left'.getLast? = some l' → ∀ y ∈ right', before y l' = true := by
      intro l' isLast
      rw [last, List.getLast?_concat] at isLast
      cases isLast
      exact earlier
    split
    next none =>
      have empty := List.isEmpty_iff.mp none
      rw [parts, empty, List.nil_append]
      exact settled leftSorted (by rw [empty, List.append_nil])
    split
    · exact settled (mergeFrom_front_pairwise order leftSorted rightSorted cross starts ends _)
        ((mergeFrom_perm _ _ _ _).trans List.perm_append_comm)
    · rw [← show left'.reverse = l :: leftBack from turned]
      refine settled
        (mergeFrom_back_pairwise order leftSorted rightSorted cross starts ends enough) ?_
      refine (List.reverse_perm _).trans ((mergeFrom_perm _ _ _ _).trans ?_)
      exact (List.reverse_perm _).append (List.reverse_perm _)

/-! ## Runs -/

/-- The elements that continue a run compare alike with all the ones before them. -/
theorem continuation_pairwise (descending : Bool) (previous : α) (items : List α) :
    (previous :: (continuation before descending previous items).1).Pairwise
      fun x y => before y x = descending := by
  induction items generalizing previous with
  | nil => exact List.pairwise_singleton _ _
  | cons x rest ih =>
    rw [continuation]
    split
    next alike =>
      have sorted := ih x
      refine List.pairwise_cons.mpr ⟨fun z inside => ?_, sorted⟩
      rcases List.mem_cons.mp inside with rfl | later
      · exact alike
      have alike' := (List.pairwise_cons.mp sorted).1 z later
      cases descending with
      | false => exact order.trans alike' alike
      | true => exact order.before_of_left alike' (order.asymm alike)
    · exact List.pairwise_singleton _ _

theorem firstRun_pairwise {items : List α} (lies : items.Pairwise lay) :
    (firstRun before items).1.Pairwise (Ordered before lay) := by
  match items with
  | [] => exact .nil
  | [x] => exact List.pairwise_singleton _ _
  | x :: y :: rest =>
    have whole := continuation_append before (before y x) y rest
    have sorted := continuation_pairwise order (before y x) x (y :: rest)
    rw [continuation, if_pos rfl] at sorted
    rw [firstRun_cons_cons]
    split
    next descends =>
      rw [descends] at sorted ⊢
      exact List.pairwise_reverse.mpr (sorted.imp order.ordered)
    next ascends =>
      rw [Bool.not_eq_true] at ascends
      rw [ascends] at sorted whole ⊢
      have lies' : (x :: y :: (continuation before false y rest).1).Pairwise lay := by
        rw [← whole] at lies
        exact lies.sublist (((List.sublist_append_left _ _).cons_cons y).cons_cons x)
      exact sorted.and lies' |>.imp fun both => ⟨both.1, .inr both.2⟩

theorem insert_pairwise {run : List α} {x : α} (sorted : run.Pairwise (Ordered before lay))
    (lies : ∀ y ∈ run, lay y x) : (insert before run x).Pairwise (Ordered before lay) := by
  obtain ⟨front, back, rfl, fails, passes⟩ := exists_split_not (before x) sorted
    fun ordered first => order.before_of_left first ordered.1
  have place : halve .right (fun y => !before x y) (front ++ back) 0 (front ++ back).length =
      front.length := by
    refine halve_append (fun y inside => by rw [fails y inside]; rfl)
      (fun y inside => by rw [passes y inside]; rfl) _ (Nat.zero_le _) ?_
    rw [List.length_append, Nat.zero_add]
    exact Nat.le_add_right _ _
  obtain ⟨frontSorted, backSorted, between⟩ := List.pairwise_append.mp sorted
  rw [insert, place, List.take_left, List.drop_left]
  refine List.pairwise_append.mpr ⟨frontSorted, List.pairwise_cons.mpr
    ⟨fun y inside => order.ordered (passes y inside), backSorted⟩, ?_⟩
  intro y inside z inside'
  rcases List.mem_cons.mp inside' with rfl | later
  · exact ⟨fails y inside, .inr (lies y (List.mem_append_left _ inside))⟩
  · exact between y inside z later

theorem insertAll_pairwise {run others : List α} (sorted : run.Pairwise (Ordered before lay))
    (lies : ∀ x ∈ run, ∀ y ∈ others, lay x y) (lies' : others.Pairwise lay) :
    (insertAll before run others).Pairwise (Ordered before lay) := by
  induction others generalizing run with
  | nil => exact sorted
  | cons x others ih =>
    obtain ⟨next, rest⟩ := List.pairwise_cons.mp lies'
    refine ih (insert_pairwise order sorted fun y inside => lies y inside x List.mem_cons_self)
      (fun y inside z later => ?_) rest
    rcases List.mem_cons.mp ((insert_perm before run x).mem_iff.mp inside) with rfl | old
    · exact next z later
    · exact lies y old z (List.mem_cons_of_mem _ later)

omit order in
/-- What is cut off in front of a list lay before the rest of it. -/
theorem lies_of_cut {run others items : List α} (last : others <:+ items)
    (same : (run ++ others).Perm items) (lies : items.Pairwise lay) :
    (∀ x ∈ run, ∀ y ∈ others, lay x y) ∧ others.Pairwise lay := by
  obtain ⟨front, rfl⟩ := last
  have cut : run.Perm front := (List.perm_append_right_iff _).mp same
  obtain ⟨-, rest, between⟩ := List.pairwise_append.mp lies
  exact ⟨fun x inside => between x (cut.mem_iff.mp inside), rest⟩

omit order in
theorem firstRun_suffix (before : α → α → Bool) (items : List α) :
    (firstRun before items).2 <:+ items := by
  match items with
  | [] => exact List.suffix_rfl
  | [x] => exact List.suffix_cons _ _
  | x :: y :: rest =>
    have whole := continuation_append before (before y x) y rest
    rw [firstRun_cons_cons]
    refine List.IsSuffix.trans ?_ ((List.suffix_cons y rest).trans (List.suffix_cons x _))
    split <;> exact ⟨_, whole⟩

omit order in
theorem nextRun_suffix (before : α → α → Bool) (least : Nat) (items : List α) :
    (nextRun before least items).2 <:+ items := by
  rw [nextRun_eq]
  exact (List.drop_suffix _ _).trans (firstRun_suffix before items)

theorem nextRun_pairwise (least : Nat) {items : List α} (lies : items.Pairwise lay) :
    (nextRun before least items).1.Pairwise (Ordered before lay) := by
  obtain ⟨cross, rest⟩ :=
    lies_of_cut (firstRun_suffix before items) (firstRun_perm before items) lies
  rw [nextRun_eq]
  refine insertAll_pairwise order (firstRun_pairwise order lies) (fun x inside y inside' => ?_)
    (rest.sublist (List.take_sublist _ _))
  exact cross x inside y (List.mem_of_mem_take inside')

/-! ## The stack of runs -/

/-- Runs on a stack, the last one on top: each is in order, and its elements lay before those of the
runs above it. -/
structure Stacked (before : α → α → Bool) (lay : α → α → Prop) (stack : List (List α)) : Prop where
  sorted : ∀ run ∈ stack, run.Pairwise (Ordered before lay)
  lies : stack.Pairwise fun above below => ∀ x ∈ below, ∀ y ∈ above, lay x y

omit order in
theorem stacked_cons {run : List α} {stack : List (List α)} :
    Stacked before lay (run :: stack) ↔ run.Pairwise (Ordered before lay) ∧
      (∀ x ∈ stack.flatten, ∀ y ∈ run, lay x y) ∧ Stacked before lay stack := by
  refine ⟨fun stacked => ?_, fun ⟨sorted, lies, stacked⟩ => ?_⟩
  · obtain ⟨sorted, sorted'⟩ := List.forall_mem_cons.mp stacked.sorted
    obtain ⟨lies, lies'⟩ := List.pairwise_cons.mp stacked.lies
    refine ⟨sorted, fun x inside => ?_, sorted', lies'⟩
    obtain ⟨below, member, inside⟩ := List.mem_flatten.mp inside
    exact lies below member x inside
  · refine ⟨List.forall_mem_cons.mpr ⟨sorted, stacked.sorted⟩,
      List.pairwise_cons.mpr ⟨fun below member x inside => ?_, stacked.lies⟩⟩
    exact lies x (List.mem_flatten.mpr ⟨below, member, inside⟩)

/-- Merging the two upper runs of a stack leaves it in order. -/
theorem stacked_merge (enough : Nat) {above below : List α} {stack : List (List α)}
    (stacked : Stacked before lay (above :: below :: stack)) :
    Stacked before lay ((merge before enough below above).1 :: stack) := by
  obtain ⟨sorted, lies, stacked⟩ := stacked_cons.mp stacked
  obtain ⟨sorted', lies', stacked⟩ := stacked_cons.mp stacked
  rw [List.flatten_cons] at lies
  refine stacked_cons.mpr ⟨merge_pairwise order enough sorted' sorted fun x inside =>
    lies x (List.mem_append_left _ inside), fun x inside y inside' => ?_, stacked⟩
  refine (List.mem_append.mp ((merge_perm before enough below above).mem_iff.mp inside')).elim
    (lies' x inside y) (lies x (List.mem_append_right _ inside) y)

theorem mergeAbove_stacked (power : Nat) (top : Pending α) (enough : Nat)
    (below : List (Pending α))
    (stacked : Stacked before lay ((top :: below).map Pending.run)) :
    Stacked before lay ((mergeAbove before power top enough below).2.map Pending.run) := by
  induction below generalizing top enough with
  | nil => exact stacked
  | cons next below ih =>
    rw [mergeAbove]
    split
    · exact ih ⟨_, power⟩ _ (stacked_merge order enough stacked)
    · exact stacked

theorem stackRuns_stacked (length least fuel enough : Nat) (stack : List (Pending α))
    (items : List α) (stacked : Stacked before lay (stack.map Pending.run))
    (lies : items.Pairwise lay) (lies' : ∀ x ∈ stack.flatMap Pending.run, ∀ y ∈ items, lay x y) :
    Stacked before lay
      ((stackRuns before length least fuel enough stack items).2.map Pending.run) := by
  induction fuel generalizing enough stack items with
  | zero => exact stacked
  | succ fuel ih =>
    have sorted := nextRun_pairwise order least lies
    have same := nextRun_perm before least items
    obtain ⟨cross, rest⟩ := lies_of_cut (nextRun_suffix before least items) same lies
    -- A stack that holds the same elements takes the next run on top.
    have push : ∀ stack' : List (Pending α), Stacked before lay (stack'.map Pending.run) →
        (stack'.flatMap Pending.run).Perm (stack.flatMap Pending.run) → ∀ enough,
        Stacked before lay ((stackRuns before length least fuel enough
          (⟨(nextRun before least items).1, 0⟩ :: stack') (nextRun before least items).2).2.map
            Pending.run) := by
      intro stack' stacked' elements enough
      refine ih enough _ _ (stacked_cons.mpr ⟨sorted, fun x inside y inside' => ?_, stacked'⟩) rest
        fun x inside y inside' => ?_
      · rw [← List.flatMap_def] at inside
        exact lies' x (elements.mem_iff.mp inside) y
          (same.mem_iff.mp (List.mem_append_left _ inside'))
      · rw [List.flatMap_cons] at inside
        refine (List.mem_append.mp inside).elim (fun next => cross x next y inside') fun old => ?_
        exact lies' x (elements.mem_iff.mp old) y
          (same.mem_iff.mp (List.mem_append_right _ inside'))
    rw [stackRuns]
    split
    · exact stacked
    cases stack with
    | nil => exact push [] stacked (.refl _) enough
    | cons top below =>
      exact push _ (mergeAbove_stacked order _ top enough below stacked)
        (mergeAbove_perm before _ top enough below) _

theorem collapse_pairwise (enough : Nat) (stack : List (List α))
    (stacked : Stacked before lay stack) :
    (collapse before enough stack).Pairwise (Ordered before lay) := by
  fun_induction collapse before enough stack with
  | case1 => exact .nil
  | case2 enough run => exact (stacked_cons.mp stacked).1
  | case3 enough c b => exact (stacked_cons.mp (stacked_merge order enough stacked)).1
  | case4 enough c b a rest _ run _ result ih =>
    obtain ⟨sorted, lies, stacked⟩ := stacked_cons.mp stacked
    have merged := stacked_merge order enough stacked
    have same := merge_perm before enough a b
    rw [result] at merged same
    refine ih (stacked_cons.mpr ⟨sorted, fun x inside => lies x ?_, merged⟩)
    simp only [List.flatten_cons, List.mem_append] at inside ⊢
    rcases inside with inside | inside
    · exact (List.mem_append.mp (same.mem_iff.mp inside)).elim (fun a => .inr (.inl a)) .inl
    · exact .inr (.inr inside)
  | case5 enough c b a rest _ run _ result ih =>
    have merged := stacked_merge order enough stacked
    rw [result] at merged
    exact ih merged

end Stacking
end Sorting

open Sorting

section Sorted

variable {α : Type} {before : α → α → Bool} {lay : α → α → Prop}

/-- A sorted list is in order, and elements that are equivalent come out as they lay. -/
theorem sortBy_pairwise (order : IsOrder before) {items : List α} (lies : items.Pairwise lay) :
    (sortBy before items).Pairwise (Ordered before lay) := by
  refine collapse_pairwise order _ _ (stackRuns_stacked order _ _ _ _ [] items
    ⟨List.forall_mem_nil _, .nil⟩ lies (List.forall_mem_nil _))

/-- Sorting is in order as soon as the test is an order on the elements of the list. -/
theorem sortBy_pairwise_on {p : α → Prop} (order : IsOrder fun x y : { x // p x } => before x y)
    {items : List α} (members : ∀ x ∈ items, p x) (lies : items.Pairwise lay) :
    (sortBy before items).Pairwise (Ordered before lay) := by
  have same : (items.attachWith p members).map Subtype.val = items :=
    (List.attachWith_map_val members).trans (List.map_id _)
  rw [← same, List.pairwise_map] at lies
  have mapped : sortBy before ((items.attachWith p members).map Subtype.val) = _ :=
    map_sortBy (fun _ _ => rfl) _
  rw [← same, mapped]
  exact List.pairwise_map.mpr (sortBy_pairwise order lies)

/-- Equivalent elements come out in the order in which they lay, if no two elements lay in front of
each other. -/
theorem filter_sortBy_of_lies {p : α → Prop} (order : IsOrder fun x y : { x // p x } => before x y)
    {items : List α} (members : ∀ x ∈ items, p x) (lies : items.Pairwise lay)
    (asymm : ∀ x y, lay x y → ¬lay y x) {x : α} (member : p x) :
    (sortBy before items).filter (fun y => !before x y && !before y x) =
      items.filter fun y => !before x y && !before y x := by
  have members' : ∀ y ∈ sortBy before items, p y := fun y inside =>
    members y ((sortBy_perm _ _).mem_iff.mp inside)
  refine List.Perm.eq_of_pairwise (fun y z _ _ first second => absurd first (asymm z y second)) ?_
    (lies.filter _) ((sortBy_perm _ _).filter _)
  refine ((sortBy_pairwise_on order members lies).filter _).imp_of_mem
    fun {y z} inside inside' ordered => ?_
  obtain ⟨inside, tied⟩ := List.mem_filter.mp inside
  obtain ⟨inside', tied'⟩ := List.mem_filter.mp inside'
  simp only [Bool.and_eq_true, Bool.not_eq_true'] at tied tied'
  -- both are equivalent to `x`, so neither is before the other
  have level : before y z = false := order.trans (x := ⟨y, members' y inside⟩)
    (y := ⟨x, member⟩) (z := ⟨z, members' z inside'⟩) tied.2 tied'.1
  exact ordered.lies level

variable (before) in
/-- Equivalent elements come out in the order in which they were. -/
theorem filter_sortBy {p : α → Prop} (order : IsOrder fun x y : { x // p x } => before x y)
    {items : List α} (members : ∀ x ∈ items, p x) {x : α} (member : p x) :
    (sortBy before items).filter (fun y => !before x y && !before y x) =
      items.filter fun y => !before x y && !before y x := by
  -- Elements are told apart by their places, which ascend in the list.
  let placed (one other : α × Nat) : Bool := before one.1 other.1
  have order' : IsOrder fun one other : { pair : α × Nat // p pair.1 } => placed one other :=
    ⟨fun {one other} => order.asymm (x := ⟨_, one.2⟩) (y := ⟨_, other.2⟩),
      fun {one other third} => order.trans (x := ⟨_, one.2⟩) (y := ⟨_, other.2⟩)
        (z := ⟨_, third.2⟩)⟩
  have members' : ∀ pair ∈ items.zipIdx, p pair.1 := fun pair inside =>
    members pair.1 (List.fst_mem_of_mem_zipIdx inside)
  have ascending : items.zipIdx.Pairwise fun one other => one.2 < other.2 := by
    refine List.pairwise_map.mp ?_
    rw [List.zipIdx_map_snd]
    exact List.pairwise_lt_range' 1
  have back : items.zipIdx.map Prod.fst = items := List.zipIdx_map_fst 0 items
  have mapped : sortBy before (items.zipIdx.map Prod.fst) =
      (sortBy placed items.zipIdx).map Prod.fst := map_sortBy (fun _ _ => rfl) _
  have same : (sortBy placed items.zipIdx).filter
      ((fun y => !before x y && !before y x) ∘ Prod.fst) =
        items.zipIdx.filter ((fun y => !before x y && !before y x) ∘ Prod.fst) :=
    filter_sortBy_of_lies order' members' ascending (fun _ _ => Nat.lt_asymm)
      (show p (x, 0).1 from member)
  rw [back] at mapped
  rw [mapped, List.filter_map, same, ← List.filter_map, back]

/-- Where equivalent elements lay in a fixed order, sorting forgets how the others lay. -/
theorem sortBy_eq_of_perm {p : α → Prop} (order : IsOrder fun x y : { x // p x } => before x y)
    {items items' : List α} (same : items.Perm items') (members : ∀ x ∈ items, p x)
    (lies : items.Pairwise lay) (lies' : items'.Pairwise lay)
    (total : ∀ x ∈ items, ∀ y ∈ items, before x y = false → before y x = false →
      lay x y → lay y x → x = y) : sortBy before items = sortBy before items' := by
  refine List.Perm.eq_of_pairwise (fun x y inside inside' first second => ?_)
    (sortBy_pairwise_on order members lies)
    (sortBy_pairwise_on order (fun x inside => members x (same.mem_iff.mpr inside)) lies')
    ((sortBy_perm _ _).trans (same.trans (sortBy_perm _ _).symm))
  refine total x ((sortBy_perm _ _).mem_iff.mp inside) y
    (same.mem_iff.mpr ((sortBy_perm _ _).mem_iff.mp inside')) second.1 first.1
    (first.lies second.1) (second.lies first.1)

end Sorted
end DirList
