import DirList.Proofs.Sorting.Permutation

/-!
# Sorting and maps

What a sort does depends on the answers of its test alone. So a map that keeps those answers can be
applied before or after sorting, also when the test is no order.

Results:
1. `map_merge`: merging two mapped runs is mapping their merge.
2. `map_sortBy`: sorting a mapped list is mapping the sorted list.
3. `sortBy_forall₂`: related lists are sorted to related lists.
4. `map_unnumbered_sortEntries`: entries are sorted alike whatever their identities are.
-/

namespace DirList

namespace Sorting

variable {α β : Type} {f : α → β}

/-! ## Searches -/

section Searching

variable {test : α → Bool} {test' : β → Bool} (keeps : ∀ x, test' (f x) = test x)
include keeps

theorem passesAt_map (run : List α) (place : Nat) :
    passesAt test' (run.map f) place = passesAt test run place := by
  have same : (fun x => test' (f x)) = test := funext keeps
  rw [passesAt, passesAt, List.getElem?_map, Option.any_map, same]

theorem halve_map (middle : Middle) (run : List α) (low length : Nat) :
    halve middle test' (run.map f) low length = halve middle test run low length := by
  fun_induction halve middle test run low length with
  | case1 => rw [halve, dif_pos rfl]
  | case2 low length nonempty step _ passes ih =>
    rw [halve, dif_neg nonempty]
    dsimp only
    rw [passesAt_map keeps, if_pos passes]
    exact ih
  | case3 low length nonempty step _ fails ih =>
    rw [halve, dif_neg nonempty]
    dsimp only
    rw [passesAt_map keeps, if_neg fails]
    exact ih

theorem gallopTo_map (run : List α) (last reach : Nat) :
    gallopTo test' (run.map f) last reach = gallopTo test run last reach := by
  fun_induction gallopTo test run last reach with
  | case1 last reach inside passes ih =>
    rw [gallopTo, List.length_map, dif_pos inside, passesAt_map keeps, if_pos passes]
    exact ih
  | case2 last reach inside fails =>
    rw [gallopTo, List.length_map, dif_pos inside, passesAt_map keeps, if_neg fails]
  | case3 last reach outside => rw [gallopTo, List.length_map, dif_neg outside]

theorem gallop_map (middle : Middle) (run : List α) :
    gallop middle test' (run.map f) = gallop middle test run := by
  unfold gallop
  rw [passesAt_map keeps, gallopTo_map keeps]
  simp only [halve_map keeps]

end Searching

/-! ## Runs and merges -/

section Merging

/-- A merge under a map. -/
def Runs.map (f : α → β) (runs : Runs α) : Runs β :=
  ⟨runs.kept.map f, runs.spent.map f⟩

def Stretch.map (f : α → β) (stretch : Stretch α) : Stretch β :=
  ⟨stretch.out.map f, stretch.left.map f, stretch.length⟩

def Round.map (f : α → β) (round : Round α) : Round β :=
  ⟨round.out.map f, round.left.map f, round.isLong⟩

/-- A direction under a map that keeps the answers of its test. -/
structure Direction.Keeps (f : α → β) (dir : Direction α) (dir' : Direction β) : Prop where
  spentFirst : ∀ x y, dir'.spentFirst (f x) (f y) = dir.spentFirst x y
  middle : dir'.middle = dir.middle
  keptGallopsFirst : dir'.keptGallopsFirst = dir.keptGallopsFirst

@[simp] theorem Runs.isDone_map (runs : Runs α) : (runs.map f).isDone = runs.isDone := by
  cases runs with
  | mk kept spent => cases spent <;> simp [Runs.map, Runs.isDone]

@[simp] theorem Runs.rest_map (runs : Runs α) : (runs.map f).rest = runs.rest.map f :=
  List.map_append.symm

variable {dir : Direction α} {dir' : Direction β}

theorem gallopKept_map (keeps : dir.Keeps f dir') (runs : Runs α) :
    gallopKept dir' (runs.map f) = (gallopKept dir runs).map f := by
  cases runs with
  | mk kept spent =>
    cases spent with
    | nil => rfl
    | cons y spent =>
      have length : gallop dir'.middle (fun x => !dir'.spentFirst (f y) x) (kept.map f) =
          gallop dir.middle (fun x => !dir.spentFirst y x) kept := by
        rw [keeps.middle]
        exact gallop_map (fun x => by rw [keeps.spentFirst]) dir.middle kept
      simp only [gallopKept, Runs.map, List.map_cons, length, ← List.map_drop, List.length_map]
      split
      · simp [Stretch.map, Runs.map]
      · simp [Stretch.map, Runs.map]

theorem gallopSpent_map (keeps : dir.Keeps f dir') (runs : Runs α) :
    gallopSpent dir' (runs.map f) = (gallopSpent dir runs).map f := by
  cases runs with
  | mk kept spent =>
    cases kept with
    | nil => rfl
    | cons x kept =>
      have length : gallop dir'.middle (fun y => dir'.spentFirst y (f x)) (spent.map f) =
          gallop dir.middle (fun y => dir.spentFirst y x) spent := by
        rw [keeps.middle]
        exact gallop_map (fun y => by rw [keeps.spentFirst]) dir.middle spent
      simp only [gallopSpent, Runs.map, List.map_cons, length, ← List.map_drop, List.isEmpty_map]
      split
      · simp [Stretch.map, Runs.map]
      · simp [Stretch.map, Runs.map]

theorem gallopRound_map (keeps : dir.Keeps f dir') (runs : Runs α) :
    gallopRound dir' (runs.map f) = (gallopRound dir runs).map f := by
  have first : (if dir'.keptGallopsFirst then gallopKept dir' (runs.map f)
        else gallopSpent dir' (runs.map f)) =
      (if dir.keptGallopsFirst then gallopKept dir runs else gallopSpent dir runs).map f := by
    rw [keeps.keptGallopsFirst, gallopKept_map keeps, gallopSpent_map keeps]
    split <;> rfl
  unfold gallopRound
  rw [first]
  generalize (if dir.keptGallopsFirst then gallopKept dir runs else gallopSpent dir runs) = stretch
  have second : (if dir'.keptGallopsFirst then gallopSpent dir' (stretch.map f).left
        else gallopKept dir' (stretch.map f).left) =
      (if dir.keptGallopsFirst then gallopSpent dir stretch.left
        else gallopKept dir stretch.left).map f := by
    rw [Stretch.map, keeps.keptGallopsFirst, gallopKept_map keeps, gallopSpent_map keeps]
    split <;> rfl
  have done : (stretch.map f).left.isDone = stretch.left.isDone := Runs.isDone_map _
  simp only [second, done]
  generalize (if dir.keptGallopsFirst then gallopSpent dir stretch.left
    else gallopKept dir stretch.left) = other
  split
  · rfl
  · simp only [Round.map, Stretch.map, List.map_append]
    rfl

theorem mergeRest_map (keeps : dir.Keeps f dir') (enough : Nat) (pace : Pace) (runs : Runs α) :
    mergeRest dir' enough pace (runs.map f) =
      ((mergeRest dir enough pace runs).1.map f, (mergeRest dir enough pace runs).2) := by
  fun_induction mergeRest dir enough pace runs with
  | case1 enough _ spentWins x x' xs y ys spent pace out next result ih =>
    rw [result] at ih
    simp only [Runs.map, List.map_cons, pace, dite_eq_ite] at ih ⊢
    rw [mergeRest]
    simp only [keeps.spentFirst, spent, if_true, ih]
  | case2 enough keptWins _ x x' xs y ys kept pace out next result ih =>
    rw [result] at ih
    simp only [Runs.map, List.map_cons, pace, dite_eq_ite] at ih ⊢
    rw [mergeRest]
    simp only [keeps.spentFirst, kept, Bool.false_eq_true, if_false, ih]
  | case3 enough _ _ runs short =>
    rw [mergeRest]
    · simp only [Runs.rest_map]
    · -- A run that is too short stays too short.
      intro x x' xs y ys equal
      cases runs with
      | mk kept spent =>
        simp only [Runs.map, Runs.mk.injEq, List.map_eq_cons_iff] at equal
        obtain ⟨⟨a, kept', rfl, _, b, kept'', rfl, _⟩, c, spent', rfl, _⟩ := equal
        exact short a b kept'' c spent' rfl
  | case4 enough runs more round going _ pace next paced out after result ih =>
    rw [result] at ih
    have same : gallopRound dir' (runs.map f) = round.map f := gallopRound_map keeps runs
    have going' : (round.map f).left.isDone = false := (Runs.isDone_map round.left).trans going
    rw [mergeRest, dif_pos ((Runs.isDone_map runs).trans more)]
    simp only [same, dif_pos going']
    simp only [dite_eq_ite] at paced
    rw [show (round.map f).isLong = round.isLong from rfl, paced]
    simp only [show (round.map f).left = round.left.map f from rfl, ih]
    rw [show (round.map f).out = round.out.map f from rfl, List.map_append]
  | case5 enough runs more round spent =>
    have same : gallopRound dir' (runs.map f) = round.map f := gallopRound_map keeps runs
    have spent' : ¬ (round.map f).left.isDone = false :=
      fun going => spent ((Runs.isDone_map round.left).symm.trans going)
    rw [mergeRest, dif_pos ((Runs.isDone_map runs).trans more)]
    simp only [same, dif_neg spent']
    rw [List.map_append, ← Runs.rest_map]
    rfl
  | case6 enough runs spent =>
    have spent' : ¬ (runs.map f).isDone = false :=
      fun more => spent ((Runs.isDone_map runs).symm.trans more)
    rw [mergeRest, dif_neg spent', Runs.rest_map]

theorem mergeFrom_map (keeps : dir.Keeps f dir') (enough : Nat) (kept spent : List α) :
    mergeFrom dir' enough (kept.map f) (spent.map f) =
      ((mergeFrom dir enough kept spent).1.map f, (mergeFrom dir enough kept spent).2) := by
  cases spent with
  | nil => rfl
  | cons y ys =>
    have rest := mergeRest_map keeps enough (.stepping 0 0) ⟨kept, ys⟩
    simp only [Runs.map] at rest
    simp only [mergeFrom, List.map_cons, rest]

end Merging

section Stacking

variable {before : α → α → Bool} {after : β → β → Bool}
variable (keeps : ∀ x y, after (f x) (f y) = before x y)
include keeps

theorem fromFront_keeps : (fromFront before).Keeps f (fromFront after) :=
  ⟨keeps, rfl, rfl⟩

theorem fromBack_keeps : (fromBack before).Keeps f (fromBack after) :=
  ⟨fun x y => keeps y x, rfl, rfl⟩

theorem map_merge (enough : Nat) (left right : List α) :
    merge after enough (left.map f) (right.map f) =
      ((merge before enough left right).1.map f, (merge before enough left right).2) := by
  cases right with
  | nil => rfl
  | cons r right =>
    have front : gallop .right (fun x => !after (f r) x) (left.map f) =
        gallop .right (fun x => !before r x) left :=
      gallop_map (fun x => by rw [keeps]) _ left
    simp only [List.map_cons, merge, front, ← List.map_drop, ← List.map_reverse]
    cases (left.drop (gallop .right (fun x => !before r x) left)).reverse with
    | nil => simp
    | cons l leftBack =>
      have back : gallop .left (fun y => !after y (f l)) ((r :: right).map f).reverse =
          gallop .left (fun y => !before y l) (r :: right).reverse := by
        rw [← List.map_reverse]
        exact gallop_map (fun y => by rw [keeps]) _ _
      rw [List.map_cons] at back
      simp only [List.map_cons, back]
      simp only [← List.map_cons (f := f), ← List.map_take, ← List.map_drop, ← List.map_reverse,
        List.length_map, List.isEmpty_map, mergeFrom_map (fromFront_keeps keeps),
        mergeFrom_map (fromBack_keeps keeps), ← List.map_append]
      split
      · rfl
      · split <;> rfl

theorem continuation_map (descending : Bool) (previous : α) (items : List α) :
    continuation after descending (f previous) (items.map f) =
      ((continuation before descending previous items).1.map f,
        (continuation before descending previous items).2.map f) := by
  induction items generalizing previous with
  | nil => rfl
  | cons x rest ih =>
    rw [List.map_cons, continuation, continuation, keeps]
    split
    · rw [ih x]
      rfl
    · rfl

theorem firstRun_map (items : List α) :
    firstRun after (items.map f) =
      ((firstRun before items).1.map f, (firstRun before items).2.map f) := by
  match items with
  | [] => rfl
  | [x] => rfl
  | x :: y :: rest =>
    rw [List.map_cons, List.map_cons, firstRun, firstRun, keeps, continuation_map keeps]
    dsimp only
    split
    · simp only [List.map_reverse, List.map_cons]
    · rfl

theorem insert_map (run : List α) (x : α) :
    insert after (run.map f) (f x) = (insert before run x).map f := by
  have place : halve .right (fun y => !after (f x) y) (run.map f) 0 (run.map f).length =
      halve .right (fun y => !before x y) run 0 run.length := by
    rw [List.length_map]
    exact halve_map (fun y => by rw [keeps]) _ run 0 run.length
  rw [insert, insert, place]
  simp only [List.map_append, List.map_take, List.map_cons, List.map_drop]

theorem insertAll_map (run others : List α) :
    insertAll after (run.map f) (others.map f) = (insertAll before run others).map f := by
  induction others generalizing run with
  | nil => rfl
  | cons x others ih =>
    rw [List.map_cons]
    simp only [insertAll, List.foldl_cons, insert_map keeps]
    exact ih (insert before run x)

theorem nextRun_map (least : Nat) (items : List α) :
    nextRun after least (items.map f) =
      ((nextRun before least items).1.map f, (nextRun before least items).2.map f) := by
  rw [nextRun, nextRun, firstRun_map keeps]
  dsimp only
  rw [List.length_map, ← List.map_take, ← List.map_drop, insertAll_map keeps]

/-- A run on the stack under a map. -/
def Pending.map (f : α → β) (pending : Pending α) : Pending β :=
  ⟨pending.run.map f, pending.power⟩

theorem mergeAbove_map (power : Nat) (top : Pending α) (enough : Nat) (below : List (Pending α)) :
    mergeAbove after power (top.map f) enough (below.map (Pending.map f)) =
      ((mergeAbove before power top enough below).1,
        (mergeAbove before power top enough below).2.map (Pending.map f)) := by
  induction below generalizing top enough with
  | nil => rfl
  | cons next below ih =>
    rw [List.map_cons, mergeAbove, mergeAbove]
    simp only [Pending.map, map_merge keeps]
    split
    · exact ih ⟨(merge before enough next.run top.run).1, power⟩ _
    · rfl

theorem stackRuns_map (length least fuel enough : Nat) (stack : List (Pending α))
    (items : List α) :
    stackRuns after length least fuel enough (stack.map (Pending.map f)) (items.map f) =
      ((stackRuns before length least fuel enough stack items).1,
        (stackRuns before length least fuel enough stack items).2.map (Pending.map f)) := by
  induction fuel generalizing enough stack items with
  | zero => rfl
  | succ fuel ih =>
    rw [stackRuns, stackRuns, List.isEmpty_map, nextRun_map keeps]
    split
    · rfl
    · cases stack with
      | nil => exact ih _ [⟨_, 0⟩] _
      | cons top below =>
        have start : (below.map (Pending.map f)).foldr
              (fun pending count => pending.run.length + count) 0 =
            below.foldr (fun pending count => pending.run.length + count) 0 := by
          rw [List.foldr_map]
          simp only [Pending.map, List.length_map]
        simp only [List.map_cons, start, mergeAbove_map keeps]
        simp only [Pending.map, List.length_map]
        exact ih _ (⟨_, 0⟩ :: _) _

theorem collapse_map (enough : Nat) (stack : List (List α)) :
    collapse after enough (stack.map (List.map f)) = (collapse before enough stack).map f := by
  fun_induction collapse before enough stack with
  | case1 => simp only [List.map_nil, collapse]
  | case2 => simp only [List.map_cons, List.map_nil, collapse]
  | case3 enough c b =>
    simp only [List.map_cons, List.map_nil, collapse, map_merge keeps]
  | case4 enough c b a rest shorter run next result ih =>
    simp only [List.map_cons] at ih ⊢
    rw [collapse]
    simp only [List.length_map, shorter, if_true, map_merge keeps, result, ih]
  | case5 enough c b a rest longer run next result ih =>
    simp only [List.map_cons] at ih ⊢
    rw [collapse]
    simp only [List.length_map, longer, if_false, map_merge keeps, result, ih]

end Stacking
end Sorting

open Sorting

/-- A map that keeps the answers of the test can be applied before or after sorting. -/
theorem map_sortBy {α β : Type} {f : α → β} {before : α → α → Bool} {after : β → β → Bool}
    (keeps : ∀ x y, after (f x) (f y) = before x y) (items : List α) :
    sortBy after (items.map f) = (sortBy before items).map f := by
  rw [sortBy, sortBy]
  simp only [List.length_map]
  have stacked := stackRuns_map keeps items.length (minRun items.length 0) items.length minGallop
    [] items
  rw [List.map_nil] at stacked
  rw [stacked, ← collapse_map keeps, List.map_map, List.map_map]
  rfl

/-- Related lists are sorted to related lists, if the tests give the same answers on related
elements. -/
theorem sortBy_forall₂ {α β : Type} {related : α → β → Prop} {before : α → α → Bool}
    {after : β → β → Bool}
    (keeps : ∀ {x y x' y'}, related x x' → related y y' → after x' y' = before x y)
    {items : List α} {items' : List β} (same : List.Forall₂ related items items') :
    List.Forall₂ related (sortBy before items) (sortBy after items') := by
  -- Related lists are the two sides of a list of related pairs.
  obtain ⟨pairs, rfl, rfl⟩ : ∃ pairs : List { pair : α × β // related pair.1 pair.2 },
      pairs.map (fun pair => pair.1.1) = items ∧ pairs.map (fun pair => pair.1.2) = items' := by
    induction same with
    | nil => exact ⟨[], rfl, rfl⟩
    | cons first _ ih =>
      obtain ⟨pairs, left, right⟩ := ih
      exact ⟨⟨(_, _), first⟩ :: pairs, by rw [List.map_cons, left], by rw [List.map_cons, right]⟩
  let first (pair pair' : { pair : α × β // related pair.1 pair.2 }) : Bool :=
    before pair.1.1 pair'.1.1
  have left : sortBy before (pairs.map fun pair => pair.1.1) = (sortBy first pairs).map _ :=
    map_sortBy (fun _ _ => rfl) pairs
  have right : sortBy after (pairs.map fun pair => pair.1.2) = (sortBy first pairs).map _ :=
    map_sortBy (fun pair pair' => keeps pair.2 pair'.2) pairs
  rw [left, right, List.forall₂_map_left_iff, List.forall₂_map_right_iff]
  exact List.forall₂_same.mpr fun pair _ => pair.2

/-! ## Entries -/

@[simp] theorem Entry.unnumbered_unnumbered (entry : Entry) :
    entry.unnumbered.unnumbered = entry.unnumbered := by
  simp [Entry.unnumbered]

theorem map_unnumbered_sortEntriesBy {order : Entry → Entry → Ordering}
    (blind : ∀ a b, order a.unnumbered b.unnumbered = order a b) (entries : List Entry) :
    sortEntriesBy order (entries.map Entry.unnumbered) =
      (sortEntriesBy order entries).map Entry.unnumbered :=
  map_sortBy (fun a b => by rw [blind]) entries

/-- Entries are sorted alike whatever their identities are. -/
theorem map_unnumbered_sortEntries (comparator : Option Comparator) (entries : List Entry) :
    sortEntries comparator (entries.map Entry.unnumbered) =
      (sortEntries comparator entries).map (List.map Entry.unnumbered) := by
  match comparator with
  | none => rfl
  | some (.field order) =>
    exact congrArg Except.ok (map_unnumbered_sortEntriesBy (fun _ _ => rfl) entries)
  | some (.listing order) =>
    exact congrArg Except.ok (map_unnumbered_sortEntriesBy (fun _ _ => rfl) entries)
  | some (.other order) =>
    exact congrArg Except.ok (map_unnumbered_sortEntriesBy (fun _ _ => by simp) entries)
  | some (.failing error) =>
    rw [sortEntries, sortEntries, List.length_map]
    split <;> rfl

end DirList
