import DirList.Sorting.Search

/-!
# Merging two runs

Two neighbouring runs are merged from the end at which the shorter one lies. What comes out first is
decided element by element until one run wins several times in a row; then whole stretches are
taken, found by galloping, as long as they are long enough. How many wins are enough is adapted
while merging and handed on to the next merge.
-/

namespace DirList.Sorting

variable {α : Type}

/-- A merge seen from one of its ends. The `kept` run keeps its last element until the other run,
the `spent` one, is used up. -/
structure Direction (α : Type) where
  /-- Whether a spent element comes out before a kept one. -/
  spentFirst : α → α → Bool
  middle : Middle
  /-- Whether a round of galloping starts with the kept run. -/
  keptGallopsFirst : Bool

/-- Stretches of at least this length keep a merge galloping. -/
def minGallop : Nat := 7

/-- The state of a merge: what is left of the two runs. -/
structure Runs (α : Type) where
  kept : List α
  spent : List α

namespace Runs

def size (runs : Runs α) : Nat :=
  runs.kept.length + runs.spent.length

/-- Whether the rest of a merge is the spent run followed by the kept one. -/
def isDone (runs : Runs α) : Bool :=
  runs.kept.length ≤ 1 || runs.spent.isEmpty

def rest (runs : Runs α) : List α :=
  runs.spent ++ runs.kept

end Runs

/-- One half of a round of galloping: what comes out, what is left, and the length of the stretch.
-/
structure Stretch (α : Type) where
  out : List α
  left : Runs α
  length : Nat

/-- The kept elements before the first spent one come out, and then that one. -/
def gallopKept (dir : Direction α) (runs : Runs α) : Stretch α :=
  match runs.spent with
  | [] => ⟨[], runs, 0⟩
  | y :: spent =>
    let length := gallop dir.middle (fun x => !dir.spentFirst y x) runs.kept
    let kept := runs.kept.drop length
    if kept.length ≤ 1 then ⟨runs.kept.take length, ⟨kept, y :: spent⟩, length⟩
    else ⟨runs.kept.take length ++ [y], ⟨kept, spent⟩, length⟩

/-- The spent elements before the first kept one come out, and then that one. -/
def gallopSpent (dir : Direction α) (runs : Runs α) : Stretch α :=
  match runs.kept with
  | [] => ⟨[], runs, 0⟩
  | x :: kept =>
    let length := gallop dir.middle (fun y => dir.spentFirst y x) runs.spent
    let spent := runs.spent.drop length
    if spent.isEmpty then ⟨runs.spent.take length, ⟨x :: kept, spent⟩, length⟩
    else ⟨runs.spent.take length ++ [x], ⟨kept, spent⟩, length⟩

theorem size_gallopKept (dir : Direction α) (runs : Runs α) :
    (gallopKept dir runs).left.size ≤ runs.size := by
  unfold gallopKept
  cases spent : runs.spent with
  | nil => simp
  | cons y rest =>
    simp only
    split
    · simp [Runs.size, spent]
    · simp only [Runs.size, spent, List.length_cons, List.length_drop]
      omega

theorem size_gallopSpent (dir : Direction α) (runs : Runs α) :
    (gallopSpent dir runs).left.size ≤ runs.size := by
  unfold gallopSpent
  cases kept : runs.kept with
  | nil => simp
  | cons x rest =>
    simp only
    split
    · simp [Runs.size, kept]
    · simp only [Runs.size, kept, List.length_cons, List.length_drop]
      omega

theorem size_gallopKept_lt {dir : Direction α} {runs : Runs α}
    (more : runs.isDone = false) (going : (gallopKept dir runs).left.isDone = false) :
    (gallopKept dir runs).left.size < runs.size := by
  unfold gallopKept at going ⊢
  cases spent : runs.spent with
  | nil => simp [Runs.isDone, spent] at more
  | cons y rest =>
    simp only [spent] at going ⊢
    split at going
    next short =>
      simp [Runs.isDone] at going short
      omega
    next long =>
      rw [if_neg long]
      simp [Runs.size, spent]
      omega

theorem size_gallopSpent_lt {dir : Direction α} {runs : Runs α}
    (more : runs.isDone = false) (going : (gallopSpent dir runs).left.isDone = false) :
    (gallopSpent dir runs).left.size < runs.size := by
  unfold gallopSpent at going ⊢
  cases kept : runs.kept with
  | nil => simp [Runs.isDone, kept] at more
  | cons x rest =>
    simp only [kept] at going ⊢
    split at going
    next short => simp [Runs.isDone, short] at going
    next long =>
      rw [if_neg long]
      simp [Runs.size, kept]
      omega

/-- A round of galloping: a stretch of each run, the second only if the merge is not done before. -/
structure Round (α : Type) where
  out : List α
  left : Runs α
  /-- Whether one of the stretches was long enough to gallop again. -/
  isLong : Bool

def gallopRound (dir : Direction α) (runs : Runs α) : Round α :=
  let first := if dir.keptGallopsFirst then gallopKept dir runs else gallopSpent dir runs
  if first.left.isDone then ⟨first.out, first.left, false⟩
  else
    let second :=
      if dir.keptGallopsFirst then gallopSpent dir first.left else gallopKept dir first.left
    ⟨first.out ++ second.out, second.left, minGallop ≤ first.length || minGallop ≤ second.length⟩

theorem size_gallopRound {dir : Direction α} {runs : Runs α}
    (more : runs.isDone = false) (going : (gallopRound dir runs).left.isDone = false) :
    (gallopRound dir runs).left.size < runs.size := by
  unfold gallopRound at going ⊢
  cases way : dir.keptGallopsFirst with
  | true =>
    simp only [way, if_true] at going ⊢
    split at going
    next finished => simp [finished] at going
    next unfinished =>
      rw [if_neg unfinished]
      exact Nat.lt_of_le_of_lt (size_gallopSpent _ _)
        (size_gallopKept_lt more (by simpa using unfinished))
  | false =>
    simp only [way, Bool.false_eq_true, if_false] at going ⊢
    split at going
    next finished => simp [finished] at going
    next unfinished =>
      rw [if_neg unfinished]
      exact Nat.lt_of_le_of_lt (size_gallopKept _ _)
        (size_gallopSpent_lt more (by simpa using unfinished))

/-- How a merge goes on. -/
inductive Pace where
  /-- Element by element, after so many wins in a row of the kept and of the spent run. -/
  | stepping (keptWins spentWins : Nat)
  | galloping
deriving DecidableEq, Repr

/-- The merge of what is left of two runs, and the wins that the next merge needs before it
gallops. -/
def mergeRest (dir : Direction α) (enough : Nat) (pace : Pace) (runs : Runs α) : List α × Nat :=
  match pace, runs with
  | .stepping keptWins spentWins, ⟨x :: x' :: xs, y :: ys⟩ =>
    if dir.spentFirst y x then
      let pace := if enough ≤ spentWins + 1 then .galloping else .stepping 0 (spentWins + 1)
      let (out, enough) := mergeRest dir enough pace ⟨x :: x' :: xs, ys⟩
      (y :: out, enough)
    else
      let pace := if enough ≤ keptWins + 1 then .galloping else .stepping (keptWins + 1) 0
      let (out, enough) := mergeRest dir enough pace ⟨x' :: xs, y :: ys⟩
      (x :: out, enough)
  | .stepping .., runs => (runs.rest, enough)
  | .galloping, runs =>
    if more : runs.isDone = false then
      let round := gallopRound dir runs
      if going : round.left.isDone = false then
        have : round.left.size < runs.size := size_gallopRound more going
        let (pace, next) : Pace × Nat :=
          if round.isLong then (.galloping, if 1 < enough then enough - 1 else enough)
          else (.stepping 0 0, enough + 1)
        let (out, enough) := mergeRest dir next pace round.left
        (round.out ++ out, enough)
      else (round.out ++ round.left.rest, enough)
    else (runs.rest, enough)
termination_by runs.size
decreasing_by
  · simp [Runs.size]
  · simp [Runs.size]
  · assumption

/-- The merge from one end, the first spent element being known to come out first. -/
def mergeFrom (dir : Direction α) (enough : Nat) (kept spent : List α) : List α × Nat :=
  match spent with
  | [] => (kept, enough)
  | y :: ys =>
    let (out, enough) := mergeRest dir enough (.stepping 0 0) ⟨kept, ys⟩
    (y :: out, enough)

/-- A merge from the front keeps the left run. -/
def fromFront (before : α → α → Bool) : Direction α :=
  ⟨fun right left => before right left, .right, true⟩

/-- A merge from the back keeps the right run. -/
def fromBack (before : α → α → Bool) : Direction α :=
  ⟨fun left right => before right left, .left, false⟩

/-- The merge of two neighbouring runs. The left elements that are not after the first right one,
and the right elements that are not before the last left one, are in their places already. -/
def merge (before : α → α → Bool) (enough : Nat) (left right : List α) : List α × Nat :=
  match right with
  | [] => (left, enough)
  | r :: _ =>
    let front := gallop .right (fun x => !before r x) left
    let left' := left.drop front
    match left'.reverse with
    | [] => (left ++ right, enough)
    | l :: leftBack =>
      let back := gallop .left (fun y => !before y l) right.reverse
      let right' := right.take (right.length - back)
      let settled := right.drop (right.length - back)
      if right'.isEmpty then (left ++ right, enough)
      else if left'.length ≤ right'.length then
        let (out, enough) := mergeFrom (fromFront before) enough left' right'
        (left.take front ++ out ++ settled, enough)
      else
        let (out, enough) := mergeFrom (fromBack before) enough right'.reverse (l :: leftBack)
        (left.take front ++ out.reverse ++ settled, enough)

end DirList.Sorting
