import DirList.Sorting.Merge
import DirList.Sorting.Run

/-!
# Sorting

A stable sort that takes advantage of order already present. Runs are put on a stack as they are
found, and neighbouring runs are merged in an order that keeps the merges balanced. The result is
determined for every test, also for one that is no order: an element that counts as equal to
everything can leave its neighbours unsorted, in one definite way.
-/

namespace DirList.Sorting

variable {α : Type}

/-- A run on the stack, with the power of the boundary behind it once that is known. -/
structure Pending (α : Type) where
  run : List α
  power : Nat

/-- The first bit of their binary expansions in which `a / length` and `b / length` differ, for
`a < b < 2 * length`; bits are counted from 1. -/
def firstDifference (length : Nat) : Nat → Nat → Nat → Nat
  | 0, _, _ => 0
  | fuel + 1, a, b =>
    if length ≤ a then 1 + firstDifference length fuel (2 * (a - length)) (2 * (b - length))
    else if length ≤ b then 1
    else 1 + firstDifference length fuel (2 * a) (2 * b)

/-- The power of the boundary between two neighbouring runs: the first bit in which the positions of
their middles, as fractions of the whole list, differ. Two middles are at least half an element
apart, so the bit is found within the bits of the length. -/
def power (length start left right : Nat) : Nat :=
  firstDifference length (Nat.log2 length + 2) (2 * start + left) (2 * start + 2 * left + right)

/-- The runs on the stack above a boundary of a given power merged, the top of the stack first. -/
def mergeAbove (before : α → α → Bool) (power : Nat) (top : Pending α) :
    Nat → List (Pending α) → Nat × List (Pending α)
  | enough, [] => (enough, [{ top with power }])
  | enough, next :: below =>
    if power < next.power then
      let (run, enough) := merge before enough next.run top.run
      mergeAbove before power ⟨run, power⟩ enough below
    else (enough, { top with power } :: next :: below)

/-- All runs of a list on the stack, the last one on top. -/
def stackRuns (before : α → α → Bool) (length least : Nat) :
    Nat → Nat → List (Pending α) → List α → Nat × List (Pending α)
  | 0, enough, stack, _ => (enough, stack)
  | fuel + 1, enough, stack, items =>
    if items.isEmpty then (enough, stack)
    else
      let (run, others) := nextRun before least items
      match stack with
      | [] => stackRuns before length least fuel enough [⟨run, 0⟩] others
      | top :: below =>
        let start := below.foldr (fun pending count => pending.run.length + count) 0
        let boundary := power length start top.run.length run.length
        let (enough, stack) := mergeAbove before boundary top enough below
        stackRuns before length least fuel enough (⟨run, 0⟩ :: stack) others

/-- The runs on the stack merged into one, the shorter neighbour of the second run first. -/
def collapse (before : α → α → Bool) (enough : Nat) : List (List α) → List α
  | [] => []
  | [run] => run
  | [c, b] => (merge before enough b c).1
  | c :: b :: a :: rest =>
    if a.length < c.length then
      let (run, enough) := merge before enough a b
      collapse before enough (c :: run :: rest)
    else
      let (run, enough) := merge before enough b c
      collapse before enough (run :: a :: rest)
termination_by stack => stack.length

end Sorting

/-- The items in ascending order; `before x y` says that `x` has to come out before `y`. -/
def sortBy {α : Type} (before : α → α → Bool) (items : List α) : List α :=
  let length := items.length
  let (enough, stack) :=
    Sorting.stackRuns before length (Sorting.minRun length 0) length Sorting.minGallop [] items
  Sorting.collapse before enough (stack.map fun pending => pending.run)

end DirList
