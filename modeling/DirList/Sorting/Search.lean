/-!
# Searching for a boundary

A run that is split by a test into a front that passes and a back that fails is searched in two
ways: by halving an interval, and by doubling steps from the front before halving. Neither looks at
more elements than its rule says, so both are defined, and give the same place each time, for a test
that splits nothing.
-/

namespace DirList.Sorting

/-- Which element of an interval of a given length is looked at first. -/
inductive Middle where
  /-- The element right of the middle. -/
  | right
  /-- The element left of the middle. -/
  | left
deriving DecidableEq, Repr

/-- The offset of the middle of an interval that is not empty. -/
def Middle.offset : Middle → Nat → Nat
  | right, length => length / 2
  | left, length => (length - 1) / 2

/-- Whether the element at a place exists and passes the test. -/
def passesAt {α : Type} (test : α → Bool) (run : List α) (place : Nat) : Bool :=
  run[place]?.any test

/-- The boundary between the places `low` and `low + length`, by halving. -/
def halve {α : Type} (middle : Middle) (test : α → Bool) (run : List α) (low length : Nat) : Nat :=
  if empty : length = 0 then low
  else
    let step := middle.offset length
    have inside : step < length := by
      simp only [step]
      cases middle <;> simp only [Middle.offset] <;> omega
    if passesAt test run (low + step) then
      halve middle test run (low + step + 1) (length - (step + 1))
    else halve middle test run low step
termination_by length

/-- The first of the places `reach`, `2 * reach + 1`, ... that is outside the run or fails the test,
with the last place before it that passes. -/
def gallopTo {α : Type} (test : α → Bool) (run : List α) (last reach : Nat) : Nat × Nat :=
  if inside : reach < run.length then
    if passesAt test run reach then gallopTo test run reach (2 * reach + 1) else (last, reach)
  else (last, run.length)
termination_by run.length - reach

/-- The length of the front that passes the test, found by doubling steps from the front. -/
def gallop {α : Type} (middle : Middle) (test : α → Bool) (run : List α) : Nat :=
  if passesAt test run 0 then
    let (last, reach) := gallopTo test run 0 1
    halve middle test run (last + 1) (reach - (last + 1))
  else 0

end DirList.Sorting
