import DirList.Sorting.Search

/-!
# Natural runs

A list is cut into runs: stretches that already ascend, or that descend strictly and are reversed.
A short run is lengthened by inserting the elements that follow it.
-/

namespace DirList.Sorting

variable {α : Type}

/-- The elements after `previous` that continue a run, and the others. In a descending run each is
before the one in front of it, in an ascending run none is. -/
def continuation (before : α → α → Bool) (descending : Bool) :
    α → List α → List α × List α
  | _, [] => ([], [])
  | previous, x :: rest =>
    if before x previous = descending then
      let (run, others) := continuation before descending x rest
      (x :: run, others)
    else ([], x :: rest)

/-- The first run of a list, in ascending order, and the rest of the list. -/
def firstRun (before : α → α → Bool) : List α → List α × List α
  | [] => ([], [])
  | [x] => ([x], [])
  | x :: y :: rest =>
    let (run, others) := continuation before (before y x) y rest
    if before y x then ((x :: y :: run).reverse, others) else (x :: y :: run, others)

/-- An element inserted behind the elements of a run that are not after it. -/
def insert (before : α → α → Bool) (run : List α) (x : α) : List α :=
  let place := halve .right (fun y => !before x y) run 0 run.length
  run.take place ++ x :: run.drop place

/-- A run with further elements inserted one after another. -/
def insertAll (before : α → α → Bool) (run : List α) (others : List α) : List α :=
  others.foldl (insert before) run

/-- Lists up to this length are sorted by insertion alone. -/
def maxMinRun : Nat := 64

/-- The least length of a run: the length of the list halved until it is below `maxMinRun`, plus one
when a halving had a remainder. -/
def minRun (length : Nat) (carry : Nat) : Nat :=
  if length < maxMinRun then length + carry
  else minRun (length / 2) (max carry (length % 2))
termination_by length
decreasing_by
  simp only [maxMinRun] at *
  omega

/-- The first run of a list, lengthened to `least` elements where the list has them, and the rest.
-/
def nextRun (before : α → α → Bool) (least : Nat) (items : List α) : List α × List α :=
  let (run, others) := firstRun before items
  (insertAll before run (others.take (least - run.length)), others.drop (least - run.length))

end DirList.Sorting
