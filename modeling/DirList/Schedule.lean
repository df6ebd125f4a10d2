/-!
# Schedules

What is asked for again and again may fail now and succeed later. A schedule says what becomes of
each time.
-/

namespace DirList

/-- How often something fails: `now` the first time, `later` the times after it. The last element
stays. -/
structure Schedule (ε : Type) where
  now : Option ε
  later : List (Option ε)
deriving DecidableEq, Repr, Inhabited

namespace Schedule

variable {ε : Type}

/-- What always succeeds. -/
def never : Schedule ε := ⟨none, []⟩

/-- What always fails. -/
def always (failure : ε) : Schedule ε := ⟨some failure, []⟩

/-- The schedule that is written as a list. -/
def ofList : List (Option ε) → Schedule ε
  | [] => never
  | now :: later => ⟨now, later⟩

/-- Whether every time ends the same way. -/
def isConstant (schedule : Schedule ε) : Bool :=
  schedule.later.isEmpty

/-- The schedule after one time. -/
def next (schedule : Schedule ε) : Schedule ε :=
  match schedule.later with
  | [] => schedule
  | now :: later => ⟨now, later⟩

theorem next_of_isConstant {schedule : Schedule ε} (constant : schedule.isConstant = true) :
    schedule.next = schedule := by
  obtain ⟨now, later⟩ := schedule
  cases List.isEmpty_iff.mp constant
  rfl

end Schedule
end DirList
