import DirList.Error.Listing

/-!
# Error policies

A policy decides what becomes of the errors that a listing goes on after. Every policy records them,
in order, so that the listing counts as failed.
-/

namespace DirList

inductive PolicyKind where
  /-- Record only. -/
  | collect
  /-- Write a line for every error, after a prefix if there is one. -/
  | report (lead : Option String)
  /-- Stop at the first error. -/
  | failFast
deriving DecidableEq, Repr, Inhabited

namespace PolicyKind

def label : PolicyKind → String
  | collect => "CollectErrorsPolicy"
  | report _ => "ReportErrorsPolicy"
  | failFast => "FailFastPolicy"

/-- The policy of a program, strict or not. -/
def ofStrictness (strict : Bool) : PolicyKind :=
  if strict then failFast else report none

end PolicyKind

/-- A policy at work. -/
structure Policy where
  kind : PolicyKind
  /-- The errors so far. -/
  errors : List ListingError := []
  /-- The text on the error stream so far. -/
  written : String := ""
deriving DecidableEq, Repr, Inhabited

namespace Policy

/-- Whether there was any error. -/
def hasFailed (policy : Policy) : Bool :=
  !policy.errors.isEmpty

def lines (policy : Policy) : List String :=
  policy.errors.map ListingError.line

/-- The errors with one more. -/
def record (policy : Policy) (error : ListingError) : Policy :=
  { policy with errors := policy.errors ++ [error] }

/-- The line that a reporting policy writes. -/
def reportedLine (lead : Option String) (error : ListingError) : String :=
  match lead with
  | none => error.line ++ "\n"
  | some text => if text.isEmpty then error.line ++ "\n" else text ++ ": " ++ error.line ++ "\n"

/-- What becomes of an error, and whether it stops the listing. -/
def handle (policy : Policy) (error : ListingError) : Bool × Policy :=
  let recorded := policy.record error
  match policy.kind with
  | .collect => (false, recorded)
  | .report lead => (false, { recorded with written := policy.written ++ reportedLine lead error })
  | .failFast => (true, recorded)

/-- How many errors there were of each kind, in the order in which the kinds first came up. -/
def countByKind (policy : Policy) : List (ErrorKind × Nat) :=
  (policy.errors.map ListingError.kind).eraseDups.map fun kind =>
    (kind, policy.errors.countP fun error => error.kind = kind)

end Policy
end DirList
