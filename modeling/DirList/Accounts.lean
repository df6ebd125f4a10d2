import DirList.Schedule
import DirList.Text.Decimal

/-!
# Names of owners and groups

A name table answers what the owners or the groups are called. It asks its database once for each
number and keeps the answer; a number without a name is its own name. A query that fails for lack of
memory is not kept, and the next one for the number may succeed.
-/

namespace DirList

structure NameTable where
  /-- The database: numbers with their names. -/
  names : List (Int × String) := []
  /-- What becomes of the queries for a number, where they may run out of memory. -/
  exhausting : List (Int × Schedule Unit) := []
  /-- The answers so far. -/
  kept : List (Int × String) := []
  /-- The numbers that the database was asked for, in order. -/
  asked : List Int := []
deriving DecidableEq, Repr, Inhabited

namespace NameTable

/-- What the database makes of a number: a name that is not empty, or else the number. -/
def answer (table : NameTable) (id : Int) : String :=
  match table.names.lookup id with
  | some name => if name.isEmpty then decimal id else name
  | none => decimal id

/-- The table with the answers so far forgotten. -/
def forget (table : NameTable) : NameTable :=
  { table with kept := [] }

/-- Whether the next query for a number runs out of memory. -/
def runsOut (table : NameTable) (id : Int) : Bool :=
  ((table.exhausting.lookup id).bind Schedule.now).isSome

/-- The table after a query for a number. -/
def ask (table : NameTable) (id : Int) : NameTable :=
  { table with
    asked := table.asked ++ [id]
    exhausting := table.exhausting.map fun row => if row.1 = id then (id, row.2.next) else row }

/-- What a number is called, if there is memory for the query, and the table afterwards. -/
def resolve (table : NameTable) (numericOnly : Bool) (id : Int) : Option String × NameTable :=
  if numericOnly then (some (decimal id), table)
  else
    match table.kept.lookup id with
    | some name => (some name, table)
    | none =>
      let asking := table.ask id
      if table.runsOut id then (none, asking)
      else (some (table.answer id), { asking with kept := (id, table.answer id) :: table.kept })

end NameTable
end DirList
