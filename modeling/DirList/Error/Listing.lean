import DirList.Error.System

/-!
# Errors of a listing

What can go wrong in a listing, as a line `name: message` for the user. The errors of single nodes
are handed to a policy and the listing goes on; fatal ones end it.
-/

namespace DirList

inductive ErrorKind where
  | general
  /-- A node could not be read or listed. -/
  | node
  /-- A directory is its own ancestor. -/
  | cycle
  /-- A walk could not be started. -/
  | walkOpen
  /-- A walk could not go on. -/
  | walkRead
  /-- An owner or group could not be resolved for lack of memory. -/
  | allocation
deriving DecidableEq, Repr, Inhabited

namespace ErrorKind

def label : ErrorKind → String
  | general => "ListingError"
  | node => "NodeError"
  | cycle => "CycleError"
  | walkOpen => "WalkOpenError"
  | walkRead => "WalkReadError"
  | allocation => "AllocationError"

def all : List ErrorKind := [general, node, cycle, walkOpen, walkRead, allocation]

def isFatal (kind : ErrorKind) : Bool :=
  kind = walkOpen || kind = walkRead

end ErrorKind

structure ListingError where
  kind : ErrorKind
  /-- The entry or the activity that the error is about. -/
  name : String
  message : String
  /-- The number of the error of the system behind it. -/
  code : Option Int
deriving DecidableEq, Repr, Inhabited

namespace ListingError

/-- The line that tells the user. -/
def line (error : ListingError) : String :=
  error.name ++ ": " ++ error.message

def isFatal (error : ListingError) : Bool :=
  error.kind.isFatal

/-- The error of a given kind for a number of the system. -/
def ofCode (kind : ErrorKind) (name : String) (code : Int) : ListingError :=
  ⟨kind, name, SystemError.codeText code, some code⟩

/-- The error of a given kind for an error of the system. -/
def ofSystem (kind : ErrorKind) (name : String) : SystemError → ListingError
  | .coded code => ofCode kind name code
  | .plain text => ⟨kind, name, text, none⟩

/-- The error about a directory that is its own ancestor. -/
def cycle (name : String) : ListingError :=
  ⟨.cycle, name, "directory causes a cycle", none⟩

/-- The error about an owner or group that could not be resolved. -/
def allocation (name : String) : ListingError :=
  ⟨.allocation, name, "cannot allocate rendering annotation", none⟩

/-- The error about a walk that cannot be used. -/
def walkRead (message : String) : ListingError :=
  ⟨.walkRead, "walk", message, none⟩

end ListingError
end DirList
