import DirList.Config
import DirList.Entry
import DirList.Error.System
import DirList.Sorting.Basic

/-!
# The order of entries

A field order compares two entries by name, by size or by one of the times, the newest first; equal
ones are compared by name. The listing order puts rules on top of it that reversing does not touch:
error entries compare equal to everything, entries without a status come last, and among roots the
directories come first.
-/

namespace DirList

structure FieldOrder where
  key : SortKey
  reverse : Bool
deriving DecidableEq, Repr, Inhabited

namespace FieldOrder

/-- The order by a key, not reversed. -/
def forward (key : SortKey) (a b : Entry) : Ordering :=
  match key with
  | .name => compare a.name b.name
  | .size => (compare a.size b.size).then (compare a.name b.name)
  | .time field => (compare (b.timeKey field) (a.timeKey field)).then (compare a.name b.name)

def order (field : FieldOrder) (a b : Entry) : Ordering :=
  if field.reverse then forward field.key b a else forward field.key a b

/-- The short name of a key. -/
def keyLabel : SortKey → String
  | .name => "namecmp"
  | .size => "sizecmp"
  | .time .modification => "modcmp"
  | .time .access => "acccmp"
  | .time .change => "statcmp"

def label (field : FieldOrder) : String :=
  if field.reverse then "rev" ++ keyLabel field.key else keyLabel field.key

/-- The field orders of all keys, both ways. -/
def all : List FieldOrder :=
  SortKey.all.flatMap fun key => [⟨key, false⟩, ⟨key, true⟩]

/-- The field order with a given short name. -/
def ofLabel? (label : String) : Option FieldOrder :=
  all.find? fun field => field.label == label

end FieldOrder

/-- The order of a listing. -/
structure ListingOrder where
  field : FieldOrder
  /-- Whether directories are listed like other entries, so that roots are not grouped. -/
  listDirectory : Bool
deriving DecidableEq, Repr, Inhabited

/-- The order of entries of which one at least has no status. -/
def noStatusLast (a b : Entry) : Ordering :=
  if b.kind ≠ .noStatus then .gt
  else if a.kind ≠ .noStatus then .lt
  else compare a.name b.name

namespace ListingOrder

/-- Whether two entries are roots of different kinds, of which one is a directory to be listed. -/
def separatesRoots (listing : ListingOrder) (a b : Entry) : Bool :=
  a.kind ≠ b.kind && a.isRoot && b.isRoot && !listing.listDirectory
    && (a.kind = .directory || b.kind = .directory)

def order (listing : ListingOrder) (a b : Entry) : Ordering :=
  if a.kind = .error ∨ b.kind = .error then .eq
  else if a.kind = .noStatus ∨ b.kind = .noStatus then noStatusLast a b
  else if listing.separatesRoots a b then if a.kind = .directory then .lt else .gt
  else listing.field.order a b

def description (listing : ListingOrder) : String :=
  "MasterComparator(" ++ listing.field.label ++ ", list_directory="
    ++ truthWord listing.listDirectory ++ ")"

end ListingOrder

/-- What a caller can sort entries with. -/
inductive Comparator where
  | field (order : FieldOrder)
  | listing (order : ListingOrder)
  /-- Any other comparison. It looks at what entries are, not at their identities. -/
  | other (order : Entry → Entry → Ordering)
  /-- A comparison that always fails. -/
  | failing (error : SystemError)
deriving Inhabited

namespace Comparator

def compare? : Comparator → Entry → Entry → Except SystemError Ordering
  | field order, a, b => .ok (order.order a b)
  | listing order, a, b => .ok (order.order a b)
  | other order, a, b => .ok (order a.unnumbered b.unnumbered)
  | failing error, _, _ => .error error

/-- How a comparator shows itself, where it can. -/
def description? : Comparator → Option String
  | listing order => some order.description
  | _ => none

end Comparator

/-- The entries sorted by an order. -/
def sortEntriesBy (order : Entry → Entry → Ordering) (entries : List Entry) : List Entry :=
  sortBy (fun a b => order a b == .lt) entries

/-- The entries sorted by a comparator, or in their order where there is none. Fewer than two
entries are not compared. -/
def sortEntries : Option Comparator → List Entry → Except SystemError (List Entry)
  | none, entries => .ok entries
  | some (.field order), entries => .ok (sortEntriesBy order.order entries)
  | some (.listing order), entries => .ok (sortEntriesBy order.order entries)
  | some (.other order), entries =>
    .ok (sortEntriesBy (fun a b => order a.unnumbered b.unnumbered) entries)
  | some (.failing error), entries => if entries.length ≤ 1 then .ok entries else .error error

/-- The order that a configuration asks for, or the text that is no sort key. -/
def Config.listingOrder (config : Config) : Except String ListingOrder :=
  match config.sortKey with
  | .known key => .ok ⟨⟨key, config.reverse⟩, config.listDirectory⟩
  | .unknown text => .error text

end DirList
