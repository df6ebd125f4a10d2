import DirList.Proofs.Sorting.Stability

/-!
# The order of siblings

The order of a listing is none on arbitrary entries, since an error entry counts as equal to
everything. Among siblings, which are the entries of one directory or the roots of one listing, and
of which none is an error entry, it is a strict weak order.

Results:
1. `order_of_known`: the entries of a directory are in the order of their field.
2. `isOrder_order`: the order of siblings is a strict weak order.
3. `name_eq_of_tied`: siblings that it does not tell apart have the same name.
4. `sortEntriesBy_eq_of_perm`: so sorting siblings forgets in what order they were read.
-/

namespace DirList

open Sorting Std

/-! ## Orders by rank -/

/-- A comparison gives an order. -/
theorem Sorting.isOrder_of_transCmp {α : Type} {cmp : α → α → Ordering} [TransCmp cmp] :
    IsOrder fun x y => cmp x y == .lt where
  asymm := by
    intro x y first
    have greater : cmp y x = .gt := OrientedCmp.gt_iff_lt.mpr (eq_of_beq first)
    rw [greater]
    rfl
  trans := by
    intro x y z first second
    have first : cmp x y ≠ .lt := by simpa using first
    have second : cmp y z ≠ .lt := by simpa using second
    have both : (cmp x z).isGE = true :=
      TransCmp.isGE_trans (Ordering.isGE_iff_ne_lt.mpr first) (Ordering.isGE_iff_ne_lt.mpr second)
    simpa using Ordering.isGE_iff_ne_lt.mp both

/-- What is ordered by rank, and by an order within each rank, is ordered. -/
theorem Sorting.isOrder_of_ranks {α : Type} {before : α → α → Bool} {rank : α → Nat}
    {within : Nat → α → α → Bool} (orders : ∀ level, IsOrder (within level))
    (same : ∀ x y, before x y = true ↔
      rank x < rank y ∨ rank x = rank y ∧ within (rank x) x y = true) : IsOrder before where
  asymm := by
    intro x y first
    refine Bool.eq_false_iff.mpr fun second => ?_
    rcases (same x y).mp first with less | ⟨equal, first⟩
    · rcases (same y x).mp second with no | ⟨no, -⟩ <;> omega
    · rcases (same y x).mp second with no | ⟨-, second⟩
      · omega
      · rw [← equal] at second
        exact nomatch second.symm.trans ((orders _).asymm first)
  trans := by
    intro x y z first second
    have first := mt (same x y).mpr (Bool.eq_false_iff.mp first)
    have second := mt (same y z).mpr (Bool.eq_false_iff.mp second)
    refine Bool.eq_false_iff.mpr fun third => ?_
    rcases (same x z).mp third with less | ⟨equal, third⟩
    · omega
    · have level : rank x = rank y := by omega
      have level' : rank y = rank z := by omega
      have first : within (rank x) x y = false :=
        Bool.eq_false_iff.mpr fun no => first (.inr ⟨level, no⟩)
      have second : within (rank x) y z = false :=
        Bool.eq_false_iff.mpr fun no => second (.inr ⟨level', level ▸ no⟩)
      exact nomatch third.symm.trans ((orders (rank x)).trans first second)

/-! ## Field orders -/

namespace FieldOrder

instance transCmp_forward (key : SortKey) : TransCmp (forward key) :=
  match key with
  | .name => inferInstanceAs (TransCmp (compareOn Entry.name))
  | .size => inferInstanceAs (TransCmp (compareLex (compareOn Entry.size) (compareOn Entry.name)))
  | .time field =>
    have : TransCmp fun a b : Entry => compareOn (Entry.timeKey field) b a := TransCmp.opposite
    inferInstanceAs (TransCmp (compareLex
      (fun a b : Entry => compareOn (Entry.timeKey field) b a) (compareOn Entry.name)))

instance transCmp_order (field : FieldOrder) : TransCmp field.order := by
  obtain ⟨key, reverse⟩ := field
  cases reverse with
  | false => exact transCmp_forward key
  | true => exact inferInstanceAs (TransCmp fun a b => forward key b a)

theorem name_eq_of_forward {key : SortKey} {a b : Entry} (tied : forward key a b = .eq) :
    a.name = b.name := by
  cases key with
  | name => exact Std.compare_eq_iff_eq.mp tied
  | size | time => exact Std.compare_eq_iff_eq.mp (Ordering.then_eq_eq.mp tied).2

theorem name_eq_of_order {field : FieldOrder} {a b : Entry} (tied : field.order a b = .eq) :
    a.name = b.name := by
  unfold order at tied
  split at tied
  · exact (name_eq_of_forward tied).symm
  · exact name_eq_of_forward tied

end FieldOrder

/-! ## Listing orders -/

/-- Whether an entry stands for no error. -/
def Entry.IsKnown (entry : Entry) : Prop :=
  entry.kind ≠ .error ∧ entry.kind ≠ .noStatus

namespace ListingOrder

variable {listing : ListingOrder} {root : Bool} {a b : Entry}

/-- The entries of a directory are in the order of their field, unless one of them has no status. -/
theorem order_of_known (known : a.IsKnown) (known' : b.IsKnown) (inside : a.isRoot = false) :
    listing.order a b = listing.field.order a b := by
  have together : listing.separatesRoots a b = false := by
    simp [separatesRoots, inside]
  unfold order
  rw [if_neg (by simp [known.1, known'.1]), if_neg (by simp [known.2, known'.2]), together,
    if_neg Bool.false_ne_true]

/-- Whether an entry is a root or not, and no error entry. -/
def IsSibling (root : Bool) (entry : Entry) : Prop :=
  entry.kind ≠ .error ∧ entry.isRoot = root

/-- What comes first among siblings: the directories among the roots, then all that has a status. -/
def rank (listing : ListingOrder) (entry : Entry) : Nat :=
  if entry.kind = .noStatus then 2
  else if entry.isRoot && !listing.listDirectory && entry.kind ≠ .directory then 1
  else 0

/-- How siblings of one rank are compared. -/
def within (listing : ListingOrder) (rank : Nat) : Entry → Entry → Ordering :=
  if rank = 2 then compareOn Entry.name else listing.field.order

instance transCmp_within (level : Nat) : TransCmp (listing.within level) := by
  unfold within
  split
  · exact inferInstanceAs (TransCmp (compareOn Entry.name))
  · infer_instance

theorem rank_of_lost (lost : a.kind = .noStatus) : listing.rank a = 2 :=
  if_pos lost

theorem rank_of_known (known : a.kind ≠ .noStatus) : listing.rank a =
    if a.isRoot && !listing.listDirectory && a.kind ≠ .directory then 1 else 0 :=
  if_neg known

theorem rank_lt_of_known (known : a.kind ≠ .noStatus) : listing.rank a < 2 := by
  rw [rank_of_known known]
  split <;> decide

theorem order_eq (sibling : IsSibling root a) (sibling' : IsSibling root b) :
    listing.order a b =
      (compare (listing.rank a) (listing.rank b)).then (listing.within (listing.rank a) a b) := by
  unfold order noStatusLast
  rw [if_neg (by simp [sibling.1, sibling'.1])]
  by_cases lost : a.kind = .noStatus
  · rw [if_pos (.inl lost), rank_of_lost lost]
    by_cases lost' : b.kind = .noStatus
    · rw [if_neg (not_not_intro lost'), if_neg (not_not_intro lost), rank_of_lost lost']
      rfl
    · rw [if_pos lost', Nat.compare_eq_gt.mpr (rank_lt_of_known lost')]
      rfl
  by_cases lost' : b.kind = .noStatus
  · rw [if_pos (.inr lost'), if_neg (not_not_intro lost'), if_pos lost, rank_of_lost lost',
      Nat.compare_eq_lt.mpr (rank_lt_of_known lost)]
    rfl
  -- Both have a status, so that only directories among the roots come first.
  have field : listing.within (listing.rank a) a b = listing.field.order a b := by
    rw [within, if_neg (Nat.ne_of_lt (rank_lt_of_known lost))]
  rw [if_neg (not_or_intro lost lost'), field, rank_of_known lost, rank_of_known lost',
    separatesRoots, sibling.2, sibling'.2]
  have first : compare 0 1 = Ordering.lt := rfl
  have last : compare 1 0 = Ordering.gt := rfl
  by_cases directory : a.kind = .directory <;> by_cases directory' : b.kind = .directory
  · simp [directory, directory']
  · cases root <;> cases listing.listDirectory <;>
      simp [directory, directory', Ne.symm directory', first]
  · cases root <;> cases listing.listDirectory <;> simp [directory, directory', last]
  · simp [directory, directory']

/-- Siblings are ordered by rank, and by the order within each rank. -/
theorem order_eq_lt (sibling : IsSibling root a) (sibling' : IsSibling root b) :
    (listing.order a b == .lt) = true ↔ listing.rank a < listing.rank b ∨
      listing.rank a = listing.rank b ∧ (listing.within (listing.rank a) a b == .lt) = true := by
  rw [order_eq sibling sibling']
  simp [Ordering.then_eq_lt, Nat.compare_eq_lt]

/-- The order of siblings is a strict weak order. -/
theorem isOrder_order (listing : ListingOrder) (root : Bool) :
    IsOrder fun a b : { entry // IsSibling root entry } => listing.order a b == .lt := by
  have within : ∀ level, IsOrder fun a b : { entry // IsSibling root entry } =>
      listing.within level a b == .lt := by
    intro level
    have order : IsOrder fun a b : Entry => listing.within level a b == .lt := isOrder_of_transCmp
    exact ⟨order.asymm, order.trans⟩
  exact isOrder_of_ranks within fun a b => order_eq_lt a.2 b.2

theorem name_eq_of_within {level : Nat} (tied : listing.within level a b = .eq) :
    a.name = b.name := by
  unfold within at tied
  split at tied
  · exact Std.compare_eq_iff_eq.mp tied
  · exact FieldOrder.name_eq_of_order tied

/-- Siblings that are not told apart have the same name. -/
theorem name_eq_of_tied (sibling : IsSibling root a) (sibling' : IsSibling root b)
    (first : (listing.order a b == .lt) = false) (second : (listing.order b a == .lt) = false) :
    a.name = b.name := by
  have first := mt (order_eq_lt sibling sibling').mpr (Bool.eq_false_iff.mp first)
  have second := mt (order_eq_lt sibling' sibling).mpr (Bool.eq_false_iff.mp second)
  have level : listing.rank a = listing.rank b := by omega
  cases known : listing.within (listing.rank a) a b with
  | lt => exact absurd (.inr ⟨level, by rw [known]; rfl⟩) first
  | gt =>
    have less := OrientedCmp.gt_iff_lt.mp known
    exact absurd (.inr ⟨level.symm, by rw [← level, less]; rfl⟩) second
  | eq => exact name_eq_of_within known

/-- Where siblings of one name lay in a fixed order, sorting forgets how the others lay. -/
theorem sortEntriesBy_eq_of_perm (root : Bool) (lay : Entry → Entry → Prop)
    {entries entries' : List Entry} (same : entries.Perm entries')
    (siblings : ∀ entry ∈ entries, IsSibling root entry)
    (lies : entries.Pairwise lay) (lies' : entries'.Pairwise lay)
    (total : ∀ a ∈ entries, ∀ b ∈ entries, a.name = b.name → lay a b → lay b a → a = b) :
    sortEntriesBy listing.order entries = sortEntriesBy listing.order entries' :=
  sortBy_eq_of_perm (isOrder_order listing root) same siblings lies lies'
    fun a inside b inside' first second => total a inside b inside'
      (name_eq_of_tied (siblings a inside) (siblings b inside') first second)

end ListingOrder
end DirList
