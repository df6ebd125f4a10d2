import DirList.Proofs.Sorting.Siblings
import Mathlib.Data.List.Nodup
import Mathlib.Data.String.Basic

/-!
# Groups of siblings

Sorted siblings come in groups: the directories among the roots, which are listed by their contents,
then the other entries with a status, then those without one. Reversing an order turns the first two
groups round and leaves the last one, and it never moves an entry from one group to another.

Results:
1. `order_swap`: two entries compare the other way round when they are exchanged.
2. `exists_grouping`: sorted siblings are cut into groups.
3. `sorts_siblings`: the order of siblings is a total preorder, and sorting them gives a stable
   arrangement in ascending order.
4. `reverses_within_groups`: the reversed order turns the first two groups round.
-/

namespace DirList

open Sorting Std

namespace ListingOrder

variable {listing : ListingOrder} {root : Bool} {a b c : Entry}

/-! ## A total preorder -/

theorem separatesRoots_comm (listing : ListingOrder) (a b : Entry) :
    listing.separatesRoots b a = listing.separatesRoots a b := by
  rw [separatesRoots, separatesRoots, Bool.eq_iff_iff]
  simp only [Bool.and_eq_true, Bool.or_eq_true, decide_eq_true_eq]
  grind

/-- Two entries, error entries among them, compare the other way round when they are exchanged. -/
theorem order_swap (listing : ListingOrder) (a b : Entry) :
    listing.order b a = (listing.order a b).swap := by
  have field : listing.field.order b a = (listing.field.order a b).swap := OrientedCmp.eq_swap
  have name : compare b.name a.name = (compare a.name b.name).swap := OrientedCmp.eq_swap
  unfold order noStatusLast
  rw [separatesRoots_comm]
  by_cases wrong : a.kind = .error ∨ b.kind = .error
  · rw [if_pos wrong, if_pos wrong.symm]
    rfl
  rw [if_neg wrong, if_neg (mt Or.symm wrong)]
  by_cases lost : a.kind = .noStatus ∨ b.kind = .noStatus
  · rw [if_pos lost, if_pos lost.symm]
    rcases lost with first | second
    · by_cases second : b.kind = .noStatus <;> simp [first, second, name]
    · by_cases first : a.kind = .noStatus <;> simp [first, second, name]
  rw [if_neg lost, if_neg (mt Or.symm lost)]
  cases separated : listing.separatesRoots a b with
  | false => simpa using field
  | true =>
    have apart : a.kind ≠ b.kind ∧ (a.kind = .directory ∨ b.kind = .directory) := by
      simp only [separatesRoots, Bool.and_eq_true, Bool.or_eq_true, decide_eq_true_eq] at separated
      exact ⟨separated.1.1.1.1, separated.2⟩
    obtain ⟨differ, first | second⟩ := apart
    · have other : b.kind ≠ .directory := fun second => differ (first.trans second.symm)
      simp [first, other]
    · have other : a.kind ≠ .directory := fun first => differ (first.trans second.symm)
      simp [second, other]

theorem isLE_iff (listing : ListingOrder) (a b : Entry) :
    (listing.order a b).isLE = true ↔ (listing.order b a == .lt) = false := by
  rw [order_swap listing a b]
  cases listing.order a b <;> decide

theorem order_eq_eq_iff (listing : ListingOrder) (a b : Entry) :
    listing.order a b = .eq ↔
      (listing.order a b == .lt) = false ∧ (listing.order b a == .lt) = false := by
  rw [order_swap listing a b]
  cases listing.order a b <;> decide

/-- The order of siblings is transitive. -/
theorem isLE_trans (sibling : IsSibling root a) (sibling' : IsSibling root b)
    (sibling'' : IsSibling root c) (first : (listing.order a b).isLE = true)
    (second : (listing.order b c).isLE = true) : (listing.order a c).isLE = true := by
  rw [isLE_iff] at first second ⊢
  exact (isOrder_order listing root).trans (x := ⟨c, sibling''⟩) (y := ⟨b, sibling'⟩)
    (z := ⟨a, sibling⟩) second first

/-! ## Groups -/

/-- Whether an entry is a directory among the roots that is to be listed by its contents. -/
def leads (listing : ListingOrder) (entry : Entry) : Bool :=
  entry.isRoot && !listing.listDirectory && entry.kind = .directory

/-- Sorted siblings cut into groups: the roots to be listed by their contents, the other entries
with a status, and those without one. -/
structure Grouping (listing : ListingOrder) (sorted first others lost : List Entry) : Prop where
  whole : sorted = first ++ others ++ lost
  first : ∀ entry ∈ first, listing.leads entry = true
  others : ∀ entry ∈ others, listing.leads entry = false ∧ entry.kind ≠ .noStatus
  lost : ∀ entry ∈ lost, entry.kind = .noStatus

theorem rank_le (sibling : IsSibling root a) (sibling' : IsSibling root b)
    (ascends : (listing.order a b).isLE = true) : listing.rank a ≤ listing.rank b := by
  rw [order_eq sibling sibling', Ordering.isLE_then_iff_and] at ascends
  exact Nat.isLE_compare.mp ascends.1

theorem known_of_rank_le (less : listing.rank a ≤ listing.rank b) (known : b.kind ≠ .noStatus) :
    a.kind ≠ .noStatus := by
  intro lost
  rw [rank_of_lost lost] at less
  exact Nat.not_le_of_lt (rank_lt_of_known known) less

theorem leads_of_rank_le (together : a.isRoot = b.isRoot) (less : listing.rank a ≤ listing.rank b)
    (leading : listing.leads b = true) : listing.leads a = true := by
  simp only [leads, Bool.and_eq_true, decide_eq_true_eq] at leading ⊢
  obtain ⟨⟨isRoot, grouped⟩, directory⟩ := leading
  have known : b.kind ≠ .noStatus := by simp [directory]
  have known' := known_of_rank_le less known
  rw [rank_of_known known, rank_of_known known'] at less
  refine ⟨⟨together.trans isRoot, grouped⟩, Decidable.byContradiction fun other => ?_⟩
  simp [directory, other, together.trans isRoot, grouped] at less

/-- Sorted siblings are cut into groups. -/
theorem exists_grouping {sorted : List Entry}
    (siblings : ∀ entry ∈ sorted, IsSibling root entry)
    (ascending : sorted.Pairwise fun a b => (listing.order a b).isLE = true) :
    ∃ first others lost, listing.Grouping sorted first others lost := by
  have ranks : sorted.Pairwise fun a b =>
      a.isRoot = b.isRoot ∧ listing.rank a ≤ listing.rank b := by
    refine ascending.imp_of_mem fun {a b} inside inside' ascends => ?_
    exact ⟨(siblings a inside).2.trans (siblings b inside').2.symm,
      rank_le (siblings a inside) (siblings b inside') ascends⟩
  obtain ⟨first, rest, rfl, leading, following⟩ := exists_split listing.leads ranks
    fun lies => leads_of_rank_le lies.1 lies.2
  obtain ⟨others, lost, rfl, known, unknown⟩ := exists_split (fun entry => entry.kind ≠ .noStatus)
    (List.pairwise_append.mp ranks).2.1 fun lies known => by
      simpa using known_of_rank_le lies.2 (by simpa using known)
  refine ⟨first, others, lost, (List.append_assoc _ _ _).symm, leading, fun entry inside => ?_,
    fun entry inside => ?_⟩
  · exact ⟨following entry (List.mem_append_left _ inside), by simpa using known entry inside⟩
  · simpa using unknown entry inside

/-! ## Sorting siblings -/

/-- `listing.Arranges root entries sorted`: the entries are rearranged in ascending order, siblings
that are not told apart as they lay, and in groups, the last of which is in the order of names. -/
structure Arranges (listing : ListingOrder) (root : Bool) (entries sorted : List Entry) :
    Prop where
  perm : sorted.Perm entries
  ascending : sorted.Pairwise fun a b => (listing.order a b).isLE = true
  stable : ∀ a, IsSibling root a → sorted.filter (fun b => listing.order a b = .eq) =
    entries.filter fun b => listing.order a b = .eq
  grouped : ∃ first others lost, listing.Grouping sorted first others lost ∧
    lost.Pairwise fun a b => a.name ≤ b.name

theorem order_of_lost (lost : a.kind = .noStatus) (lost' : b.kind = .noStatus) :
    listing.order a b = compare a.name b.name := by
  simp [order, noStatusLast, lost, lost']

variable {entries : List Entry}

theorem ascending_sortEntriesBy (siblings : ∀ entry ∈ entries, IsSibling root entry) :
    (sortEntriesBy listing.order entries).Pairwise fun a b => (listing.order a b).isLE = true := by
  have sorted : (sortEntriesBy listing.order entries).Pairwise
      (Ordered (fun a b => listing.order a b == .lt) fun _ _ => True) :=
    sortBy_pairwise_on (isOrder_order listing root) siblings
      (List.pairwise_of_forall fun _ _ => trivial)
  exact sorted.imp fun ordered => (isLE_iff listing _ _).mpr ordered.1

theorem siblings_sortEntriesBy (siblings : ∀ entry ∈ entries, IsSibling root entry) :
    ∀ entry ∈ sortEntriesBy listing.order entries, IsSibling root entry :=
  fun entry inside => siblings entry ((sortBy_perm _ _).mem_iff.mp inside)

/-- Siblings are sorted stably, in ascending order and in groups. -/
theorem arranges_sortEntriesBy (siblings : ∀ entry ∈ entries, IsSibling root entry) :
    listing.Arranges root entries (sortEntriesBy listing.order entries) := by
  have ascending : (sortEntriesBy listing.order entries).Pairwise fun a b =>
      (listing.order a b).isLE = true := ascending_sortEntriesBy siblings
  refine ⟨sortBy_perm _ _, ascending, fun a sibling => ?_, ?_⟩
  · have tied : (fun b => decide (listing.order a b = .eq)) = fun b =>
        !(listing.order a b == .lt) && !(listing.order b a == .lt) := by
      funext b
      rw [Bool.eq_iff_iff]
      simp [order_eq_eq_iff]
    rw [tied]
    exact filter_sortBy (fun a b => listing.order a b == .lt) (isOrder_order listing root) siblings
      sibling
  · obtain ⟨first, others, lost, grouping⟩ :=
      exists_grouping (siblings_sortEntriesBy siblings) ascending
    refine ⟨first, others, lost, grouping, ?_⟩
    rw [grouping.whole] at ascending
    refine (List.pairwise_append.mp ascending).2.1.imp_of_mem fun inside inside' ascends => ?_
    rw [order_of_lost (grouping.lost _ inside) (grouping.lost _ inside'),
      Ordering.isLE_iff_ne_gt] at ascends
    exact compare_le_iff_le.mp ascends

/-- The order of siblings is a total preorder that tells entries of different names apart, and
sorting siblings arranges them. -/
theorem sorts_siblings (siblings : ∀ entry ∈ entries, IsSibling root entry) :
    (∀ a b, listing.order b a = (listing.order a b).swap) ∧
    (∀ a b c, IsSibling root a → IsSibling root b → IsSibling root c →
      (listing.order a b).isLE = true → (listing.order b c).isLE = true →
      (listing.order a c).isLE = true) ∧
    (∀ a b, IsSibling root a → IsSibling root b → listing.order a b = .eq → a.name = b.name) ∧
    sortEntries (some (.listing listing)) entries = .ok (sortEntriesBy listing.order entries) ∧
    listing.Arranges root entries (sortEntriesBy listing.order entries) := by
  refine ⟨order_swap listing, fun _ _ _ => isLE_trans, fun a b sibling sibling' tied => ?_, rfl,
    arranges_sortEntriesBy siblings⟩
  obtain ⟨first, second⟩ := (order_eq_eq_iff listing a b).mp tied
  exact name_eq_of_tied sibling sibling' first second

instance (root : Bool) : DecidablePred (IsSibling root) :=
  fun _ => inferInstanceAs (Decidable (_ ∧ _))

/-- A root of a kind, modified at a second that the system reports with nanoseconds or without. -/
def datedRoot (name : String) (kind : Kind) (second : Int) (hasNanos : Bool) : Entry :=
  { (default : Entry) with
    name
    kind
    status := some { (default : Status) with modified := ⟨second, 0⟩, hasNanos } }

/-- A root without a status. -/
def bareRoot (name : String) (kind : Kind) : Entry :=
  { (default : Entry) with name, kind }

/-- Roots of many kinds. -/
def mixedRoots : List Entry :=
  [bareRoot "x" .noStatus, datedRoot "e" .file 7 false, datedRoot "d" .directory 1 true,
    bareRoot "c" .unasked, datedRoot "a" .symlink 5 true, bareRoot "n" .noStatus,
    datedRoot "m" .directory 2 true, datedRoot "b" .dangling 7 false]

/-- The newest first. -/
def newestFirst : ListingOrder :=
  ⟨⟨.time .modification, false⟩, false⟩

/-- The roots of the sample are arranged: the directories, then the others, of which one has a time
in nanoseconds and two of the same time go by their names, then those without a status. -/
theorem sorts_siblings_sample :
    (∀ entry ∈ mixedRoots, IsSibling true entry) ∧
    (sortEntriesBy newestFirst.order mixedRoots).map Entry.name =
      ["m", "d", "a", "b", "e", "c", "n", "x"] ∧
    sortEntries (some (.listing newestFirst)) mixedRoots =
      .ok (sortEntriesBy newestFirst.order mixedRoots) ∧
    newestFirst.Arranges true mixedRoots (sortEntriesBy newestFirst.order mixedRoots) := by
  have siblings : ∀ entry ∈ mixedRoots, IsSibling true entry := by decide
  exact ⟨siblings, by decide +kernel, (sorts_siblings siblings).2.2.2⟩

/-! ## The reversed order -/

/-- The order by the same key the other way round. -/
def reversed (listing : ListingOrder) : ListingOrder :=
  { listing with field := { listing.field with reverse := !listing.field.reverse } }

theorem field_reversed (listing : ListingOrder) (a b : Entry) :
    listing.reversed.field.order a b = listing.field.order b a := by
  unfold reversed FieldOrder.order
  cases listing.field.reverse <;> rfl

theorem rank_reversed (listing : ListingOrder) (entry : Entry) :
    listing.reversed.rank entry = listing.rank entry :=
  rfl

theorem rank_of_known_of_leads (known : a.kind ≠ .noStatus) :
    listing.rank a = if a.isRoot && !listing.listDirectory && !listing.leads a then 1 else 0 := by
  rw [rank_of_known known, leads]
  congr 1
  cases a.isRoot <;> cases listing.listDirectory <;> simp

theorem known_of_leads (leading : listing.leads a = true) : a.kind ≠ .noStatus := by
  simp only [leads, Bool.and_eq_true, decide_eq_true_eq] at leading
  simp [leading.2]

/-- The roots to be listed by their contents come before the other entries. -/
theorem rank_lt_of_leads (sibling : IsSibling root a) (sibling' : IsSibling root b)
    (leading : listing.leads a = true) (following : listing.leads b = false)
    (known : b.kind ≠ .noStatus) : listing.rank a < listing.rank b := by
  have grouped : (b.isRoot && !listing.listDirectory) = true := by
    rw [sibling'.2, ← sibling.2]
    simp only [leads, Bool.and_eq_true] at leading ⊢
    exact leading.1
  rw [rank_of_known_of_leads known, rank_of_known_of_leads (known_of_leads leading)]
  simp [leading, following, grouped]

theorem isLE_of_rank_lt (sibling : IsSibling root a) (sibling' : IsSibling root b)
    (less : listing.rank a < listing.rank b) : (listing.order a b).isLE = true := by
  rw [order_eq sibling sibling', Nat.compare_eq_lt.mpr less]
  rfl

/-- Within a group of entries with a status, the reversed order is the other way round. -/
theorem order_reversed (sibling : IsSibling root a) (sibling' : IsSibling root b)
    (known : a.kind ≠ .noStatus) (known' : b.kind ≠ .noStatus)
    (together : listing.leads a = listing.leads b) :
    listing.reversed.order b a = listing.order a b := by
  have level : listing.rank a = listing.rank b := by
    rw [rank_of_known_of_leads known, rank_of_known_of_leads known', together,
      sibling.2, sibling'.2]
  have inner : listing.rank a ≠ 2 := Nat.ne_of_lt (rank_lt_of_known known)
  rw [order_eq sibling sibling', order_eq sibling' sibling, rank_reversed, rank_reversed, ← level]
  simp [within, inner, field_reversed]

/-- Of siblings of different names only one arrangement is in ascending order. -/
theorem eq_sortEntriesBy {arranged : List Entry}
    (siblings : ∀ entry ∈ entries, IsSibling root entry) (distinct : (entries.map Entry.name).Nodup)
    (perm : arranged.Perm entries)
    (ascending : arranged.Pairwise fun a b => (listing.order a b).isLE = true) :
    arranged = sortEntriesBy listing.order entries := by
  have sorted : (sortEntriesBy listing.order entries).Perm entries := sortBy_perm _ _
  refine List.Perm.eq_of_pairwise (fun a b inside inside' first second => ?_) ascending
    (ascending_sortEntriesBy siblings) (perm.trans sorted.symm)
  have inside := perm.mem_iff.mp inside
  have inside' := sorted.mem_iff.mp inside'
  refine List.inj_on_of_nodup_map distinct inside inside' ?_
  rw [isLE_iff] at first second
  exact name_eq_of_tied (siblings a inside) (siblings b inside') second first

/-- Reversing the order turns a group of entries with a status round. -/
theorem ascending_turned {group : List Entry}
    (siblings : ∀ entry ∈ group, IsSibling root entry)
    (known : ∀ entry ∈ group, entry.kind ≠ .noStatus)
    (together : ∀ a ∈ group, ∀ b ∈ group, listing.leads a = listing.leads b)
    (ascending : group.Pairwise fun a b => (listing.order a b).isLE = true) :
    group.reverse.Pairwise fun a b => (listing.reversed.order a b).isLE = true := by
  refine List.pairwise_reverse.mpr (ascending.imp_of_mem fun {a b} inside inside' ascends => ?_)
  rwa [order_reversed (siblings a inside) (siblings b inside') (known a inside) (known b inside')
    (together a inside b inside')]

/-- Sorted groups ascend in the reversed order when the first two of them are turned round. -/
theorem Grouping.ascending_reverse {sorted first others lost : List Entry}
    (grouping : listing.Grouping sorted first others lost)
    (siblings : ∀ entry ∈ sorted, IsSibling root entry)
    (ascending : sorted.Pairwise fun a b => (listing.order a b).isLE = true) :
    (first.reverse ++ others.reverse ++ lost).Pairwise fun a b =>
      (listing.reversed.order a b).isLE = true := by
  rw [grouping.whole] at ascending siblings
  obtain ⟨ascending, ascendingLost, -⟩ := List.pairwise_append.mp ascending
  obtain ⟨ascendingFirst, ascendingOthers, -⟩ := List.pairwise_append.mp ascending
  simp only [List.forall_mem_append] at siblings
  obtain ⟨⟨siblingsFirst, siblingsOthers⟩, siblingsLost⟩ := siblings
  have knownFirst : ∀ entry ∈ first, entry.kind ≠ .noStatus := fun entry inside =>
    known_of_leads (grouping.first entry inside)
  have knownOthers : ∀ entry ∈ others, entry.kind ≠ .noStatus := fun entry inside =>
    (grouping.others entry inside).2
  refine List.pairwise_append.mpr ⟨List.pairwise_append.mpr ⟨?_, ?_, ?_⟩, ?_, ?_⟩
  · exact ascending_turned siblingsFirst knownFirst (fun a inside b inside' =>
      (grouping.first a inside).trans (grouping.first b inside').symm) ascendingFirst
  · exact ascending_turned siblingsOthers knownOthers (fun a inside b inside' =>
      (grouping.others a inside).1.trans (grouping.others b inside').1.symm) ascendingOthers
  · intro a inside b inside'
    rw [List.mem_reverse] at inside inside'
    exact isLE_of_rank_lt (siblingsFirst a inside) (siblingsOthers b inside')
      (rank_lt_of_leads (siblingsFirst a inside) (siblingsOthers b inside')
        (grouping.first a inside) (grouping.others b inside').1 (knownOthers b inside'))
  · refine ascendingLost.imp_of_mem fun {a b} inside inside' ascends => ?_
    rw [order_of_lost (grouping.lost a inside) (grouping.lost b inside')] at ascends ⊢
    exact ascends
  · intro a inside b inside'
    have front : IsSibling root a ∧ a.kind ≠ .noStatus := by
      simp only [List.mem_append, List.mem_reverse] at inside
      exact inside.elim (fun inside => ⟨siblingsFirst a inside, knownFirst a inside⟩)
        fun inside => ⟨siblingsOthers a inside, knownOthers a inside⟩
    refine isLE_of_rank_lt front.1 (siblingsLost b inside') ?_
    rw [rank_of_lost (grouping.lost b inside')]
    exact rank_lt_of_known front.2

/-- Sorting siblings of different names by the reversed order turns round the roots to be listed by
their contents and the other entries with a status, each among themselves, and leaves the rest. -/
theorem reverses_within_groups (siblings : ∀ entry ∈ entries, IsSibling root entry)
    (distinct : (entries.map Entry.name).Nodup) :
    (∃ first others lost,
      listing.Grouping (sortEntriesBy listing.order entries) first others lost) ∧
    ∀ first others lost, listing.Grouping (sortEntriesBy listing.order entries) first others lost →
      sortEntriesBy listing.reversed.order entries = first.reverse ++ others.reverse ++ lost := by
  have ascending : (sortEntriesBy listing.order entries).Pairwise fun a b =>
      (listing.order a b).isLE = true := ascending_sortEntriesBy siblings
  have siblings' : ∀ entry ∈ sortEntriesBy listing.order entries, IsSibling root entry :=
    siblings_sortEntriesBy siblings
  refine ⟨exists_grouping siblings' ascending, fun first others lost grouping => ?_⟩
  have perm : (first ++ others ++ lost).Perm entries := grouping.whole ▸ sortBy_perm _ _
  have turned : (first.reverse ++ others.reverse ++ lost).Perm (first ++ others ++ lost) :=
    ((List.reverse_perm _).append (List.reverse_perm _)).append_right _
  exact (eq_sortEntriesBy siblings distinct (turned.trans perm)
    (grouping.ascending_reverse siblings' ascending)).symm

/-- The groups of the sample are turned round, each by itself, and the last one stays. -/
theorem reverses_within_groups_sample :
    (∀ entry ∈ mixedRoots, IsSibling true entry) ∧ (mixedRoots.map Entry.name).Nodup ∧
    ∃ first others lost,
      newestFirst.Grouping (sortEntriesBy newestFirst.order mixedRoots) first others lost ∧
      sortEntriesBy newestFirst.reversed.order mixedRoots =
        first.reverse ++ others.reverse ++ lost ∧
      (sortEntriesBy newestFirst.reversed.order mixedRoots).map Entry.name =
        ["d", "m", "c", "e", "b", "a", "n", "x"] := by
  have siblings : ∀ entry ∈ mixedRoots, IsSibling true entry := by decide
  have distinct : (mixedRoots.map Entry.name).Nodup := by decide
  obtain ⟨⟨first, others, lost, grouping⟩, reverses⟩ := reverses_within_groups siblings distinct
  exact ⟨siblings, distinct, first, others, lost, grouping, reverses first others lost grouping,
    by decide +kernel⟩

end ListingOrder
end DirList
