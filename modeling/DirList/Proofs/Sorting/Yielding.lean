import DirList.Proofs.Sorting.Grouping
import DirList.Proofs.Sorting.Neighbours

/-!
# Error entries among siblings

An error entry compares equal to everything, so with one in it a list of siblings has no order to be
sorted by. In a short list, which is sorted by insertion alone, an error entry comes in behind all
that is there and then only gives way: what lay in front of it stays in front, and others may be
inserted there. In a list of any length, no neighbours come out in the wrong order, so what lies
between two error entries is sorted.

Results:
1. `sortBy_of_short`: a short list is sorted by inserting what follows its first run.
2. `sortBy_givesWay`: in a short list, elements that are equal to everything only give way.
3. `sorts_between_errors`: sorted siblings ascend between error entries, and in a short list these
   keep their order and only give way.
-/

namespace DirList

namespace Sorting

variable {α : Type}

/-! ## Giving way -/

/-- An element of two lists put together lies in the second or in the first. -/
theorem middle_of_append {left right front back : List α} {x : α}
    (whole : left ++ right = front ++ x :: back) :
    (∃ middle, front = left ++ middle ∧ right = middle ++ x :: back) ∨
      ∃ middle, left = front ++ x :: middle ∧ back = middle ++ right := by
  rcases List.append_eq_append_iff.mp whole with ⟨middle, first, second⟩ | ⟨middle, first, second⟩
  · exact .inl ⟨middle, first, second⟩
  cases middle with
  | nil => exact .inl ⟨[], by simpa using first.symm, second.symm⟩
  | cons y middle =>
    obtain ⟨rfl, rest⟩ := List.cons.inj second
    exact .inr ⟨middle, first, rest⟩

/-- `GivesWay yields items run`: the elements of a kind keep their order and only give way to
others; what is in front of one stays there. -/
structure GivesWay (yields : α → Bool) (items run : List α) : Prop where
  perm : run.Perm items
  order : run.filter yields = items.filter yields
  front : ∀ front x back, items = front ++ x :: back → yields x = true →
    ∃ front' back', run = front' ++ x :: back' ∧ front.Subperm front' ∧
      front'.filter yields = front.filter yields

namespace GivesWay

variable {yields : α → Bool} {items run others : List α}

protected theorem refl (items : List α) : GivesWay yields items items :=
  ⟨.refl _, rfl, fun front _ back whole _ => ⟨front, back, whole, .refl _, rfl⟩⟩

protected theorem trans {next : List α} (first : GivesWay yields items run)
    (second : GivesWay yields run next) : GivesWay yields items next := by
  refine ⟨second.perm.trans first.perm, second.order.trans first.order, ?_⟩
  intro front x back whole yielding
  obtain ⟨front', back', whole', inside, order⟩ := first.front front x back whole yielding
  obtain ⟨front'', back'', whole'', inside', order'⟩ := second.front front' x back' whole' yielding
  exact ⟨front'', back'', whole'', inside.trans inside', order'.trans order⟩

theorem append_right (gives : GivesWay yields items run) (others : List α) :
    GivesWay yields (items ++ others) (run ++ others) := by
  refine ⟨gives.perm.append_right others, ?_, ?_⟩
  · rw [List.filter_append, List.filter_append, gives.order]
  intro front x back whole yielding
  rcases middle_of_append whole with ⟨middle, rfl, rfl⟩ | ⟨middle, rfl, rfl⟩
  · -- the element is among the others, behind all of the run
    refine ⟨run ++ middle, back, by simp, (gives.perm.symm.append_right middle).subperm, ?_⟩
    rw [List.filter_append, List.filter_append, gives.order]
  · obtain ⟨front', back', rfl, inside, order⟩ := gives.front front x middle rfl yielding
    exact ⟨front', back' ++ others, by simp, inside, order⟩

theorem of_none (perm : run.Perm items) (none : ∀ x ∈ items, yields x = false) :
    GivesWay yields items run := by
  have empty : ∀ x ∈ run, yields x = false := fun x inside => none x (perm.mem_iff.mp inside)
  refine ⟨perm, ?_, ?_⟩
  · rw [List.filter_eq_nil_iff.mpr fun x inside => by simp [empty x inside],
      List.filter_eq_nil_iff.mpr fun x inside => by simp [none x inside]]
  · intro front x back whole yielding
    have inside : x ∈ items := whole ▸ List.mem_append_right _ List.mem_cons_self
    rw [none x inside] at yielding
    cases yielding

/-- An element of another kind that is moved to the front makes the others give way. -/
theorem move {x : α} (stays : yields x = false) (front back : List α) :
    GivesWay yields (front ++ back ++ [x]) (front ++ x :: back) := by
  refine ⟨?_, by simp [stays], ?_⟩
  · rw [List.append_assoc]
    exact (List.perm_append_singleton x back).symm.append_left front
  intro first y last whole yielding
  rcases middle_of_append whole with ⟨middle, rfl, only⟩ | ⟨last, inner, rfl⟩
  · -- the element itself is of another kind
    have same : y = x := by
      have inside : y ∈ [x] := only ▸ List.mem_append_right _ List.mem_cons_self
      simpa using inside
    rw [same, stays] at yielding
    cases yielding
  rcases middle_of_append inner with ⟨middle, rfl, rfl⟩ | ⟨middle, rfl, rfl⟩
  · refine ⟨front ++ x :: middle, last, by simp, ?_, by simp [stays]⟩
    exact ((List.sublist_cons_self x middle).append_left front).subperm
  · exact ⟨first, middle ++ x :: back, by simp, .refl _, rfl⟩

end GivesWay

/-! ## Short lists -/

variable {before : α → α → Bool}

/-- An element that is before nothing is inserted behind everything. -/
theorem insert_last {x : α} (last : ∀ y, before x y = false) (run : List α) :
    insert before run x = run ++ [x] := by
  have place : halve .right (fun y => !before x y) (run ++ []) 0 run.length = run.length :=
    halve_append (fun y _ => by simp [last y]) (List.forall_mem_nil _) .right (Nat.zero_le _)
      (Nat.le_of_eq (Nat.zero_add _).symm)
  rw [List.append_nil] at place
  rw [insert, place, List.take_length, List.drop_length]

variable {yields : α → Bool}
variable (neutral : ∀ x y, yields x = true → before x y = false ∧ before y x = false)
include neutral

theorem insert_givesWay (run : List α) (x : α) :
    GivesWay yields (run ++ [x]) (insert before run x) := by
  cases yielding : yields x with
  | true =>
    rw [insert_last fun y => (neutral x y yielding).1]
    exact .refl _
  | false =>
    rw [insert]
    generalize halve .right (fun y => !before x y) run 0 run.length = place
    have moved := GivesWay.move yielding (run.take place) (run.drop place)
    rwa [List.take_append_drop] at moved

theorem insertAll_givesWay (run others : List α) :
    GivesWay yields (run ++ others) (insertAll before run others) := by
  induction others generalizing run with
  | nil =>
    rw [List.append_nil]
    exact .refl _
  | cons x others ih =>
    have first := (insert_givesWay neutral run x).append_right others
    rw [List.append_assoc, List.singleton_append] at first
    exact first.trans (ih (insert before run x))

/-- No element that is equal to everything continues a descending run. -/
theorem stays_of_descends {previous : α} {run : List α}
    (chain : (previous :: run).IsChain fun x y => before y x = true) :
    ∀ x ∈ run, yields x = false := by
  induction run generalizing previous with
  | nil => exact List.forall_mem_nil _
  | cons x run ih =>
    obtain ⟨descends, chain⟩ := List.isChain_cons_cons.mp chain
    refine List.forall_mem_cons.mpr ⟨Bool.eq_false_iff.mpr fun yielding => ?_, ih chain⟩
    rw [(neutral x previous yielding).1] at descends
    cases descends

theorem firstRun_givesWay (items : List α) :
    GivesWay yields items ((firstRun before items).1 ++ (firstRun before items).2) := by
  match items with
  | [] => exact .refl _
  | [x] => exact .refl _
  | x :: y :: rest =>
    have whole := continuation_append before (before y x) y rest
    have chain : (y :: (continuation before (before y x) y rest).1).IsChain
        fun x' y' => before y' x' = before y x := continuation_isChain _ y rest
    rw [firstRun_cons_cons]
    split
    next descends =>
      rw [descends] at whole chain ⊢
      -- the run that is turned round has nothing in it that yields
      have none : ∀ z ∈ x :: y :: (continuation before true y rest).1, yields z = false := by
        refine List.forall_mem_cons.mpr ⟨Bool.eq_false_iff.mpr fun yielding => ?_,
          stays_of_descends neutral (.cons_cons descends chain)⟩
        rw [(neutral x y yielding).2] at descends
        cases descends
      have turned := (GivesWay.of_none (List.reverse_perm _) none).append_right
        (continuation before true y rest).2
      rwa [List.cons_append, List.cons_append, whole] at turned
    next ascends =>
      rw [List.cons_append, List.cons_append, whole]
      exact .refl _

end Sorting

open Sorting

/-- A short list is sorted by inserting, one by one, what follows its first run. -/
theorem sortBy_of_short {α : Type} (before : α → α → Bool) {items : List α}
    (short : items.length < maxMinRun) :
    sortBy before items = insertAll before (firstRun before items).1 (firstRun before items).2 := by
  rcases items with _ | ⟨x, rest⟩
  · simp [sortBy, stackRuns, collapse, firstRun, insertAll]
  have least : minRun (rest.length + 1) 0 = rest.length + 1 := by
    rw [minRun, if_pos (by simpa using short), Nat.add_zero]
  have whole := (firstRun_perm before (x :: rest)).length_eq
  simp only [List.length_append, List.length_cons] at whole
  have all : (firstRun before (x :: rest)).2.length ≤
      rest.length + 1 - (firstRun before (x :: rest)).1.length := by omega
  have only : ∀ fuel enough stack,
      stackRuns before (rest.length + 1) (rest.length + 1) fuel enough stack [] =
        (enough, stack) := by
    intro fuel enough stack
    cases fuel <;> rfl
  simp only [sortBy, List.length_cons, least, stackRuns, List.isEmpty_cons, Bool.false_eq_true,
    if_false, nextRun_eq, List.take_of_length_le all, List.drop_of_length_le all, only,
    List.map_cons, List.map_nil, collapse]

/-- In a short list, elements that are equal to everything keep their order and only give way. -/
theorem sortBy_givesWay {α : Type} {before : α → α → Bool} {yields : α → Bool} {items : List α}
    (neutral : ∀ x y, yields x = true → before x y = false ∧ before y x = false)
    (short : items.length < maxMinRun) : GivesWay yields items (sortBy before items) := by
  rw [sortBy_of_short before short]
  exact (firstRun_givesWay neutral items).trans (insertAll_givesWay neutral _ _)

namespace ListingOrder

variable {listing : ListingOrder} {root : Bool} {entries : List Entry}

/-- Siblings without neighbours in the wrong order are in ascending order, unless there is an error
entry among them. -/
theorem pairwise_of_isChain {stretch : List Entry}
    (siblings : ∀ entry ∈ stretch, IsSibling root entry)
    (chain : stretch.IsChain fun a b => (listing.order a b).isLE = true) :
    stretch.Pairwise fun a b => (listing.order a b).isLE = true := by
  let follows (a b : Entry) : Prop :=
    IsSibling root a ∧ IsSibling root b ∧ (listing.order a b).isLE = true
  have transitive : Trans follows follows follows :=
    ⟨fun first second => ⟨first.1, second.2.1,
      isLE_trans first.1 first.2.1 second.2.1 first.2.2 second.2.2⟩⟩
  have chain' : stretch.IsChain follows := chain.imp_of_mem_imp fun a b inside inside' ascends =>
    ⟨siblings a inside, siblings b inside', ascends⟩
  exact chain'.pairwise.imp fun follows => follows.2.2

/-- `listing.SortsAround entries sorted`: the entries are rearranged and ascend wherever no error
entry lies between them; in a short list the error entries keep their order and only give way. -/
structure SortsAround (listing : ListingOrder) (entries sorted : List Entry) : Prop where
  perm : sorted.Perm entries
  between : ∀ stretch, stretch <:+: sorted → (∀ entry ∈ stretch, entry.kind ≠ .error) →
    stretch.Pairwise fun a b => (listing.order a b).isLE = true
  givesWay : entries.length < maxMinRun →
    GivesWay (fun entry : Entry => entry.kind = .error) entries sorted

/-- Siblings are sorted around the error entries among them. -/
theorem sorts_between_errors (siblings : ∀ entry ∈ entries, entry.isRoot = root) :
    sortEntries (some (.listing listing)) entries = .ok (sortEntriesBy listing.order entries) ∧
    listing.SortsAround entries (sortEntriesBy listing.order entries) := by
  have perm : (sortEntriesBy listing.order entries).Perm entries := sortBy_perm _ _
  have asymm : ∀ a b, (listing.order a b == .lt) = true → (listing.order b a == .lt) = false := by
    intro a b less
    rw [order_swap listing a b, beq_iff_eq.mp less]
    rfl
  have chain : (sortEntriesBy listing.order entries).IsChain fun a b =>
      (listing.order a b).isLE = true :=
    (sortBy_isChain asymm entries).imp fun a b => (isLE_iff listing a b).mpr
  refine ⟨rfl, perm, fun stretch inside sound => ?_, sortBy_givesWay fun a b wrong => ?_⟩
  · have siblings' : ∀ entry ∈ stretch, IsSibling root entry := fun entry member =>
      ⟨sound entry member, siblings entry (perm.mem_iff.mp (inside.subset member))⟩
    exact pairwise_of_isChain siblings' <| chain.infix inside
  · have wrong : a.kind = .error := of_decide_eq_true wrong
    simp [order, wrong]

/-- Entries by name. -/
def byName : ListingOrder :=
  ⟨⟨.name, false⟩, false⟩

/-- A file below a root, or an error entry there. -/
def entryBelow (name : String) (kind : Kind) : Entry :=
  { (default : Entry) with name, kind, level := 1 }

/-- Files in descending order with an error entry among them. -/
def brokenDescent : List Entry :=
  [entryBelow "c" .file, entryBelow "b" .file, entryBelow "f" .error, entryBelow "a" .file]

/-- The error entry of the sample gives way to the one that is inserted in front of it. -/
theorem sorts_between_errors_sample :
    (∀ entry ∈ brokenDescent, entry.isRoot = false) ∧
    (sortEntriesBy byName.order brokenDescent).map Entry.name = ["a", "b", "c", "f"] ∧
    sortEntries (some (.listing byName)) brokenDescent =
      .ok (sortEntriesBy byName.order brokenDescent) ∧
    byName.SortsAround brokenDescent (sortEntriesBy byName.order brokenDescent) := by
  have siblings : ∀ entry ∈ brokenDescent, entry.isRoot = false := by decide
  exact ⟨siblings, by decide +kernel, sorts_between_errors siblings⟩

/-- An error entry does not keep its place, and it can keep others from being sorted. -/
theorem exists_displaced :
    (∃ entries : List Entry, (∀ entry ∈ entries, entry.isRoot = false) ∧
      ¬ ∀ (place : Nat) (entry : Entry), entries[place]? = some entry → entry.kind = .error →
        (sortEntriesBy byName.order entries)[place]? = some entry) ∧
    ∃ entries : List Entry, (∀ entry ∈ entries, entry.isRoot = false) ∧
      (sortEntriesBy byName.order entries).filter (fun entry => entry.kind ≠ .error) ≠
        sortEntriesBy byName.order (entries.filter fun entry => entry.kind ≠ .error) := by
  refine ⟨⟨brokenDescent, by decide, fun stays => ?_⟩,
    ⟨[entryBelow "b" .file, entryBelow "f" .error, entryBelow "a" .file], by decide, ?_⟩⟩
  · have place := stays 2 (entryBelow "f" .error) rfl rfl
    exact absurd place (by decide +kernel)
  · decide +kernel

end ListingOrder
end DirList
