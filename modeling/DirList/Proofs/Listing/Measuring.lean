import DirList.Proofs.Listing.Recording
import Mathlib.Algebra.Order.BigOperators.Group.List
import Mathlib.Algebra.Order.Floor.Ring
import Mathlib.Data.List.TakeWhile
import Mathlib.Data.Rat.Floor
import Mathlib.Order.Bounds.Basic

/-!
# What is measured

Selecting and measuring the entries of a directory comes to an account of those that are shown: how
many they are, how wide their columns get, what they take on their devices and what their long lines
say. Entries that are not shown leave no trace in it, but for the errors of those without a status.

Results:
1. `isWidest_widest`: the width of the largest number is the largest width of a number.
2. `unitsOf_eq_ceil`: blocks are counted by rounding up.
3. `Job.Selects.halts`: what selecting does under a policy that stops at errors.
4. `measures_shown`: what selecting and measuring the entries of a directory comes to.
-/

namespace DirList

open FileSystem

/-! ## Widths -/

/-- Whether a width is that of the widest of some texts, and at least the given one. -/
def IsWidest (least : Nat) (texts : List String) (width : Nat) : Prop :=
  IsGreatest (insert least {length | ∃ text ∈ texts, text.length = length}) width

/-- The greatest of some numbers, and of another one that a fold starts from. -/
theorem isGreatest_foldl_max {β : Type} [LinearOrder β] (least : β) (numbers : List β) :
    IsGreatest (insert least {number | number ∈ numbers}) (numbers.foldl max least) := by
  induction numbers generalizing least with
  | nil => simp [IsGreatest, upperBounds]
  | cons number numbers ih =>
    obtain ⟨inside, above⟩ := ih (max least number)
    rw [List.foldl_cons]
    refine ⟨?_, ?_⟩
    · rcases inside with same | member
      · rw [same]
        rcases max_choice least number with first | second
        · rw [first]
          exact .inl rfl
        · rw [second]
          exact .inr List.mem_cons_self
      · exact .inr (List.mem_cons_of_mem _ member)
    · rintro other (rfl | member)
      · exact (le_max_left _ _).trans (above (.inl rfl))
      rcases List.mem_cons.mp member with rfl | later
      · exact (le_max_right _ _).trans (above (.inl rfl))
      · exact above (.inr later)

theorem isWidest_longest (texts : List String) : IsWidest 0 texts (Descriptor.longest texts) := by
  have greatest := isGreatest_foldl_max 0 (texts.map String.length)
  simpa only [IsWidest, Descriptor.longest, List.mem_map] using greatest

/-- The digits of a larger number are no fewer. -/
theorem length_decimal_mono {a b : Int} (natural : 0 ≤ a) (less : a ≤ b) :
    (decimal a).length ≤ (decimal b).length := by
  rw [decimal, decimal, if_neg (by omega), if_neg (by omega), digits, digits, String.length_ofList,
    String.length_ofList, Nat.length_toDigits_le_iff (by decide) Nat.length_toDigits_pos]
  have less' : a.toNat ≤ b.toNat := Int.toNat_le_toNat less
  exact less'.trans_lt ((Nat.length_toDigits_le_iff (by decide) Nat.length_toDigits_pos).mp le_rfl)

/-- The text of the largest number is as wide as the widest text of a number. -/
theorem isWidest_widest {numbers : List Int} (natural : ∀ number ∈ numbers, 0 ≤ number) :
    IsWidest 1 (numbers.map decimal) (Descriptor.widest numbers) := by
  obtain ⟨inside, above⟩ := isGreatest_foldl_max 0 numbers
  have one : (decimal 0).length = 1 := by decide
  refine ⟨?_, ?_⟩
  · rw [Descriptor.widest]
    rcases inside with none | member
    · rw [none]
      exact .inl one
    · exact .inr ⟨_, List.mem_map_of_mem member, rfl⟩
  · rintro width (rfl | ⟨_, member, rfl⟩)
    · rw [← one]
      exact length_decimal_mono le_rfl (above (.inl rfl))
    · obtain ⟨number, inside, rfl⟩ := List.mem_map.mp member
      exact length_decimal_mono (natural number inside) (above (.inr inside))

/-! ## Blocks -/

/-- Blocks are counted by rounding up. -/
theorem unitsOf_eq_ceil {size : Int} (positive : 0 < size) (bytes : Int) :
    unitsOf size bytes = ⌈(bytes : ℚ) / size⌉ := by
  obtain ⟨size, rfl⟩ := Int.eq_ofNat_of_zero_le positive.le
  rw [unitsOf, Int.fdiv_eq_ediv_of_nonneg _ positive.le]
  exact (Rat.ceil_intCast_div_natCast bytes size).symm

theorem unitsOf_mono {size bytes bytes' : Int} (positive : 0 < size) (less : bytes ≤ bytes') :
    unitsOf size bytes ≤ unitsOf size bytes' := by
  rw [unitsOf_eq_ceil positive, unitsOf_eq_ceil positive]
  have size' : (0 : ℚ) < size := Int.cast_pos.mpr positive
  gcongr

/-- Rounding up a sum gives no more than rounding up its parts. -/
theorem unitsOf_add_le {size : Int} (positive : 0 < size) (bytes bytes' : Int) :
    unitsOf size (bytes + bytes') ≤ unitsOf size bytes + unitsOf size bytes' := by
  rw [unitsOf_eq_ceil positive, unitsOf_eq_ceil positive, unitsOf_eq_ceil positive, Int.cast_add,
    add_div]
  exact Int.ceil_add_le _ _

theorem unitsOf_nonneg {size bytes : Int} (positive : 0 < size) (natural : 0 ≤ bytes) :
    0 ≤ unitsOf size bytes := by
  have none : unitsOf size 0 = 0 := by simp [unitsOf]
  exact none ▸ unitsOf_mono positive natural

theorem unitsOf_sum_le {size : Int} (positive : 0 < size) (amounts : List Int) :
    unitsOf size amounts.sum ≤ (amounts.map (unitsOf size)).sum := by
  induction amounts with
  | nil => simp [unitsOf]
  | cons bytes amounts ih =>
    rw [List.map_cons, List.sum_cons, List.sum_cons]
    exact (unitsOf_add_le positive _ _).trans (add_le_add_right ih _)

/-- No number of a status is negative. -/
structure Status.IsNatural (status : Status) : Prop where
  size : 0 ≤ status.size
  inode : 0 ≤ status.inode
  links : 0 ≤ status.links
  blocks : ∀ blocks ∈ status.blocks, 0 ≤ blocks

instance (status : Status) : Decidable status.IsNatural :=
  decidable_of_iff (0 ≤ status.size ∧ 0 ≤ status.inode ∧ 0 ≤ status.links ∧
      ∀ blocks ∈ status.blocks, 0 ≤ blocks)
    ⟨fun ⟨size, inode, links, blocks⟩ => ⟨size, inode, links, blocks⟩,
      fun natural => ⟨natural.size, natural.inode, natural.links, natural.blocks⟩⟩

theorem Status.IsNatural.allocatedBytes {status : Status} (natural : status.IsNatural) :
    0 ≤ status.allocatedBytes := by
  unfold Status.allocatedBytes blockBytes
  split
  next blocks known =>
    have := natural.blocks blocks known
    omega
  · exact natural.size

/-! ## Policies that stop at errors -/

/-- The session under a policy that only records. -/
def Session.recording (session : Session) : Session :=
  { session with policy := { session.policy with kind := .collect } }

/-- `job.Halts session errors`: under a policy that stops at errors the job does what it does under
one that only records if it has no errors to report, and else it is given up for the first. -/
def Job.Halts {α : Type} (job : Job α) (session : Session) : List ListingError → Prop
  | [] => job.run.run session = ((job.run.run session.recording).1,
      { (job.run.run session.recording).2 with policy := session.policy })
  | first :: _ => (job.run.run session).1 = .error (.listing first) ∧
      (job.run.run session).2.policy = session.policy.record first

/-- A job that has reported nothing goes on under both policies. -/
theorem Job.Halts.onwards {α β : Type} {job : Job α} {next : α → Job β}
    {session session' : Session} {answer : α} {errors : List ListingError}
    (records : job.run.run session.recording = (.ok answer, session'.recording))
    (goesOn : job.run.run session = (.ok answer, session'))
    (same : session'.policy = session.policy) (halts : (next answer).Halts session' errors) :
    (job >>= next).Halts session errors := by
  cases errors with
  | nil =>
    unfold Job.Halts at halts ⊢
    rw [run_bind, run_bind, records, goesOn, ← same]
    exact halts
  | cons first rest =>
    unfold Job.Halts at halts ⊢
    rw [run_bind, goesOn, ← same]
    exact halts

/-- A job that is given up for an error does not go on. -/
theorem Job.Halts.bind {α β : Type} {job : Job α} {next : α → Job β} {session : Session}
    {first : ListingError} {rest : List ListingError} (halts : job.Halts session (first :: rest))
    (rest' : List ListingError) : (job >>= next).Halts session (first :: rest') := by
  obtain ⟨stopped, recorded⟩ := halts
  unfold Job.Halts
  rw [run_bind]
  rcases ran : job.run.run session with ⟨abort | answer, last⟩
  all_goals rw [ran] at stopped recorded
  · cases stopped
    exact ⟨rfl, recorded⟩
  · cases stopped

namespace Job.Selects

variable {α : Type} {job : Job α}

/-- Under a policy that only records, selecting records errors and does nothing else to the
policy. -/
theorem records (selects : job.Selects) {session : Session}
    (collects : session.policy.kind = .collect) :
    ∃ errors, (job.run.run session).2.policy =
      { session.policy with errors := session.policy.errors ++ errors } := by
  induction selects generalizing session with
  | pure | throw | changeHeld | ownerName | groupName =>
    exact ⟨[], by rw [List.append_nil]; rfl⟩
  | report error =>
    refine ⟨[error], ?_⟩
    rw [run_report, Policy.handle, collects]
    rfl
  | @bind _ _ job next _ _ first second =>
    obtain ⟨errors, recorded⟩ := first collects
    rw [run_bind]
    rcases ran : job.run.run session with ⟨_ | answer, middle⟩
    all_goals rw [ran] at recorded
    · exact ⟨errors, recorded⟩
    · obtain ⟨errors', recorded'⟩ := second answer (recorded ▸ collects : middle.policy.kind = _)
      refine ⟨errors ++ errors', recorded'.trans ?_⟩
      rw [recorded, List.append_assoc]

/-- What selecting does under a policy that stops at errors. -/
theorem halts (selects : job.Selects) {session : Session}
    (strict : session.policy.kind = .failFast) :
    ∃ errors, (job.run.run session.recording).2.policy =
        { session.recording.policy with errors := session.policy.errors ++ errors } ∧
      job.Halts session errors := by
  induction selects generalizing session with
  | pure | throw | changeHeld | ownerName | groupName =>
    exact ⟨[], by rw [List.append_nil]; rfl, rfl⟩
  | report error =>
    refine ⟨[error], rfl, ?_⟩
    unfold Halts
    rw [run_report, Policy.handle, strict]
    exact ⟨rfl, rfl⟩
  | @bind _ _ job next _ selects' first second =>
    obtain ⟨errors, recorded, halts⟩ := first strict
    rw [run_bind]
    rcases ran : job.run.run session.recording with ⟨abort | answer, middle⟩
    all_goals rw [ran] at recorded
    · refine ⟨errors, recorded, ?_⟩
      cases errors with
      | nil =>
        unfold Halts at halts ⊢
        rw [run_bind, run_bind, halts, ran]
      | cons error rest => exact halts.bind rest
    cases errors with
    | nil =>
      -- nothing was recorded, so both runs go on from sessions that differ in the policy only
      obtain ⟨world, policy, output, held⟩ := middle
      rw [List.append_nil] at recorded
      obtain rfl : policy = session.recording.policy := recorded
      have goesOn : job.run.run session = (.ok answer, ⟨world, session.policy, output, held⟩) := by
        rw [show job.run.run session = _ from halts, ran]
      obtain ⟨errors, recorded', halts'⟩ :=
        @second answer ⟨world, session.policy, output, held⟩ strict
      exact ⟨errors, recorded', .onwards ran goesOn rfl halts'⟩
    | cons error rest =>
      have collects : middle.policy.kind = .collect := by rw [recorded]; rfl
      obtain ⟨errors, recorded'⟩ := (selects' answer).records collects
      refine ⟨error :: (rest ++ errors), recorded'.trans ?_, halts.bind _⟩
      rw [recorded, List.append_assoc, List.cons_append]

end Job.Selects

/-! ## Measures -/

namespace Descriptor

theorem totalBytes_eq_sum (statuses : List Status) :
    totalBytes statuses = (statuses.map Status.allocatedBytes).sum := by
  induction statuses with
  | nil => rfl
  | cons status statuses ih =>
    rw [List.map_cons, List.sum_cons, ← ih]
    rfl

/-- `Weighs config statuses descriptor`: the descriptor has the widths of the numbers in these
statuses, at least of one digit, and the blocks that all nodes take together, rounded up once. -/
structure Weighs (config : Config) (statuses : List Status) (descriptor : Descriptor) : Prop where
  block : IsWidest 1 (statuses.map fun status =>
    decimal (unitsOf config.blockSize status.allocatedBytes)) descriptor.blockWidth
  inode : IsWidest 1 (statuses.map fun status => decimal status.inode) descriptor.inodeWidth
  links : IsWidest 1 (statuses.map fun status => decimal status.links) descriptor.linkWidth
  size : IsWidest 1 (statuses.map fun status => decimal status.size) descriptor.sizeWidth
  total : descriptor.total =
    ⌈(((statuses.map Status.allocatedBytes).sum : Int) : ℚ) / config.blockSize⌉
  natural : 0 ≤ descriptor.total
  least : ∀ status ∈ statuses, unitsOf config.blockSize status.allocatedBytes ≤ descriptor.total
  most : descriptor.total ≤
    (statuses.map fun status => unitsOf config.blockSize status.allocatedBytes).sum

/-- `Calls world config statuses descriptor`: the descriptor has the widths of the names in the long
lines of these statuses, and says whether a device is among them. -/
structure Calls (world : World) (config : Config) (statuses : List Status)
    (descriptor : Descriptor) : Prop where
  owner : IsWidest 0 (statuses.map fun status => (Recursion.names world config status).owner)
    descriptor.ownerWidth
  group : IsWidest 0 (statuses.map fun status => (Recursion.names world config status).group)
    descriptor.groupWidth
  flags : IsWidest 0 (statuses.filterMap fun status => (Recursion.names world config status).flags)
    descriptor.flagsWidth
  device : descriptor.hasDevice = true ↔ ∃ status ∈ statuses, status.fileType.isDevice = true

/-- The statuses of the entries that are shown, where they have one. -/
def shownStatuses (config : Config) (parent : Option Entry) (entries : List Entry) : List Status :=
  (entries.filter (Recursion.isShown config parent)).filterMap Entry.status

/-- `Measures world config parent entries descriptor`: the descriptor holds all entries and shows
some of them, whose number, widths, blocks and names it knows. -/
structure Measures (world : World) (config : Config) (parent : Option Entry)
    (entries : List Entry) (descriptor : Descriptor) : Prop where
  directory : descriptor.parent = parent
  whole : descriptor.items.map Item.entry = entries
  visible : descriptor.items.map Item.visible = entries.map (Recursion.isShown config parent)
  annotation : ∀ item ∈ descriptor.items, item.annotation =
    if item.visible && config.isLong then item.entry.status.map (Recursion.names world config)
    else none
  count : descriptor.count = (entries.filter (Recursion.isShown config parent)).length
  name : IsWidest 0 ((entries.filter (Recursion.isShown config parent)).map Entry.name)
    descriptor.nameWidth
  weighs : config.needsStatus = true →
    Weighs config (shownStatuses config parent entries) descriptor
  calls : config.isLong = true →
    Calls world config (shownStatuses config parent entries) descriptor

section Measuring

variable {world : World} {config : Config} (parent : Option Entry) (entries : List Entry)

theorem visibleStatuses_judged : visibleStatuses (entries.map (judged world config parent)) =
    shownStatuses config parent entries := by
  rw [visibleStatuses, visibleItems_judged, List.filterMap_map]
  rfl

/-- In long lines, every shown entry with a status has names. -/
theorem annotations_judged (long : config.isLong = true) :
    (visibleItems (entries.map (judged world config parent))).filterMap Item.annotation =
      (shownStatuses config parent entries).map (Recursion.names world config) := by
  rw [visibleItems_judged, List.filterMap_map, shownStatuses, List.map_filterMap]
  exact List.filterMap_congr fun entry _ => if_pos long

theorem weighs_measure (positive : 0 < config.blockSize) (needed : config.needsStatus = true)
    (natural : ∀ status ∈ shownStatuses config parent entries, status.IsNatural) :
    Weighs config (shownStatuses config parent entries)
      (measure config parent (entries.map (judged world config parent))) := by
  unfold measure
  simp only [visibleStatuses_judged, needed, if_true]
  generalize shownStatuses config parent entries = statuses at natural
  have bytes : ∀ status ∈ statuses, 0 ≤ status.allocatedBytes := fun status member =>
    (natural status member).allocatedBytes
  have widest : ∀ number : Status → Int, (∀ status ∈ statuses, 0 ≤ number status) →
      IsWidest 1 (statuses.map fun status => decimal (number status))
        (widest (statuses.map number)) := by
    intro number natural'
    have widths := isWidest_widest (List.forall_mem_map.mpr natural')
    rwa [List.map_map] at widths
  refine ⟨widest _ fun status member => unitsOf_nonneg positive (bytes status member),
    widest _ fun status member => (natural status member).inode,
    widest _ fun status member => (natural status member).links,
    widest _ fun status member => (natural status member).size, ?_, ?_, fun status member => ?_, ?_⟩
  all_goals rw [totalBytes_eq_sum]
  · exact unitsOf_eq_ceil positive _
  · exact unitsOf_nonneg positive (List.sum_nonneg (List.forall_mem_map.mpr bytes))
  · refine unitsOf_mono positive (List.single_le_sum ?_ _ (List.mem_map_of_mem member))
    exact List.forall_mem_map.mpr bytes
  · have most := unitsOf_sum_le positive (statuses.map Status.allocatedBytes)
    rwa [List.map_map] at most

theorem calls_measure (long : config.isLong = true) :
    Calls world config (shownStatuses config parent entries)
      (measure config parent (entries.map (judged world config parent))) := by
  unfold measure
  simp only [visibleStatuses_judged, annotations_judged parent entries long, long, Bool.true_and,
    List.map_map, List.filterMap_map]
  exact ⟨isWidest_longest _, isWidest_longest _, isWidest_longest _, List.any_eq_true⟩

/-- The measures of decided entries are those of the shown ones. -/
theorem measures_measure (positive : 0 < config.blockSize)
    (natural : ∀ status ∈ shownStatuses config parent entries, status.IsNatural) :
    Measures world config parent entries
      (measure config parent (entries.map (judged world config parent))) where
  directory := rfl
  whole := by
    have same : Item.entry ∘ judged world config parent = id := by
      funext entry
      simp only [Function.comp_apply, judged, id_eq]
      split <;> rfl
    rw [measure, List.map_map, same, List.map_id]
  visible := by
    rw [measure, List.map_map]
    refine List.map_congr_left fun entry _ => ?_
    simp only [Function.comp_apply, judged]
    split
    next shown => exact shown.symm
    next masked => exact (Bool.eq_false_iff.mpr masked).symm
  annotation := by
    refine List.forall_mem_map.mpr fun entry _ => ?_
    unfold judged Recursion.item
    split <;> rfl
  count := by
    unfold measure
    simp only [visibleItems_judged, List.length_map]
  name := by
    unfold measure
    simp only [visibleItems_judged, List.map_map]
    exact isWidest_longest _
  weighs := fun needed => weighs_measure parent entries positive needed natural
  calls := calls_measure parent entries

/-- The descriptor without the entries that are not shown. -/
def bare (descriptor : Descriptor) : Descriptor :=
  { descriptor with items := visibleItems descriptor.items }

/-- What is measured depends on the shown entries only. -/
theorem bare_measure (parent : Option Entry) (items : List Item) :
    (measure config parent items).bare = measure config parent (visibleItems items) := by
  have again : visibleItems (visibleItems items) = visibleItems items := by
    rw [visibleItems, visibleItems, List.filter_filter]
    simp only [Bool.and_self]
  unfold bare measure visibleStatuses
  simp only [again]

end Measuring
end Descriptor

/-! ## Selecting and measuring -/

section Collecting

variable {world : World} {config : Config} {parent : Option Entry}

/-- What comes of entries if there is memory for all of them. -/
def collected (world : World) (config : Config) (parent : Option Entry) (entries : List Entry) :
    Option Descriptor :=
  if (entries.filter (Recursion.isShown config parent)).isEmpty then none
  else some (Descriptor.measure config parent (entries.map (judged world config parent)))

/-- `Collects world config parent entries answer`: selecting and measuring the entries gives the
answer and hands an error to the policy for every entry that stands for one. A policy that stops at
errors is handed the first one only, and there is no answer then. -/
structure Collects (world : World) (config : Config) (parent : Option Entry)
    (entries : Option (List Entry)) (answer : Option Descriptor) : Prop where
  lenient : Finds world True (Descriptor.collect config parent entries) (.ok answer)
    (Recursion.losses (entries.getD []))
  strict : ∀ session : Session, world.owners.Backs session.world.owners →
    world.groups.Backs session.world.groups → session.policy.kind = .failFast →
    match Recursion.losses (entries.getD []) with
    | [] => ∃ session', Settles (Descriptor.collect config parent entries) session (.ok answer)
        session' ∧ session'.policy = session.policy
    | first :: _ => ∃ session', (Descriptor.collect config parent entries).run.run session =
        (.error (.listing first), session') ∧ session'.policy = session.policy.record first

theorem collects_collected {entries : Option (List Entry)} (sized : config.blockSize ≠ 0)
    (memory : ∀ entry ∈ (entries.getD []).filter (Recursion.isShown config parent),
      world.exhausts config entry = false) :
    Collects world config parent entries (collected world config parent (entries.getD [])) := by
  have memory' : ∀ entry ∈ entries.getD [], world.lacks config parent entry = false := by
    intro entry member
    cases shown : Recursion.isShown config parent entry with
    | false => simp [World.lacks, shown]
    | true => simp [World.lacks, memory entry (List.mem_filter.mpr ⟨member, shown⟩)]
  have all : world.reached config parent (entries.getD []) = entries.getD [] :=
    List.takeWhile_eq_self_iff.mpr fun entry member => by rw [memory' entry member]; rfl
  have found : Finds world _ (Descriptor.collect config parent entries) _ _ :=
    finds_collect sized parent entries
  rw [World.lacking?_eq_none memory', all, Option.elim_none] at found
  have finds : Finds world True (Descriptor.collect config parent entries) _ _ :=
    found.imp fun _ => rfl
  refine ⟨finds, fun session owners groups strict => ?_⟩
  obtain ⟨session', settles, learns⟩ := finds session.recording ⟨owners, groups, nofun⟩
  obtain ⟨errors, recorded, halts⟩ := (selects_collect config parent entries).halts strict
  have ran : (Descriptor.collect config parent entries).run.run session.recording =
      (.ok (.ok (collected world config parent (entries.getD []))), session') := settles
  rw [ran] at recorded
  obtain rfl : errors = Recursion.losses (entries.getD []) := by
    have same := congrArg Policy.errors (recorded.symm.trans learns.policy)
    rw [Policy.handleAll_errors] at same
    exact List.append_cancel_left same
  generalize Recursion.losses (entries.getD []) = errors at halts
  cases errors with
  | nil =>
    unfold Job.Halts at halts
    rw [ran] at halts
    exact ⟨_, halts, rfl⟩
  | cons first rest => exact ⟨_, Prod.ext halts.1 rfl, halts.2⟩

/-- What selecting and measuring the entries of a directory comes to, when no number in a status
that is shown is negative and there is memory for all names: an error is handed to the policy for
every entry that stands for one, nothing comes of entries none of which is shown, and the others are
measured. Entries that are not shown, whatever they are and how many, change nothing of it but the
list that they are kept in. -/
theorem measures_shown (accepted : config.problems = []) (entries : Option (List Entry))
    (natural : ∀ status ∈ Descriptor.shownStatuses config parent (entries.getD []),
      status.IsNatural)
    (memory : ∀ entry ∈ (entries.getD []).filter (Recursion.isShown config parent),
      world.exhausts config entry = false) :
    Collects world config parent entries (collected world config parent (entries.getD [])) ∧
      (collected world config parent (entries.getD []) = none ↔
        ∀ entry ∈ entries.getD [], Recursion.isShown config parent entry = false) ∧
      (∀ descriptor ∈ collected world config parent (entries.getD []),
        descriptor.Measures world config parent (entries.getD [])) ∧
      ∀ entries' : Option (List Entry),
        (entries'.getD []).filter (Recursion.isShown config parent) =
          (entries.getD []).filter (Recursion.isShown config parent) →
        Collects world config parent entries' (collected world config parent (entries'.getD [])) ∧
          (collected world config parent (entries'.getD [])).map Descriptor.bare =
            (collected world config parent (entries.getD [])).map Descriptor.bare := by
  have positive : 0 < config.blockSize := by
    refine Int.lt_of_not_ge fun none => ?_
    simp [Config.problems, none] at accepted
  refine ⟨collects_collected positive.ne' memory, by simp [collected], fun descriptor known => ?_,
    fun entries' same => ⟨collects_collected positive.ne' (same ▸ memory), ?_⟩⟩
  · unfold collected at known
    split at known
    · cases known
    · cases known
      exact Descriptor.measures_measure parent _ positive natural
  · unfold collected
    rw [same]
    split
    · rfl
    · rw [Option.map_some, Option.map_some, Descriptor.bare_measure, Descriptor.bare_measure,
        visibleItems_judged, visibleItems_judged, same]

end Collecting

/-! ## A sample -/

/-- An entry of a directory with a size, blocks and an owner. -/
def sizedEntry (name : String) (kind : Kind) (mode : Mode) (size : Int) (blocks : Option Int)
    (owner : Int) : Entry :=
  { (default : Entry) with
    name
    kind
    level := 1
    status := some { (default : Status) with mode, size, blocks, owner, links := 1, inode := 12 } }

/-- A hidden file and an entry without a status, between a file and a device. -/
def mixedEntries : List Entry :=
  [sizedEntry "a" .file 0o100644 300 none 7,
    sizedEntry ".hidden" .file 0o100644 99999 (some 4096) 5,
    { sizedEntry "lost" .noStatus 0 0 none 0 with status := none, errorCode := 13 },
    sizedEntry "tty" .other 0o020620 0 (some 1) 0]

/-- Long lines with blocks and flags. -/
def fullLines : Config :=
  { displayMode := DisplayMode.long, showBlocks := true, showFlags := true }

/-- A world with a named owner. -/
def namedWorld : World :=
  { (default : World) with owners := { names := [(7, "alice")] } }

/-- The file and the device take one block each, and one block together. -/
theorem measures_shown_sample :
    fullLines.problems = [] ∧
    (∀ status ∈ Descriptor.shownStatuses fullLines (some default) mixedEntries,
      status.IsNatural) ∧
    (∀ entry ∈ mixedEntries.filter (Recursion.isShown fullLines (some default)),
      namedWorld.exhausts fullLines entry = false) ∧
    Recursion.losses mixedEntries = [.ofCode .node "lost" 13] ∧
    Collects namedWorld fullLines (some default) (some mixedEntries)
      (collected namedWorld fullLines (some default) mixedEntries) ∧
    ∃ descriptor, collected namedWorld fullLines (some default) mixedEntries = some descriptor ∧
      descriptor.Measures namedWorld fullLines (some default) mixedEntries ∧
      (descriptor.count, descriptor.nameWidth, descriptor.total, descriptor.blockWidth,
        descriptor.sizeWidth, descriptor.ownerWidth, descriptor.hasDevice) =
        (2, 3, 1, 1, 3, 5, true) := by
  have accepted : fullLines.problems = [] := by decide
  have natural : ∀ status ∈ Descriptor.shownStatuses fullLines (some default) mixedEntries,
      status.IsNatural := by decide
  have memory : ∀ entry ∈ mixedEntries.filter (Recursion.isShown fullLines (some default)),
      namedWorld.exhausts fullLines entry = false := by decide
  obtain ⟨collects, -, measures, -⟩ :=
    measures_shown accepted (some mixedEntries) natural memory
  exact ⟨accepted, natural, memory, by decide, collects, _, rfl, measures _ rfl,
    by decide +kernel⟩

end DirList
