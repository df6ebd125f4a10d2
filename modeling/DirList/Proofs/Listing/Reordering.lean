import DirList.Proofs.Listing.Comparison
import DirList.Proofs.Walk.Completeness
import DirList.Proofs.Walk.Reordering

/-!
# Sorted listings in another order

A sorted listing does not depend on the order in which directories list their entries, nor on the
order of the paths. Entries of one name would be left in the order in which they were read, but the
names of a directory are distinct, and roots of one name are the same entry.

Results:
1. `contents_eq_of_permutes`: the sorted entries of a directory are the same.
2. `roots_eq_of_permutes`: so are the sorted roots.
3. `stages_eq_of_permutes`: so are the stages of a listing.
4. `listPaths_permuted`: and so is all that comes of it.
-/

namespace DirList

open FileSystem Walk

/-! ## Sorting siblings -/

/-- Sorting the entries of a directory forgets in what order they were listed. Only `.` and `..` may
have the name of another entry; they come first in any case. -/
theorem sortEntriesBy_children (listing : ListingOrder) {dots : List Entry}
    {found found' : Directory} {child : String × NodeId → Entry}
    (siblings : ∀ entry ∈ dots, ListingOrder.IsSibling false entry)
    (siblings' : ∀ entry ∈ found, ListingOrder.IsSibling false (child entry))
    (dotted : (dots.map Entry.name).Nodup) (named : ∀ entry ∈ found, (child entry).name = entry.1)
    (distinct : (found.map Prod.fst).Nodup) (same : found.Perm found') :
    sortEntriesBy listing.order (dots ++ found.map child) =
      sortEntriesBy listing.order (dots ++ found'.map child) := by
  have lies : ∀ {found : Directory}, (∀ entry ∈ found, (child entry).name = entry.1) →
      (found.map Prod.fst).Nodup →
      (dots ++ found.map child).Pairwise fun a b => a ∈ dots ∨ a.name ≠ b.name := by
    intro found named distinct
    refine List.pairwise_append.mpr ⟨?_, ?_, fun a inside _ _ => .inl inside⟩
    · exact List.pairwise_of_forall_mem_list fun a inside _ _ => .inl inside
    · rw [List.pairwise_map]
      refine (List.pairwise_map.mp distinct).imp_of_mem fun inside inside' differ => .inr ?_
      rwa [named _ inside, named _ inside']
  refine ListingOrder.sortEntriesBy_eq_of_perm false _ ((same.map child).append_left dots) ?_
    (lies named distinct)
    (lies (fun entry inside => named entry (same.mem_iff.mpr inside))
      ((same.map _).nodup_iff.mp distinct)) ?_
  · intro entry inside
    rcases List.mem_append.mp inside with inside | inside
    · exact siblings entry inside
    · obtain ⟨name, listed, rfl⟩ := List.mem_map.mp inside
      exact siblings' name listed
  · intro a _ b _ same first second
    exact List.inj_on_of_nodup_map dotted (first.resolve_right (not_not_intro same))
      (second.resolve_right (not_not_intro same.symm)) same

/-! ## Reading directories -/

section Reading

variable {files files' : FileSystem} (static : files.IsStatic) (calm : files.IsCalm)
include static calm

/-- What is read of a directory by what its scan gives. -/
theorem contents_of_scan (plan : Plan) (namesOnly : Bool) {directory : Entry} {found : Directory}
    (scanned : Settles (attempt (Call.scan directory.accessPath)) files (.ok found) files) :
    ∃ dots, Settles (readDots plan.options namesOnly directory (0 + found.length)) files dots
        files ∧
      Recursion.contents files plan namesOnly directory =
        sortEntries plan.comparator (dots.map Entry.unnumbered ++
          found.map (childAs files plan.options namesOnly directory)) := by
  obtain ⟨children, reads, -⟩ := settles_of_calm static
    (yields_readChildren plan.options namesOnly directory 0 found)
    (spares_readChildren calm _ _ _ _ _)
  obtain ⟨dots, readsDots, -⟩ := settles_of_calm static
    (yields_readDots plan.options namesOnly directory (0 + found.length) false)
    (spares_readDots calm _ _ _ _)
  refine ⟨dots, readsDots, ?_⟩
  rw [Recursion.contents_of_settles (scanned.bind (reads.bind (readsDots.bind (.pure _ _)))),
    ← map_unnumbered_sortEntries, List.map_append, map_unnumbered_readChildren_eq static reads]

omit calm in
theorem dots_facts {options : WalkOptions} {namesOnly : Bool} {directory : Entry} {serial : Nat}
    {dots : List Entry} (settles : Settles (readDots options namesOnly directory serial) files dots
      files) :
    (dots.map Entry.name).Nodup ∧
      ∀ entry ∈ dots, entry.level = directory.level + 1 ∧ entry.kind ≠ .error := by
  obtain ⟨-, named⟩ := eq_of_settles static (yields_names_readDots _ _ _ _) settles
  obtain ⟨-, names, read, -⟩ := eq_of_settles static (yields_readDots _ _ _ _ false) settles
  refine ⟨?_, fun entry inside => ?_⟩
  · rw [named]
    split <;> decide
  · obtain ⟨child, found, -⟩ := read.forall_mem entry inside
    exact ⟨child.level, found.kind_ne.2.2⟩

variable (permutes : files.Permutes files') (distinct : files.HasDistinctNames)
variable {plan : Plan} {listing : ListingOrder} (sorted : plan.order = some listing)
include permutes distinct sorted

/-- The sorted entries of a directory do not depend on its order. -/
theorem contents_eq_of_permutes {directory : Entry} (deep : directory.level + 1 ≠ 0)
    (namesOnly : Bool) :
    Recursion.contents files' plan namesOnly directory =
      Recursion.contents files plan namesOnly directory := by
  have static' := permutes.isStatic static
  have calm' := permutes.isCalm calm
  obtain ⟨answer, scanned, -⟩ := settles_of_calm static (yields_attempt (yields_scan _))
    (spares_attempt (spares_scan calm directory.accessPath))
  obtain ⟨answer', scanned', matched⟩ :=
    (agrees_scan static permutes distinct directory.accessPath).attempt.exists_settles scanned
  cases matched with
  | error error =>
    rw [Recursion.contents_of_settles (scanned.bind (.pure _ _)),
      Recursion.contents_of_settles (scanned'.bind (.pure _ _))]
  | @ok found found' both =>
    obtain ⟨same, once⟩ := both
    obtain ⟨dots, reads, contents⟩ := contents_of_scan static calm plan namesOnly scanned
    obtain ⟨dots', reads', contents'⟩ := contents_of_scan static' calm' plan namesOnly scanned'
    obtain ⟨_, again, rfl⟩ :=
      (agrees_readDots static permutes distinct _ _ _ _).exists_settles reads
    rw [same.length_eq] at again
    cases (reads'.unique again).1
    have children := childAs_eq static permutes distinct plan.options namesOnly directory
    have inside : ∀ {entry : Entry}, entry.level = directory.level + 1 → entry.isRoot = false := by
      intro entry level
      rw [Entry.isRoot, level, decide_eq_false deep]
    obtain ⟨named, facts⟩ := dots_facts static reads
    have facts' := childAs_facts static calm plan.options namesOnly directory
    rw [contents, contents', children, Plan.comparator, sorted]
    refine congrArg Except.ok (sortEntriesBy_children listing ?_ ?_ ?_ ?_ once same).symm
    · exact List.forall_mem_map.mpr fun entry member =>
        ⟨(facts entry member).2, inside (facts entry member).1⟩
    · exact fun entry _ => ⟨(facts' entry).2.2, inside (facts' entry).2.1⟩
    · rwa [List.map_map]
    · exact fun entry _ => (facts' entry).1

/-- The sorted roots do not depend on the order of the paths. -/
theorem roots_eq_of_permutes {paths paths' : List String} (same : paths.Perm paths') :
    Recursion.roots files' plan paths' = Recursion.roots files plan paths := by
  have read : ∀ {files : FileSystem} {paths : List String}, files.IsStatic → files.IsCalm →
      Recursion.roots files plan paths = sortEntriesBy listing.order
        (paths.map (rootAs files (plan.options.followRoots || plan.options.logical))) := by
    intro files paths static calm
    obtain ⟨found, settles, -⟩ := settles_of_calm static
      (yields_readRoots (plan.options.followRoots || plan.options.logical) 0 paths)
      (spares_readRoots calm _ _ _)
    rw [← map_unnumbered_readRoots_eq static settles,
      map_unnumbered_sortEntriesBy (fun _ _ => rfl)]
    unfold Recursion.roots
    dsimp only
    rw [settles, sorted]
  have facts := rootAs_facts static calm (plan.options.followRoots || plan.options.logical)
  rw [read static calm, read (permutes.isStatic static) (permutes.isCalm calm),
    rootAs_eq static permutes distinct]
  refine (ListingOrder.sortEntriesBy_eq_of_perm true (fun _ _ => True) (same.map _) ?_ ?_ ?_
    ?_).symm
  · exact List.forall_mem_map.mpr fun path _ => ⟨(facts path).2.2, by
      rw [Entry.isRoot, (facts path).2.1]
      rfl⟩
  · exact List.pairwise_of_forall_mem_list fun _ _ _ _ => trivial
  · exact List.pairwise_of_forall_mem_list fun _ _ _ _ => trivial
  · intro a inside b inside' named _ _
    obtain ⟨path, -, rfl⟩ := List.mem_map.mp inside
    obtain ⟨path', -, rfl⟩ := List.mem_map.mp inside'
    rw [(facts path).1, (facts path').1] at named
    rw [named]

/-! ## Stages -/

/-- The stages of an entry do not depend on the order of directories. -/
theorem stagesOf_eq_of_permutes {entry : Entry} (grounded : entry.Grounded files)
    (grounded' : entry.Grounded files') :
    Recursion.stagesOf files' plan entry = Recursion.stagesOf files plan entry := by
  induction rank : Walk.rank files entry using Nat.strong_induction_on generalizing entry with
  | _ level ih =>
    subst rank
    have deep : entry.level + 1 ≠ 0 := by
      have := grounded.level
      omega
    have same := contents_eq_of_permutes static calm permutes distinct sorted deep
      (Recursion.namesOnly plan)
    rw [Recursion.stagesOf_eq plan grounded, Recursion.stagesOf_eq plan grounded', same]
    cases kind : entry.kind with
    | directory =>
      dsimp only
      split
      · rfl
      cases given : Recursion.contents files plan (Recursion.namesOnly plan) entry with
      | error error => rfl
      | ok entries =>
        dsimp only
        split
        · refine congrArg _ (List.flatMap_congr fun child inside => ?_)
          obtain ⟨below, less⟩ := Recursion.contents_child grounded kind given child inside
          exact ih _ less below
            (Recursion.contents_child grounded' kind (same.trans given) child inside).1 rfl
        · rfl
    | _ => rfl

/-- The stages of a listing do not depend on the order of directories and paths. -/
theorem stages_eq_of_permutes {paths paths' : List String} (same : paths.Perm paths') :
    Recursion.stages files' plan paths' = Recursion.stages files plan paths := by
  have roots := roots_eq_of_permutes static calm permutes distinct sorted same
  unfold Recursion.stages
  rw [roots]
  refine congrArg _ (if_congr Iff.rfl rfl (List.flatMap_congr fun root inside => ?_))
  have inside' : root ∈ Recursion.roots files' plan paths' := roots ▸ inside
  exact stagesOf_eq_of_permutes static calm permutes distinct sorted
    (Recursion.roots_grounded root inside) (Recursion.roots_grounded root inside')

end Reading

/-! ## Listings -/

/-- A sorted listing does not depend on the order in which directories list their entries and in
which its paths are given. The text, the errors, the names that were asked for and the exit status
are the same, under every policy; only the files keep their order. -/
theorem listPaths_permuted {config : Config} {world : World} {files' : FileSystem}
    {paths paths' : List String} (kind : PolicyKind) (static : world.files.IsStatic)
    (calm : world.files.IsCalm) (permutes : world.files.Permutes files')
    (distinct : world.files.HasDistinctNames) (same : paths.Perm paths')
    (accepted : config.problems = []) (sorted : config.unsorted = false) :
    ∃ outcome, listPaths .standard world kind paths config = .ok outcome ∧
      listPaths .standard { world with files := files' } kind paths' config =
        .ok { outcome with session := outcome.session.among files' } := by
  obtain ⟨plan, planned⟩ := Plan.exists_of_accepted accepted
  obtain ⟨listing, order⟩ : ∃ listing, plan.order = some listing := by
    rw [Plan.order_of_planned planned, sorted, if_neg Bool.false_ne_true, Config.listingOrder]
    cases key : config.sortKey with
    | known key => exact ⟨_, rfl⟩
    | unknown text => simp [Config.problems, key] at accepted
  have links : world.files.LinksAlike files' := fun path =>
    linkAlike_of_agrees static calm (agrees_readLink static permutes distinct path)
  have same' : (pathsOrDefault paths).Perm (pathsOrDefault paths') := by
    rw [pathsOrDefault, pathsOrDefault, same.isEmpty_eq]
    split
    · exact .refl _
    · exact same
  exact listPaths_of_stages kind planned static calm (permutes.isStatic static)
    (permutes.isCalm calm) same'.length_eq.symm (unfit_eq_of_perm same'.symm)
    (fun stage _ => Stage.linksAlike links stage)
    (stages_eq_of_permutes static calm permutes distinct order same')

/-! ## A sample -/

/-- A world whose directories list their entries in no order. -/
def unsortedWorld : World :=
  { (default : World) with
    files := .ofTree (.node "" (Client.sampleSketch .directory 0o040755) [
      .node "d" (Client.sampleSketch .directory 0o040755) [
        .node "n" (Client.sampleSketch (.symlink "nowhere") 0o120777) [],
        .node "b" (Client.sampleSketch .directory 0o040755) [
          .node "y" (Client.sampleSketch .leaf 0o100644) [],
          .node "x" (Client.sampleSketch .leaf 0o100644) []],
        .node "a" (Client.sampleSketch .leaf 0o100644) []],
      .node "f" (Client.sampleSketch .leaf 0o100644) []]) }

theorem faults_unsortedWorld : ∀ node ∈ unsortedWorld.files.nodes, node.faults = {} := by
  decide +kernel

theorem run_unsortedWorld :
    let config : Config := { recursive := true }
    ∃ plan outcome, Plan.ofConfig .standard config = .ok plan ∧
      listPaths .standard unsortedWorld .collect ["f", "d", "f"] config = .ok outcome ∧
      (outcome.status.toOption, outcome.session.output) =
        (some 0, "f
f

d:
a
b
n

d/b:
x
y
") :=
  exists_of_observed (by decide +kernel)

/-- With all directories reversed and other paths first, a listing writes the same. -/
theorem listPaths_permuted_sample :
    ∃ outcome, listPaths .standard { unsortedWorld with files := unsortedWorld.files.reversed }
        .collect ["d", "f", "f"] { recursive := true } = .ok outcome ∧
      outcome.session.output = "f
f

d:
a
b
n

d/b:
x
y
" := by
  obtain ⟨plan, outcome, planned, given, ran⟩ := run_unsortedWorld
  obtain ⟨outcome', given', moved⟩ := listPaths_permuted .collect
    (isStatic_of_faults faults_unsortedWorld) (isCalm_of_faults faults_unsortedWorld)
    (permutes_reversed unsortedWorld.files) (by decide +kernel)
    (List.Perm.swap "d" "f" ["f"] : ["f", "d", "f"].Perm ["d", "f", "f"])
    (by decide : ({ recursive := true } : Config).problems = []) rfl
  cases given.symm.trans given'
  exact ⟨_, moved, (Prod.mk.inj ran).2⟩

end DirList
