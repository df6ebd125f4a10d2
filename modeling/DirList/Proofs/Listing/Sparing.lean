import DirList.Proofs.Listing.Comparison
import DirList.Proofs.Walk.Sparing

/-!
# Listings without statuses

A listing that shows nothing of a status, and orders by nothing of it, skips the status where it
can. In a legible file system this makes no difference: it comes to the same as if it had asked for
every status.

Results:
1. `display_of_names`: without statuses, the names of entries are all that is displayed.
2. `contents_cases`: what is read of a directory with and without statuses.
3. `performAll_stagesOf_asking`: the visit of an entry comes to the same.
4. `run_listPlanned_asking`: so does the whole listing.
-/

namespace DirList

open FileSystem Walk

/-- The plan of a listing that asks for every status. -/
def Plan.asking (plan : Plan) : Plan :=
  { plan with options := plan.options.asking }

/-- Whether a plan needs no status: it neither shows nor marks anything by one, and it sorts by
name. -/
structure Plan.Skips (plan : Plan) : Prop where
  skips : plan.options.skipStatus = true
  short : plan.config.isLong = false
  unmeasured : plan.config.needsStatus = false
  unmarked : plan.config.marksTypes = false
  byName : ∀ listing ∈ plan.order, listing.field.key = .name
  standard : RendererTable.standard.select plan.config = .ok plan.renderer

theorem Plan.skips_of_planned {config : Config} {plan : Plan}
    (planned : Plan.ofConfig .standard config = .ok plan)
    (skips : config.walkOptions.skipStatus = true) : plan.Skips := by
  have standard := Plan.select_of_planned planned
  have ordered := Plan.order_of_planned planned
  obtain ⟨rfl, options, -, -⟩ := Plan.ofConfig_eq_ok planned
  have plain := skips
  simp only [Config.walkOptions, Bool.and_eq_true, Bool.not_eq_true', decide_eq_true_eq] at plain
  obtain ⟨⟨⟨⟨⟨short, noInode⟩, noBlocks⟩, unmarked⟩, unmarked'⟩, key⟩ := plain
  refine ⟨options ▸ skips, short, ?_, ?_, ?_, standard⟩
  · rw [Config.needsStatus, short, noInode, noBlocks]
    rfl
  · rw [Config.marksTypes, unmarked, unmarked']
    rfl
  · intro listing member
    rw [ordered, Config.listingOrder, key] at member
    split at member
    · cases member
    · cases member
      rfl

/-! ## Displaying names -/

/-- A short renderer sees the cells, the total line and the width of the columns. -/
theorem render_of_cells {config : Config} {renderer : Renderer}
    (standard : RendererTable.standard.select config = .ok renderer) (short : config.isLong = false)
    {descriptor descriptor' : Descriptor}
    (cells : Layout.cells config descriptor' = Layout.cells config descriptor)
    (total : Layout.totalLine config descriptor' = Layout.totalLine config descriptor)
    (width : Layout.columnWidth config descriptor' = Layout.columnWidth config descriptor) :
    renderer.render config descriptor' = renderer.render config descriptor := by
  have columns : ∀ arrange, Layout.columns arrange config descriptor' =
      Layout.columns arrange config descriptor := by
    intro arrange
    unfold Layout.columns Layout.singleColumn
    rw [width, cells, total]
  rcases select_cases standard with rfl | rfl | rfl | rfl | ⟨-, long⟩
  · exact congrArg Job.write (congrArg Layout.lines cells)
  · exact congrArg Job.write (columns _)
  · exact congrArg Job.write (columns _)
  · exact congrArg Job.write (congrArg (Layout.streamFrom config.width 0) cells)
  · cases short.symm.trans long

/-- What is decided on an entry where nothing of its status is shown. -/
def namedItem (config : Config) (directory entry : Entry) : Item :=
  ⟨entry, Descriptor.isSelected config (some directory) entry, none⟩

/-- The names that are shown of the entries of a directory. -/
def shownNames (config : Config) (names : List String) : List String :=
  names.filter fun name => !(name.toList.head? = some '.') || config.showHidden

namespace Plan.Skips

variable {plan : Plan} (plain : plan.Skips)
include plain

theorem judgeAll {directory : Entry} {entries : List Entry}
    (known : ∀ entry ∈ entries, entry.IsKnown) :
    Descriptor.judgeAll plan.config (some directory) entries =
      pure (.ok (entries.map (namedItem plan.config directory))) := by
  have judges : ∀ entry : Entry, entry.IsKnown →
      Descriptor.judge plan.config (some directory) entry =
        pure (.ok (namedItem plan.config directory entry)) := by
    intro entry known
    unfold Descriptor.judge namedItem
    rw [if_neg (not_or_intro known.1 known.2), plain.unmeasured, plain.short]
    cases Descriptor.isSelected plan.config (some directory) entry with
    | false => rfl
    | true => cases entry.status <;> rfl
  induction entries with
  | nil => rfl
  | cons entry rest ih =>
    obtain ⟨first, others⟩ := List.forall_mem_cons.mp known
    rw [Descriptor.judgeAll, judges entry first, ih others]
    rfl

omit plain in
theorem map_name_visibleItems (directory : Entry) (entries : List Entry) :
    (Descriptor.visibleItems (entries.map (namedItem plan.config directory))).map
        (fun item => item.entry.name) =
      shownNames plan.config (entries.map Entry.name) := by
  unfold Descriptor.visibleItems shownNames
  rw [List.filter_map, List.map_map, List.filter_map]
  rfl

theorem fields : plan.config.showInode = false ∧ plan.config.showBlocks = false := by
  have unmeasured := plain.unmeasured
  rw [Config.needsStatus, Bool.or_eq_false_iff, Bool.or_eq_false_iff] at unmeasured
  exact ⟨unmeasured.1.1, unmeasured.2⟩

theorem cell_eq (descriptor : Descriptor) (entry : Entry) :
    Layout.cell plan.config descriptor entry = shownName plan.config.maskNames entry.name := by
  have mark : Layout.typeMark plan.config entry = "" := by
    unfold Layout.typeMark
    rw [plain.unmarked]
    cases entry.status <;> rfl
  unfold Layout.cell Layout.inodeField Layout.blocksField
  rw [plain.fields.1, plain.fields.2, mark, if_neg Bool.false_ne_true, if_neg Bool.false_ne_true,
    String.empty_append, String.empty_append, String.append_empty]

/-- The lines of a directory depend on the names that are shown. -/
theorem render_of_names {directory : Entry} {entries entries' : List Entry}
    (names : entries'.map Entry.name = entries.map Entry.name) :
    plan.renderer.render plan.config (Descriptor.measure plan.config (some directory)
        (entries'.map (namedItem plan.config directory))) =
      plan.renderer.render plan.config (Descriptor.measure plan.config (some directory)
        (entries.map (namedItem plan.config directory))) := by
  have cells : ∀ entries : List Entry, Layout.cells plan.config
      (Descriptor.measure plan.config (some directory)
        (entries.map (namedItem plan.config directory))) =
      (shownNames plan.config (entries.map Entry.name)).map (shownName plan.config.maskNames) := by
    intro entries
    unfold Layout.cells Descriptor.visibleEntries
    rw [← map_name_visibleItems directory, List.map_map, List.map_map]
    exact List.map_congr_left fun item _ => plain.cell_eq _ _
  have total : ∀ descriptor, Layout.totalLine plan.config descriptor = "" := by
    intro descriptor
    rw [Layout.totalLine, plain.short, plain.fields.2, Bool.or_false, Bool.and_false,
      if_neg Bool.false_ne_true]
  have width : ∀ entries : List Entry, (Descriptor.measure plan.config (some directory)
      (entries.map (namedItem plan.config directory))).nameWidth =
      Descriptor.longest (shownNames plan.config (entries.map Entry.name)) :=
    fun entries => congrArg Descriptor.longest (map_name_visibleItems directory entries)
  refine render_of_cells plain.standard plain.short ?_ ?_ ?_
  · rw [cells, cells, names]
  · rw [total, total]
  · unfold Layout.columnWidth
    rw [width, width, names, plain.fields.1, plain.fields.2]
    rfl

/-- What is displayed of a directory depends on the names of its entries. -/
theorem display_of_names {ω : Type} {directory : Entry} {entries entries' : List Entry}
    (known : ∀ entry ∈ entries, entry.IsKnown) (known' : ∀ entry ∈ entries', entry.IsKnown)
    (names : entries'.map Entry.name = entries.map Entry.name) :
    Run.display plan (some directory) (some entries') =
      (Run.display plan (some directory) (some entries) : Stride ω Unit) := by
  have shown : ∀ entries : List Entry,
      (Descriptor.visibleItems (entries.map (namedItem plan.config directory))).isEmpty =
        (shownNames plan.config (entries.map Entry.name)).isEmpty := by
    intro entries
    rw [← map_name_visibleItems directory, List.isEmpty_map]
  rw [Run.display_eq, Run.display_eq, Option.getD_some, Option.getD_some, plain.judgeAll known,
    plain.judgeAll known']
  change Run.displayJudged plan (some directory) (.ok _) =
    Run.displayJudged plan (some directory) (.ok _)
  simp only [Run.displayJudged, shown, names, Run.writeBlock, Run.writeEntries,
    plain.render_of_names names]

end Plan.Skips

/-! ## Reading with and without statuses -/

theorem Entry.SparedIn.unnumbered {files : FileSystem} {paths : List String} {namesOnly : Bool}
    {parent spared entry : Entry} (spares : parent.SparedIn files paths namesOnly spared entry) :
    parent.SparedIn files paths namesOnly spared.unnumbered entry.unnumbered :=
  ⟨spares.spares.unnumbered, spares.level, spares.below⟩

theorem Entry.SparedIn.all {files : FileSystem} {paths : List String} {namesOnly : Bool}
    {parent : Entry} {spared entries : List Entry}
    (related : List.Forall₂ (parent.SparedIn files paths namesOnly) spared entries) :
    (∀ entry ∈ spared, entry.IsKnown) ∧ (∀ entry ∈ entries, entry.IsKnown) ∧
      entries.map Entry.name = spared.map Entry.name := by
  induction related with
  | nil => exact ⟨List.forall_mem_nil _, List.forall_mem_nil _, rfl⟩
  | cons first _ ih =>
    obtain ⟨known, known', names⟩ := ih
    refine ⟨List.forall_mem_cons.mpr ⟨first.spares.spared_known, known⟩,
      List.forall_mem_cons.mpr ⟨first.spares.known, known'⟩, ?_⟩
    rw [List.map_cons, List.map_cons, names, first.spares.name]

section Reading

variable {files : FileSystem} {paths : List String} {plan : Plan}
variable (static : files.IsStatic) (calm : files.IsCalm) (legible : files.IsLegible paths)
variable (plain : plan.Skips)
include static calm legible plain

/-- What is read of a directory with and without statuses. -/
theorem contents_cases {directory : Entry} (below : files.Below paths directory.accessPath)
    (grounded : directory.Grounded files) (namesOnly : Bool) :
    (∃ error, Recursion.contents files plan namesOnly directory = .error error ∧
      Recursion.contents files plan.asking false directory = .error error) ∨
    ∃ spared entries, Recursion.contents files plan namesOnly directory = .ok spared ∧
      Recursion.contents files plan.asking false directory = .ok entries ∧
      List.Forall₂ (directory.SparedIn files paths namesOnly) spared entries := by
  have deep : directory.level + 1 ≠ 0 := by
    have := grounded.level
    omega
  have unnumbered : ∀ {spared entries : List Entry},
      List.Forall₂ (directory.SparedIn files paths namesOnly) spared entries →
      List.Forall₂ (directory.SparedIn files paths namesOnly) (spared.map Entry.unnumbered)
        (entries.map Entry.unnumbered) := by
    intro spared entries related
    rw [List.forall₂_map_left_iff, List.forall₂_map_right_iff]
    exact related.imp fun _ _ spares => spares.unnumbered
  rcases exists_spared_readDirectory static calm legible plain.skips below plain.byName deep
    namesOnly 0 with ⟨error, settles, settles'⟩ | ⟨spared, entries, settles, settles', related⟩
  all_goals
    have read := @Recursion.contents_of_settles files plan _ _ _ _ settles
    have read' := @Recursion.contents_of_settles files plan.asking _ _ _ _ settles'
  · exact .inl ⟨error, read, read'⟩
  · exact .inr ⟨_, _, read, read', unnumbered related⟩

end Reading

/-! ## Visiting with and without statuses -/

theorem Stage.performAll_append {ω : Type} (plan : Plan) (stages later : List Stage) :
    performAll plan (stages ++ later) =
      (performAll plan stages >>= fun _ => performAll plan later : Stride ω Unit) := by
  induction stages with
  | nil => rfl
  | cons stage stages ih => rw [List.cons_append, performAll_cons, performAll_cons, ih, bind_assoc]

/-- Visits of related entries come to the same one after another if each comes to the same. -/
theorem Stage.performAll_flatMap {ω : Type} {plan plan' : Plan} {related : Entry → Entry → Prop}
    {visit visit' : Entry → List Stage} {entries entries' : List Entry}
    (all : List.Forall₂ related entries entries')
    (same : ∀ entry ∈ entries, ∀ entry' ∈ entries', related entry entry' →
      performAll plan' (visit' entry') = (performAll plan (visit entry) : Stride ω Unit)) :
    performAll plan' (entries'.flatMap visit') =
      (performAll plan (entries.flatMap visit) : Stride ω Unit) := by
  induction all with
  | nil => rfl
  | cons first _ ih =>
    rw [List.flatMap_cons, List.flatMap_cons, performAll_append, performAll_append,
      same _ List.mem_cons_self _ List.mem_cons_self first]
    exact bind_congr fun _ => ih fun entry member entry' member' =>
      same entry (List.mem_cons_of_mem _ member) entry' (List.mem_cons_of_mem _ member')

section Visiting

variable {files : FileSystem} {paths : List String} {plan : Plan}
variable (static : files.IsStatic) (calm : files.IsCalm) (legible : files.IsLegible paths)
variable (plain : plan.Skips)

theorem stagesOf_eq_nil {entry : Entry} (noDirectory : entry.kind ≠ .directory)
    (noCycle : entry.kind ≠ .cycle) : Recursion.stagesOf files plan entry = [] := by
  by_cases grounded : entry.Grounded files
  · rw [Recursion.stagesOf_eq plan grounded]
    split
    · contradiction
    · contradiction
    · rfl
  · exact dif_neg grounded

/-- An entry that is read without its status has no stages of its own. -/
theorem stagesOf_sketch (entry : Entry) : Recursion.stagesOf files plan entry.sketch = [] :=
  stagesOf_eq_nil (fun no => nomatch (no : Kind.unasked = .directory))
    fun no => nomatch (no : Kind.unasked = .cycle)

include static calm legible plain

/-- The visit of an entry comes to the same with all statuses. -/
theorem performAll_stagesOf_asking {ω : Type} {entry : Entry} (grounded : entry.Grounded files)
    (below : entry.kind = .directory → files.Below paths entry.accessPath) :
    Stage.performAll plan.asking (Recursion.stagesOf files plan.asking entry) =
      (Stage.performAll plan (Recursion.stagesOf files plan entry) : Stride ω Unit) := by
  induction rank : Walk.rank files entry using Nat.strong_induction_on generalizing entry with
  | _ level ih =>
    subst rank
    rw [Recursion.stagesOf_eq plan grounded, Recursion.stagesOf_eq plan.asking grounded]
    cases kind : entry.kind with
    | cycle => rfl
    | directory =>
      dsimp only
      have passes : Recursion.isPassedOver plan.asking.config entry =
        Recursion.isPassedOver plan.config entry := rfl
      rw [passes]
      split
      · rfl
      have names : Recursion.namesOnly plan.asking = false := Recursion.namesOnly_of_asked rfl
      rw [names]
      rcases contents_cases static calm legible plain (below kind) grounded
        (Recursion.namesOnly plan) with
        ⟨error, fails, fails'⟩ | ⟨spared, entries, reads, reads', related⟩
      · rw [fails, fails']
        rfl
      · rw [reads, reads']
        dsimp only
        obtain ⟨known, known', named⟩ := Entry.SparedIn.all related
        have displays : Run.display plan.asking (some entry) (some entries) =
            (Run.display plan (some entry) (some spared) : Stride ω Unit) :=
          plain.display_of_names known known' named
        rw [Stage.performAll_cons, Stage.performAll_cons, Stage.perform, Stage.perform, displays]
        refine bind_congr fun _ => ?_
        have same : plan.asking.config.recursive = plan.config.recursive := rfl
        rw [same]
        split
        next recursive =>
          refine Stage.performAll_flatMap related fun spared inside entry inside' spares => ?_
          -- A recursive listing never makes do with names, so only what is no directory is spared.
          have names := Recursion.namesOnly_of_recursive recursive
          obtain ⟨grounded', less⟩ := Recursion.contents_child grounded kind reads spared inside
          rcases spares.spares.same with rfl | ⟨rfl, plain'⟩
          · exact ih _ less grounded' spares.below rfl
          · obtain ⟨noDirectory, noCycle⟩ := plain' names
            rw [stagesOf_eq_nil noDirectory noCycle, stagesOf_sketch]
            rfl
        · rfl
    | _ => rfl

/-- The stages of a listing come to the same with all statuses. -/
theorem performAll_stages_asking {ω : Type} :
    Stage.performAll plan.asking (Recursion.stages files plan.asking paths) =
      (Stage.performAll plan (Recursion.stages files plan paths) : Stride ω Unit) := by
  have roots : Recursion.roots files plan.asking paths = Recursion.roots files plan paths := rfl
  have config : plan.asking.config = plan.config := rfl
  unfold Recursion.stages
  rw [roots, config, Stage.performAll_cons, Stage.performAll_cons]
  refine bind_congr fun _ => ?_
  split
  · rfl
  have itself : List.Forall₂ Eq (Recursion.roots files plan paths)
      (Recursion.roots files plan paths) :=
    List.forall₂_same.mpr fun _ _ => rfl
  refine Stage.performAll_flatMap itself fun root inside _ _ same => ?_
  cases same
  exact performAll_stagesOf_asking static calm legible plain (Recursion.roots_grounded root inside)
    fun _ => .root (Recursion.roots_path root inside)

end Visiting

/-! ## Listings with and without statuses -/

/-- Where every entry can be looked at, skipping the status makes no difference: a listing that may
skip it comes to the same as the listing that asks for every status. The text, the errors, the names
that were asked for and the exit status are the same, under every policy. -/
theorem run_listPlanned_asking {config : Config} {world : World} (kind : PolicyKind)
    (paths : List String) (static : world.files.IsStatic) (calm : world.files.IsCalm)
    (legible : world.files.IsLegible (pathsOrDefault paths)) (accepted : config.problems = [])
    (skips : config.walkOptions.skipStatus = true) :
    ∃ plan, Plan.ofConfig .standard config = .ok plan ∧ plan.options.skipStatus = true ∧
      (listPlanned plan.asking paths).run.run (Session.fresh world kind) =
        (listPlanned plan paths).run.run (Session.fresh world kind) := by
  obtain ⟨plan, planned⟩ := Plan.exists_of_accepted accepted
  have plain := Plan.skips_of_planned planned skips
  refine ⟨plan, planned, plain.skips, ?_⟩
  have links := linksAlike_refl static calm
  obtain ⟨kept, same⟩ := run_listPlanned_among plan plan.asking static calm static calm links
    plain.standard plain.standard rfl rfl
    (fun _ => performAll_stages_asking static calm legible plain)
    (rfl : (Session.fresh world kind).world.files = world.files)
  have still : ((listPlanned plan paths).run.run (Session.fresh world kind)).2.among world.files =
      ((listPlanned plan paths).run.run (Session.fresh world kind)).2 := by
    rw [← kept, Session.among_self]
  rwa [still] at same

/-! ## A sample -/

/-- A directory with a directory, a file, a link that leads nowhere and one that leads to itself. -/
def linksAstray : World :=
  { (default : World) with
    files := .ofTree (.node "" (Client.sampleSketch .directory 0o040755) [
      .node "d" (Client.sampleSketch .directory 0o040755) [
        .node "n" (Client.sampleSketch (.symlink "nowhere") 0o120777) [],
        .node "l" (Client.sampleSketch (.symlink "l") 0o120777) [],
        .node "e" (Client.sampleSketch .directory 0o040755) [
          .node "x" (Client.sampleSketch .leaf 0o100644) []],
        .node "f" (Client.sampleSketch .leaf 0o100644) []]]) }

theorem faults_linksAstray : ∀ node ∈ linksAstray.files.nodes, node.faults = {} := by
  decide +kernel

theorem isLegible_linksAstray : linksAstray.files.IsLegible ["d"] :=
  isLegible_of_checks (by decide +kernel :
    linksAstray.files.checksLegible ["d", "d/n", "d/l", "d/e", "d/f", "d/e/x"] = true)
    (by decide)

theorem run_linksAstray :
    let config : Config := { recursive := true, symlinkMode := .known .logical }
    ∃ plan outcome, Plan.ofConfig .standard config = .ok plan ∧
      listPaths .standard linksAstray .collect ["d"] config = .ok outcome ∧
      (outcome.status.toOption, outcome.session.output, outcome.session.policy.errors) =
        (some 0, "e\nf\nl\nn\n\nd/e:\nx\n", []) :=
  exists_of_observed (by decide +kernel)

/-- Links that are followed and lead nowhere are listed alike with and without statuses. -/
theorem run_listPlanned_asking_sample :
    let config : Config := { recursive := true, symlinkMode := .known .logical }
    ∃ plan, Plan.ofConfig .standard config = .ok plan ∧ plan.options.skipStatus = true ∧
      ((listPlanned plan.asking ["d"]).run.run (Session.fresh linksAstray .collect)).2.output =
        "e\nf\nl\nn\n\nd/e:\nx\n" := by
  intro config
  obtain ⟨plan, outcome, planned, given, ran⟩ := run_linksAstray
  obtain ⟨plan', planned', skips, same⟩ := run_listPlanned_asking .collect ["d"]
    (isStatic_of_faults faults_linksAstray) (isCalm_of_faults faults_linksAstray)
    isLegible_linksAstray (by decide : config.problems = []) rfl
  cases planned.symm.trans planned'
  refine ⟨plan, planned, skips, ?_⟩
  cases (listPaths_of_planned _ _ _ planned).symm.trans given
  rw [same]
  exact (Prod.mk.inj (Prod.mk.inj ran).2).1

end DirList
