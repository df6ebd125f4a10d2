import DirList.Proofs.Listing.Writing

/-!
# What is shown

The entries of a directory are judged, measured and written. What comes of it depends on the entries
that are shown, and not on their numbers.

Results:
1. `does_collect`: selecting and measuring entries reports those without a status.
2. `render_of_alike`: a renderer sees the shown entries without their numbers.
3. `exists_does_render`: it writes a text and reports nothing, up to a date that cannot be told.
-/

namespace DirList

open FileSystem

/-- What holds of a plan that was made for a configuration without problems. -/
structure Plan.Works (plan : Plan) : Prop where
  blockSize : plan.config.blockSize ≠ 0
  options : plan.options = plan.config.walkOptions
  renderer : RendererTable.standard.select plan.config = .ok plan.renderer
  field : ∃ field, plan.config.timeField = .known field

/-! ## Judging -/

section Judging

variable {world : World} {config : Config} (sized : config.blockSize ≠ 0) (parent : Option Entry)

/-- An entry as it is judged. -/
def judged (world : World) (config : Config) (parent : Option Entry) (entry : Entry) : Item :=
  if Recursion.isShown config parent entry then Recursion.item world config entry
  else ⟨entry, false, none⟩

theorem Recursion.losses_cons (entry : Entry) (rest : List Entry) :
    losses (entry :: rest) = losses [entry] ++ losses rest := by
  unfold losses
  rw [← List.map_append, ← List.filter_append, List.singleton_append]

theorem does_annotate (entry : Entry) (status : Status) :
    Does world (Descriptor.annotate config entry status)
      (.ok (.ok (Recursion.names world config status))) "" [] := by
  refine (does_ownerName config.numericOnly status.owner).quiet_bind ?_
  exact (does_groupName config.numericOnly status.group).quiet_bind (.pure _)

include sized

theorem does_judge (entry : Entry) :
    Does world (Descriptor.judge config parent entry)
      (.ok (.ok (judged world config parent entry))) "" (Recursion.losses [entry]) := by
  unfold Descriptor.judge judged Recursion.losses
  by_cases lost : entry.kind = .error ∨ entry.kind = .noStatus
  · have isLost : Recursion.isLost entry = true := by simpa [Recursion.isLost] using lost
    rw [if_pos lost, Recursion.isShown, isLost, List.filter_cons_of_pos isLost]
    exact (does_report _).bind_quiet (.pure _)
  have isKept : Recursion.isLost entry = false := by simpa [Recursion.isLost] using lost
  rw [if_neg lost, Recursion.isShown, isKept, List.filter_cons_of_neg (by simp [isKept])]
  cases selected : Descriptor.isSelected config parent entry with
  | false => exact .pure _
  | true =>
    simp only [Bool.not_true, Bool.not_false, Bool.and_true, Bool.false_eq_true, if_false, if_true]
    unfold Recursion.item
    cases known : entry.status with
    | none =>
      rw [Option.map_none, ite_self]
      exact .pure _
    | some status =>
      dsimp only
      rw [if_neg (by simp [sized])]
      cases config.isLong with
      | false => exact .pure _
      | true =>
        exact (does_annotate entry status).quiet_bind ((does_changeHeld _).quiet_bind (.pure _))

theorem does_judgeAll (entries : List Entry) :
    Does world (Descriptor.judgeAll config parent entries)
      (.ok (.ok (entries.map (judged world config parent)))) "" (Recursion.losses entries) := by
  induction entries with
  | nil => exact .pure _
  | cons entry rest ih =>
    rw [Recursion.losses_cons]
    refine (does_judge sized parent entry).silent_bind ?_
    exact ih.bind_quiet (.pure _)

omit sized in
theorem visibleItems_judged (entries : List Entry) :
    Descriptor.visibleItems (entries.map (judged world config parent)) =
      (entries.filter (Recursion.isShown config parent)).map (Recursion.item world config) := by
  have visible : ∀ entry, (judged world config parent entry).visible =
      Recursion.isShown config parent entry := by
    intro entry
    unfold judged
    cases Recursion.isShown config parent entry <;> rfl
  have shown : ∀ entry, Recursion.isShown config parent entry = true →
      judged world config parent entry = Recursion.item world config entry :=
    fun _ isShown => if_pos isShown
  unfold Descriptor.visibleItems
  rw [List.filter_map]
  refine (List.map_congr_left fun entry member => ?_).trans
    (congrArg (List.map _) (List.filter_congr fun entry _ => visible entry))
  exact shown entry ((visible entry).symm.trans (List.mem_filter.mp member).2)

omit sized in
/-- The entries that are shown of those that were measured. -/
theorem visibleEntries_measure (entries : List Entry) :
    (Descriptor.measure config parent (entries.map (judged world config parent))).visibleEntries =
      entries.filter (Recursion.isShown config parent) := by
  rw [Descriptor.visibleEntries, Descriptor.measure, visibleItems_judged, List.map_map]
  exact List.map_id _

/-- Selecting and measuring entries reports those without a status, and fails nowhere. -/
theorem does_collect (entries : Option (List Entry)) :
    Does world (Descriptor.collect config parent entries)
      (.ok (.ok (if ((entries.getD []).filter (Recursion.isShown config parent)).isEmpty then none
        else some (Descriptor.measure config parent
          ((entries.getD []).map (judged world config parent))))))
      "" (Recursion.losses (entries.getD [])) := by
  refine (does_judgeAll sized parent (entries.getD [])).bind_quiet ?_
  dsimp only
  rw [visibleItems_judged, List.isEmpty_map]
  split
  · exact .pure _
  · rw [if_neg (by simp [sized])]
    exact .pure _

end Judging

/-! ## Rendering without numbers -/

def Item.unnumbered (item : Item) : Item :=
  { item with entry := item.entry.unnumbered }

/-- Two descriptors with the same measures, and with the same shown entries but for the numbers. -/
structure Descriptor.Alike (descriptor descriptor' : Descriptor) : Prop where
  measures : { descriptor' with parent := descriptor.parent, items := descriptor.items } =
    descriptor
  root : descriptor'.isRootList = descriptor.isRootList
  items : visibleItems descriptor'.items = (visibleItems descriptor.items).map Item.unnumbered

/-- The measures depend on the shown entries only. -/
theorem Descriptor.alike_measure (config : Config) {parent parent' : Option Entry}
    {items items' : List Item} (root : parent'.isNone = parent.isNone)
    (same : visibleItems items' = (visibleItems items).map Item.unnumbered) :
    Alike (measure config parent items) (measure config parent' items') := by
  refine ⟨?_, root, same⟩
  have statuses : visibleStatuses items' = visibleStatuses items := by
    rw [visibleStatuses, visibleStatuses, same, List.filterMap_map]
    rfl
  unfold measure
  simp only [same, statuses, List.filterMap_map, List.map_map, List.length_map]
  rfl

section Alike

variable {config : Config} {descriptor descriptor' : Descriptor}

theorem Descriptor.Alike.totalLine (alike : descriptor.Alike descriptor') :
    Layout.totalLine config descriptor' = Layout.totalLine config descriptor := by
  have total := congrArg Descriptor.total alike.measures
  dsimp only at total
  rw [Layout.totalLine, Layout.totalLine, alike.root, total]

theorem Descriptor.Alike.cells (alike : descriptor.Alike descriptor') :
    Layout.cells config descriptor' = Layout.cells config descriptor := by
  have each : ∀ item : Item, Layout.cell config descriptor' item.unnumbered.entry =
      Layout.cell config descriptor item.entry := by
    intro item
    rw [← alike.measures]
    rfl
  unfold Layout.cells Descriptor.visibleEntries
  rw [alike.items, List.map_map, List.map_map, List.map_map]
  exact List.map_congr_left fun item _ => each item

theorem Descriptor.Alike.columns (alike : descriptor.Alike descriptor')
    (arrange : List String → Nat → List (List String)) :
    Layout.columns arrange config descriptor' = Layout.columns arrange config descriptor := by
  have width : Layout.columnWidth config descriptor' = Layout.columnWidth config descriptor := by
    rw [← alike.measures]
    rfl
  unfold Layout.columns Layout.singleColumn
  rw [width, alike.cells, alike.totalLine]

theorem Descriptor.Alike.long (alike : descriptor.Alike descriptor') :
    Layout.long config descriptor' = Layout.long config descriptor := by
  have each : ∀ item : Item, Layout.writeLong config descriptor' item.unnumbered =
      Layout.writeLong config descriptor item := by
    intro item
    rw [← alike.measures]
    rfl
  unfold Layout.long
  rw [alike.totalLine, alike.items]
  simp only [List.forM_eq_forM, List.forM_map, each]

/-- The renderer of a configuration is one of five, and long lines are for the long mode. -/
theorem select_cases {renderer : Renderer}
    (standard : RendererTable.standard.select config = .ok renderer) :
    renderer = .singleColumn ∨ renderer = .columns ∨ renderer = .across ∨ renderer = .stream ∨
      renderer = .long ∧ config.isLong = true := by
  unfold RendererTable.select at standard
  cases mode : config.displayMode with
  | unknown text =>
    rw [mode] at standard
    cases standard
  | known mode' =>
    rw [mode] at standard
    cases mode' with
    | singleColumn =>
      cases standard
      exact .inl rfl
    | columns =>
      cases standard
      exact .inr (.inl rfl)
    | across =>
      cases standard
      exact .inr (.inr (.inl rfl))
    | stream =>
      cases standard
      exact .inr (.inr (.inr (.inl rfl)))
    | long =>
      cases standard
      exact .inr (.inr (.inr (.inr ⟨rfl, by simp [Config.isLong, mode]⟩)))

/-- A renderer that writes one text sees the shown entries without their numbers. -/
theorem render_cases {renderer : Renderer}
    (standard : RendererTable.standard.select config = .ok renderer) :
    (∃ text, renderer = .ofText renderer.label text ∧
      ∀ {descriptor descriptor' : Descriptor}, descriptor.Alike descriptor' →
        text config descriptor' = text config descriptor) ∨
      renderer = .long ∧ config.isLong = true := by
  rcases select_cases standard with rfl | rfl | rfl | rfl | ⟨rfl, long⟩
  · exact .inl ⟨_, rfl, fun alike => congrArg Layout.lines alike.cells⟩
  · exact .inl ⟨_, rfl, fun alike => alike.columns _⟩
  · exact .inl ⟨_, rfl, fun alike => alike.columns _⟩
  · exact .inl ⟨_, rfl, fun alike => congrArg (Layout.streamFrom config.width 0) alike.cells⟩
  · exact .inr ⟨rfl, long⟩

/-- A renderer sees the shown entries without their numbers. -/
theorem render_of_alike {renderer : Renderer}
    (standard : RendererTable.standard.select config = .ok renderer)
    (alike : descriptor.Alike descriptor') :
    renderer.render config descriptor' = renderer.render config descriptor := by
  rcases render_cases standard with ⟨text, same, blind⟩ | ⟨rfl, -⟩
  · rw [same]
    exact congrArg Job.write (blind alike)
  · exact alike.long

end Alike

/-! ## Rendering -/

section Rendering

variable {world : World} {plan : Plan}

theorem exists_does_linkTarget (steady : world.IsSteady) (entry : Entry) :
    ∃ target, Does world (Layout.linkTarget entry) (.ok target) "" [] := by
  obtain ⟨answer, settles, -⟩ := settles_of_calm steady.static
    (yields_attempt (yields_readLink entry.accessPath))
    (spares_attempt (spares_readLink steady.calm entry.accessPath))
  cases answer with
  | ok target => exact ⟨some target, (does_access settles).quiet_bind (.pure _)⟩
  | error _ => exact ⟨none, (does_access settles).quiet_bind (.pure _)⟩

theorem exists_does_writeLong (steady : world.IsSteady) {field : TimeField}
    (chosen : plan.config.timeField = .known field) (descriptor : Descriptor) {item : Item}
    (described : item.entry.status.isSome = true) :
    ∃ text, Does world (Layout.writeLong plan.config descriptor item)
      (Recursion.cutShort (Recursion.dateFault field item.entry)) text [] := by
  obtain ⟨status, known⟩ := Option.isSome_iff_exists.mp described
  unfold Layout.writeLong Recursion.dateFault
  rw [known, chosen, Option.bind_some]
  dsimp only
  cases (status.time field).measured.fault? with
  | some fault => exact ⟨"", .throw _⟩
  | none =>
    dsimp only
    split
    · obtain ⟨target, found⟩ := exists_does_linkTarget steady item.entry
      exact ⟨_, found.quiet_bind (does_now.quiet_bind (does_write _))⟩
    · exact ⟨_, Does.quiet_bind (.pure none) (does_now.quiet_bind (does_write _))⟩

/-- The lines of entries are written up to the first whose date cannot be told. -/
theorem exists_does_lines (steady : world.IsSteady) {field : TimeField}
    (chosen : plan.config.timeField = .known field) (descriptor : Descriptor) {items : List Item}
    (described : ∀ item ∈ items, item.entry.status.isSome = true) :
    ∃ text, Does world (items.forM (Layout.writeLong plan.config descriptor))
      (Recursion.cutShort ((items.map Item.entry).findSome? (Recursion.dateFault field))) text
      [] := by
  induction items with
  | nil => exact ⟨"", .pure ()⟩
  | cons item items ih =>
    obtain ⟨first, others⟩ := List.forall_mem_cons.mp described
    obtain ⟨line, writes⟩ := exists_does_writeLong steady chosen descriptor first
    rw [List.map_cons, List.findSome?_cons]
    cases fault : Recursion.dateFault field item.entry with
    | some fault =>
      rw [fault] at writes
      exact ⟨line, writes.stop⟩
    | none =>
      rw [fault] at writes
      obtain ⟨text, rest⟩ := ih others
      exact ⟨line ++ text, writes.bind rest⟩

/-- Long lines are those of the long mode. -/
theorem eq_long_of_isLong {config : Config} {renderer : Renderer}
    (standard : RendererTable.standard.select config = .ok renderer)
    (long : config.isLong = true) : renderer = .long := by
  have mode : config.displayMode = .known .long := by simpa [Config.isLong] using long
  unfold RendererTable.select at standard
  rw [mode] at standard
  cases standard
  rfl

/-- A renderer writes a text and reports nothing. It comes to its end unless it meets a date that
cannot be told. -/
theorem exists_does_render (steady : world.IsSteady) (works : plan.Works)
    (descriptor : Descriptor) (described : plan.config.isLong = true →
      ∀ item ∈ Descriptor.visibleItems descriptor.items, item.entry.status.isSome = true) :
    ∃ text, Does world (plan.renderer.render plan.config descriptor)
      (Recursion.cutShort (Recursion.undatable plan.config descriptor.visibleEntries)) text
      [] := by
  obtain ⟨field, chosen⟩ := works.field
  unfold Recursion.undatable
  rw [chosen]
  dsimp only
  cases long : plan.config.isLong with
  | true =>
    rw [eq_long_of_isLong works.renderer long]
    obtain ⟨text, lines⟩ := exists_does_lines steady chosen descriptor (described long)
    exact ⟨_, (does_write _).bind lines⟩
  | false =>
    obtain ⟨text, same, -⟩ | ⟨-, long'⟩ := render_cases works.renderer
    · rw [same]
      exact ⟨_, does_write _⟩
    · cases long.symm.trans long'

/-- What a job writes in any session it writes in a new one. -/
theorem written_of_does (steady : world.IsSteady) {job : Job Unit} {result : Except Abort Unit}
    {text : String} {errors : List ListingError} (does : Does world job result text errors) :
    Recursion.written world job = text := by
  obtain ⟨session, ran, comes⟩ :=
    does (Session.fresh world .collect) (steady.sees nofun)
  have output := comes.output
  rw [Recursion.written, ran]
  exact output.trans String.empty_append

/-- The entries that are shown are written as the lines of a block. -/
theorem does_render (steady : world.IsSteady) (works : plan.Works) (parent : Option Entry)
    {entries : List Entry} (described : plan.config.isLong = true →
      ∀ entry ∈ entries, entry.Described) :
    Does world (plan.renderer.render plan.config (Descriptor.measure plan.config parent
        (entries.map (judged world plan.config parent))))
      (Recursion.cutShort (Recursion.undatable plan.config
        (entries.filter (Recursion.isShown plan.config parent))))
      (Recursion.blockText world plan parent
        (entries.filter (Recursion.isShown plan.config parent))) [] := by
  obtain ⟨text, does⟩ := exists_does_render steady works (Descriptor.measure plan.config parent
    (entries.map (judged world plan.config parent))) (by
      intro long item member
      rw [Descriptor.measure, visibleItems_judged] at member
      obtain ⟨entry, inside, rfl⟩ := List.mem_map.mp member
      obtain ⟨inside, shown⟩ := List.mem_filter.mp inside
      refine (described long entry inside).resolve_left fun lost => ?_
      simp [Recursion.isShown, Recursion.isLost, lost] at shown)
  rw [visibleEntries_measure] at does
  generalize same : (entries.filter (Recursion.isShown plan.config parent)).map
    (Recursion.item world plan.config) = shown
  have visible : ∀ items : List Item, (∀ item ∈ items, item.visible = true) →
      Descriptor.visibleItems items = items :=
    fun _ => List.filter_eq_self.mpr
  have all : ∀ item ∈ shown, item.visible = true := by
    intro item member
    rw [← same] at member
    obtain ⟨entry, -, rfl⟩ := List.mem_map.mp member
    rfl
  -- Both descriptors show the same entries, and so they are alike to the one without numbers.
  have unnumbered : Descriptor.visibleItems (shown.map Item.unnumbered) =
      shown.map Item.unnumbered :=
    visible _ (List.forall_mem_map.mpr all)
  have alike : Descriptor.Alike (Descriptor.measure plan.config parent
      (entries.map (judged world plan.config parent)))
      (Descriptor.measure plan.config parent (shown.map Item.unnumbered)) := by
    refine Descriptor.alike_measure plan.config rfl (unnumbered.trans ?_)
    rw [visibleItems_judged, same]
  have alike' : Descriptor.Alike (Descriptor.measure plan.config parent shown)
      (Descriptor.measure plan.config parent (shown.map Item.unnumbered)) := by
    refine Descriptor.alike_measure plan.config rfl (unnumbered.trans ?_)
    rw [visible shown all]
  have written := written_of_does steady does
  rw [← render_of_alike works.renderer alike, render_of_alike works.renderer alike'] at written
  rw [Recursion.blockText, same, written]
  exact does

end Rendering
end DirList
