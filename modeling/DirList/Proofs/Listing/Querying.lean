import DirList.Proofs.Listing.Completing
import DirList.Proofs.Listing.Measuring

/-!
# What listings ask for

Where there is memory for all names, a listing asks the databases for the names of the entries that
it shows in long lines, and for no others. As the answers are kept, a database is asked once for
each number, when it is met for the first time in all the lists of entries that are displayed; but
what stands in a line is what the database would answer again.

Results:
1. `NameTable.Told.query`: a query asks the database for a number that is new.
2. `queries_collect`: selecting and measuring entries asks for the names of those to be shown.
3. `logs_list`: a listing asks for the names of what its calls show.
4. `listing_asks`: so the databases are asked once for each number, and all names are theirs.
-/

namespace DirList

open FileSystem Walk

/-! ## Queries -/

namespace NameTable

/-- `base.Told table ids`: after it was queried for numbers, the table has asked the database of
`base` for each of them once, in the order in which they came first, and has kept what it was
told. -/
structure Told (base table : NameTable) (ids : List Int) : Prop where
  asked : table.asked = base.asked ++ ids.eraseDups
  kept : ∀ id, (table.kept.lookup id).isSome = true ↔ id ∈ ids

theorem told_forget (table : NameTable) : table.Told table.forget [] :=
  ⟨(List.append_nil _).symm, fun _ => ⟨nofun, nofun⟩⟩

theorem eraseDups_append_singleton (ids : List Int) (id : Int) :
    (ids ++ [id]).eraseDups = ids.eraseDups ++ if id ∈ ids then [] else [id] := by
  rw [List.eraseDups_append, List.cons_removeAll, List.removeAll, List.filter_nil]
  by_cases known : id ∈ ids
  · rw [if_pos known, if_neg (by simpa using known)]
    rfl
  · rw [if_neg known, if_pos (by simpa using known)]
    rfl

/-- A query asks the database for a number that is new, and for no other. -/
theorem Told.query {base table : NameTable} {ids : List Int} (told : base.Told table ids)
    {id : Int} (memory : table.exhausts false id = false) :
    base.Told (table.resolve false id).2 (ids ++ [id]) := by
  have met := told.kept id
  unfold NameTable.resolve
  rw [if_neg Bool.false_ne_true]
  cases known : table.kept.lookup id with
  | some name =>
    rw [known] at met
    have old : id ∈ ids := met.mp rfl
    refine ⟨?_, fun other => (told.kept other).trans ⟨List.mem_append_left _, fun member => ?_⟩⟩
    · rw [eraseDups_append_singleton, if_pos old, List.append_nil]
      exact told.asked
    · rcases List.mem_append.mp member with earlier | same
      · exact earlier
      · exact List.mem_singleton.mp same ▸ old
  | none =>
    rw [known] at met
    have new : id ∉ ids := fun old => Bool.false_ne_true (met.mpr old)
    unfold NameTable.exhausts at memory
    rw [known] at memory
    have answered : table.runsOut id = false := memory
    dsimp only
    rw [answered, if_neg Bool.false_ne_true]
    refine ⟨?_, fun other => ?_⟩
    · rw [eraseDups_append_singleton, if_neg new, ← List.append_assoc, ← told.asked]
      rfl
    · rw [List.lookup_cons, List.mem_append, List.mem_singleton]
      cases same : other == id with
      | true => exact ⟨fun _ => .inr (beq_iff_eq.mp same), fun _ => rfl⟩
      | false =>
        refine (told.kept other).trans ⟨.inl, fun either => either.resolve_right fun equal => ?_⟩
        exact beq_eq_false_iff_ne.mp same equal

/-- Where numbers are shown as they are, nothing is asked. -/
theorem Told.resolve {base table : NameTable} {ids : List Int} (told : base.Told table ids)
    {numericOnly : Bool} {id : Int} (memory : table.exhausts numericOnly id = false) :
    base.Told (table.resolve numericOnly id).2 (ids ++ if numericOnly then [] else [id]) := by
  cases numericOnly with
  | true => exact (List.append_nil ids).symm ▸ told
  | false => exact told.query memory

end NameTable

/-! ## Sessions with queries -/

/-- `world.Queried statuses session`: the session serves the world, and has asked for the names of
the owners and groups of the statuses. -/
structure World.Queried (world : World) (statuses : List Status) (session : Session) : Prop where
  serves : world.Serves session
  owners : world.owners.Told session.world.owners (statuses.map Status.owner)
  groups : world.groups.Told session.world.groups (statuses.map Status.group)

theorem World.HasMemory.queried_fresh {world : World} (memory : world.HasMemory)
    {kind : PolicyKind} (lenient : kind ≠ .failFast) :
    world.Queried [] (Session.fresh world kind) :=
  ⟨memory.serves_fresh lenient, NameTable.told_forget _, NameTable.told_forget _⟩

section Querying

variable {α β : Type} {world : World} {config : Config}

/-- `Queries world job statuses`: whatever was asked before, the job asks for the names of the
statuses. -/
def Queries (world : World) (job : Job α) (statuses : List Status) : Prop :=
  ∀ past session, world.Queried past session →
    world.Queried (past ++ statuses) (job.run.run session).2

theorem Queries.pure (answer : α) : Queries world (Pure.pure answer : Job α) [] := by
  intro past session queried
  rw [List.append_nil]
  exact queried

/-- What jobs ask for one after another, where the answer of the first one is known. -/
theorem Queries.bind {job : Job α} {next : α → Job β} {answer : α} {errors : List ListingError}
    {statuses statuses' : List Status} {spared : Prop} (first : Queries world job statuses)
    (finds : Finds world spared job answer errors)
    (second : Queries world (next answer) statuses') :
    Queries world (job >>= next) (statuses ++ statuses') := by
  intro past session queried
  obtain ⟨session', settles, -⟩ := finds session queried.serves
  have queried' := first past session queried
  rw [settles] at queried'
  rw [run_bind, settles, ← List.append_assoc]
  exact second _ session' queried'

/-- A job that asks for nothing after another one. -/
theorem Queries.bind_quiet {job : Job α} {next : α → Job β} {answer : α}
    {errors : List ListingError} {statuses : List Status} {spared : Prop}
    (first : Queries world job statuses) (finds : Finds world spared job answer errors)
    (second : Queries world (next answer) []) :
    Queries world (job >>= next) statuses := by
  have both := first.bind finds second
  rwa [List.append_nil] at both

theorem queries_report (error : ListingError) : Queries world (Job.report error) [] := by
  intro past session queried
  rw [Job.run_report, List.append_nil]
  exact ⟨queried.serves.reports error, queried.owners, queried.groups⟩

/-- Holding names asks for nothing. -/
theorem queries_hold (names : Annotation) (answer : α) :
    Queries world (Job.hold names >>= fun _ => Pure.pure answer) [] := by
  intro past session queried
  rw [List.append_nil]
  exact ⟨queried.serves.draws session.world.files session.output (session.held ++ [names]),
    queried.owners, queried.groups⟩

/-- The statuses among some whose names are asked for. -/
def Config.inquiries (config : Config) (statuses : List Status) : List Status :=
  if config.isLong && !config.numericOnly then statuses else []

theorem Config.inquiries_append (config : Config) (statuses statuses' : List Status) :
    config.inquiries (statuses ++ statuses') =
      config.inquiries statuses ++ config.inquiries statuses' := by
  unfold inquiries
  split <;> rfl

theorem Config.inquiries_nil (config : Config) : config.inquiries [] = [] :=
  ite_self _

theorem Config.flatMap_inquiries (config : Config) (calls : List α) (statuses : α → List Status) :
    (calls.flatMap fun call => config.inquiries (statuses call)) =
      config.inquiries (calls.flatMap statuses) := by
  unfold inquiries
  split
  · rfl
  · exact List.flatMap_eq_nil_iff.mpr fun _ _ => rfl

theorem shownStatuses_singleton (parent : Option Entry) (entry : Entry) :
    Descriptor.shownStatuses config parent [entry] =
      if Recursion.isShown config parent entry then entry.status.toList else [] := by
  unfold Descriptor.shownStatuses
  cases shown : Recursion.isShown config parent entry with
  | true =>
    rw [List.filter_cons_of_pos shown]
    cases known : entry.status <;> simp [known]
  | false =>
    rw [List.filter_cons_of_neg (by simp [shown])]
    rfl

theorem shownStatuses_cons (parent : Option Entry) (entry : Entry) (rest : List Entry) :
    Descriptor.shownStatuses config parent (entry :: rest) =
      Descriptor.shownStatuses config parent [entry] ++
        Descriptor.shownStatuses config parent rest := by
  unfold Descriptor.shownStatuses
  rw [← List.filterMap_append, ← List.filter_append, List.singleton_append]

variable (memory : world.HasMemory)

include memory

/-- Finding out the names in a long line asks for them, unless they are to be numbers. -/
theorem queries_annotate (long : config.isLong = true) (entry : Entry) (status : Status) :
    Queries world (Descriptor.annotate config entry status) (config.inquiries [status]) := by
  intro past session queried
  obtain ⟨owner, owners⟩ := queried.serves.owners.resolve config.numericOnly status.owner
  obtain ⟨group, groups⟩ := queried.serves.groups.resolve config.numericOnly status.group
  have spared := memory.exhausts config.numericOnly
  rw [(spared _).1, if_neg Bool.false_ne_true] at owner
  rw [(spared _).2, if_neg Bool.false_ne_true] at group
  have ran : ((Descriptor.annotate config entry status).run.run session).2 =
      { session with world := { session.world with
        owners := (session.world.owners.resolve config.numericOnly status.owner).2
        groups := (session.world.groups.resolve config.numericOnly status.group).2 } } := by
    have asksOwner : (Job.ownerName config.numericOnly status.owner).run.run session =
        (.ok (session.world.owners.resolve config.numericOnly status.owner).1, _) := rfl
    unfold Descriptor.annotate
    rw [run_bind, asksOwner, owner]
    dsimp only
    have asksGroup : ∀ session : Session,
        (Job.groupName config.numericOnly status.group).run.run session =
          (.ok (session.world.groups.resolve config.numericOnly status.group).1, _) :=
      fun _ => rfl
    rw [run_bind, asksGroup]
    dsimp only
    rw [group]
    rfl
  have added : config.inquiries [status] = if config.numericOnly then [] else [status] := by
    unfold Config.inquiries
    rw [long]
    cases config.numericOnly <;> rfl
  rw [ran, added]
  refine ⟨⟨owners (.inl (spared _).1), groups (.inl (spared _).2), queried.serves.lenient⟩, ?_, ?_⟩
  · rw [List.map_append, apply_ite (List.map Status.owner)]
    exact queried.owners.resolve ((queried.serves.owners.exhausts _ _).trans (spared _).1)
  · rw [List.map_append, apply_ite (List.map Status.group)]
    exact queried.groups.resolve ((queried.serves.groups.exhausts _ _).trans (spared _).2)

variable (sized : config.blockSize ≠ 0) (parent : Option Entry)

include sized

/-- Judging an entry asks for its names if it is to be shown. -/
theorem queries_judge (entry : Entry) :
    Queries world (Descriptor.judge config parent entry)
      (config.inquiries (Descriptor.shownStatuses config parent [entry])) := by
  rw [shownStatuses_singleton]
  unfold Descriptor.judge Recursion.isShown
  by_cases lost : entry.kind = .error ∨ entry.kind = .noStatus
  · have isLost : Recursion.isLost entry = true := by simpa [Recursion.isLost] using lost
    rw [if_pos lost, isLost, Bool.not_true, Bool.false_and, if_neg Bool.false_ne_true,
      Config.inquiries_nil]
    have reports : Finds world True (Job.report _) _ _ :=
      finds_report (.ofCode .node entry.name entry.errorCode)
    exact (queries_report _).bind_quiet reports (.pure _)
  have isKept : Recursion.isLost entry = false := by simpa [Recursion.isLost] using lost
  rw [if_neg lost, isKept, Bool.not_false, Bool.true_and]
  cases selected : Descriptor.isSelected config parent entry with
  | false =>
    rw [if_neg Bool.false_ne_true, Config.inquiries_nil]
    exact .pure _
  | true =>
    rw [if_pos rfl, Bool.not_true, if_neg Bool.false_ne_true]
    cases known : entry.status with
    | none =>
      rw [Option.toList_none, Config.inquiries_nil]
      exact .pure _
    | some status =>
      dsimp only
      rw [if_neg (by simp [sized]), Option.toList_some]
      cases long : config.isLong with
      | false =>
        unfold Config.inquiries
        rw [long]
        exact .pure _
      | true =>
        refine (queries_annotate memory long entry status).bind_quiet
          (finds_annotate entry status) ?_
        rw [(memory.exhausts _ _).1, (memory.exhausts _ _).2]
        exact queries_hold _ _

/-- Judging entries asks for the names of those to be shown. -/
theorem queries_judgeAll (entries : List Entry) :
    Queries world (Descriptor.judgeAll config parent entries)
      (config.inquiries (Descriptor.shownStatuses config parent entries)) := by
  induction entries with
  | nil => exact config.inquiries_nil ▸ .pure _
  | cons entry rest ih =>
    rw [shownStatuses_cons, Config.inquiries_append]
    refine (queries_judge memory sized parent entry).bind (finds_judge sized parent entry) ?_
    rw [memory.lacks, if_neg Bool.false_ne_true]
    refine ih.bind_quiet (finds_judgeAll sized parent rest) ?_
    rw [memory.lacking?]
    exact .pure _

/-- Selecting and measuring entries asks for the names of those to be shown. -/
theorem queries_collect (entries : Option (List Entry)) :
    Queries world (Descriptor.collect config parent entries)
      (config.inquiries (Descriptor.shownStatuses config parent (entries.getD []))) := by
  refine (queries_judgeAll memory sized parent (entries.getD [])).bind_quiet
    (finds_judgeAll sized parent _) ?_
  rw [memory.lacking?, Option.elim_none]
  dsimp only
  split
  · exact .pure _
  · rw [if_neg (by simp [sized])]
    exact .pure _

end Querying

/-! ## Lines with names -/

namespace Run

variable {ω : Type} {world : World} {config : Config} {plan : Plan}

/-- `IsNamedLine world config descriptor now entry row`: the row is a line of the entry, in which
its owner and its group are called what the databases of the world call them. -/
inductive IsNamedLine (world : World) (config : Config) (descriptor : Descriptor) (now : Moment)
    (entry : Entry) : String → Prop
  | line {status : Status} {field : TimeField} (target : Option String) :
      entry.status = some status → config.timeField = .known field →
      IsNamedLine world config descriptor now entry
        (Layout.longLine config descriptor now entry status (Recursion.names world config status)
          field target)

/-- `call.ShowsNames world plan`: the call writes nothing, as it has nothing to show, or it writes
lines with the names of owners and groups, one for each entry that it shows, or for the first ones
if it is given up. -/
def Display.ShowsNames (world : World) (plan : Plan) (call : Display ω) : Prop :=
  (call.visible plan.config = [] ∧ call.text plan = "") ∨
    ∃ descriptor entries rows,
      call.text plan =
        call.heading ++ (Layout.totalLine plan.config descriptor ++ Layout.lines rows) ∧
      descriptor.visibleEntries = call.visible plan.config ∧
      entries <+: call.visible plan.config ∧
      (∀ last, Settles (display plan call.parent call.entries) call.before () last →
        entries = call.visible plan.config) ∧
      List.Forall₂ (IsNamedLine world plan.config descriptor
        call.before.session.world.now.measured) entries rows

theorem renderer_of_isLong
    (standard : RendererTable.standard.select plan.config = .ok plan.renderer)
    (long : plan.config.isLong = true) : plan.renderer = .long := by
  have chosen : plan.config.displayMode = .known .long := of_decide_eq_true long
  rw [RendererTable.select, chosen] at standard
  exact (Except.ok.inj standard).symm

/-- A line of an entry as it is judged shows its names. -/
theorem isNamedLine_of_item (long : config.isLong = true) {descriptor : Descriptor} {now : Moment}
    {entry : Entry} {fields : List String} {row : String}
    (line : Layout.IsLineOf config descriptor now (Recursion.item world config entry) fields row) :
    IsNamedLine world config descriptor now entry row := by
  cases line with
  | @line status field target known timed =>
    have known : entry.status = some status := known
    have named : Item.annotation (Recursion.item world config entry) =
        some (Recursion.names world config status) := by
      unfold Recursion.item
      rw [long, if_pos rfl, known, Option.map_some]
    rw [named, Option.getD_some]
    exact .line target known timed

section Calls

variable (sized : plan.config.blockSize ≠ 0) (memory : world.HasMemory) {call : Display ω}
  (serves : world.Serves call.before.session)

include sized memory serves

/-- Where there is memory, a call that has something to show measures it. -/
theorem exists_collected_of_serves (some : call.visible plan.config ≠ []) :
    ∃ descriptor session,
      Settles (Descriptor.collect plan.config call.parent call.entries) call.before.session
        (.ok (.some descriptor)) session ∧
      session.world.now = call.before.session.world.now ∧
      Descriptor.visibleItems descriptor.items =
        (call.visible plan.config).map (Recursion.item world plan.config) := by
  obtain ⟨session, collects, learns⟩ :=
    finds_collect sized call.parent call.entries call.before.session serves
  have shown : ¬((call.entries.getD []).filter
      (Recursion.isShown plan.config call.parent)).isEmpty = true :=
    mt List.isEmpty_iff.mp some
  rw [memory.lacking?, Option.elim_none, if_neg shown] at collects
  exact ⟨_, session, collects, learns.now, visibleItems_judged call.parent (call.entries.getD [])⟩

/-- Where there is memory, the names in long lines are those of the databases, whatever answers were
kept. -/
theorem showsNames_of_serves
    (standard : RendererTable.standard.select plan.config = .ok plan.renderer)
    (long : plan.config.isLong = true) : call.ShowsNames world plan := by
  by_cases some : call.visible plan.config = []
  · refine .inl ⟨some, ?_⟩
    rw [call.text_eq_of_block standard, Display.block?_eq_none some, Option.elim_none]
  obtain ⟨descriptor, session, collects, now, items⟩ :=
    exists_collected_of_serves sized memory serves some
  have renderer := renderer_of_isLong standard long
  obtain ⟨answer, written, shown, rows, ran, output, each, first, all⟩ :=
    Layout.run_long plan.config descriptor session.blank
  rw [items] at first all
  obtain ⟨rest, split⟩ := first
  obtain ⟨entries, others, visible, rfl, -⟩ := List.append_eq_map_iff.mp split
  have first : entries <+: call.visible plan.config := ⟨others, visible.symm⟩
  refine .inr ⟨descriptor, entries, rows, ?_, ?_, first, fun last settles => ?_, ?_⟩
  · have text : (Renderer.long.render plan.config descriptor).text session = written.output :=
      congrArg (fun result => result.2.output) ran
    rw [call.text_eq_of_block standard, Display.block?_of_collect collects, Option.elim_some,
      renderer, text, output]
    exact congrArg (call.heading ++ ·) String.empty_append
  · rw [Descriptor.visibleEntries, items, List.map_map]
    exact List.map_id _
  · obtain ⟨_, _, session', collected, renders, -⟩ :=
      call.exists_rendered standard settles (Display.block?_of_collect collects)
    cases collects.symm.trans collected
    rw [renderer] at renders
    have done : answer = .ok () := congrArg Prod.fst (ran.symm.trans renders)
    have long := congrArg List.length (all done)
    rw [List.length_map, List.length_map] at long
    exact first.eq_of_length long
  · have now : session.blank.world.now = call.before.session.world.now := now
    rw [now] at each
    refine (List.forall₂_map_left_iff.mp each).imp ?_
    rintro entry row ⟨fields, line⟩
    exact isNamedLine_of_item long line

end Calls

/-! ## Listings -/

theorem retains_queries (world : World) : Retains world.Queried fun _ => [] := by
  refine ⟨fun files output held queried => ?_, fun error queried => ?_⟩
  · exact ⟨queried.serves.draws files output held, queried.owners, queried.groups⟩
  · rw [List.append_nil]
    exact ⟨queried.serves.reports error, queried.owners, queried.groups⟩

section Standard

variable (standard : RendererTable.standard.select plan.config = .ok plan.renderer)
  (sized : plan.config.blockSize ≠ 0)

include standard sized

variable (memory : world.HasMemory)

include memory

/-- A call asks for the names of the entries that it shows. -/
theorem logs_display (parent : Option Entry) (entries : Option (List Entry)) :
    Logs world.Queried (display plan parent entries : Stride ω Unit) fun _ =>
      plan.config.inquiries (Descriptor.shownStatuses plan.config parent (entries.getD [])) := by
  intro past run queried
  have queried' := queries_collect memory sized parent entries past run.session queried
  obtain ⟨session, collects, -⟩ := finds_collect sized parent entries run.session queried.serves
  rw [memory.lacking?, Option.elim_none] at collects
  rw [collects] at queried'
  rw [run_display, collects]
  generalize ((entries.getD []).filter (Recursion.isShown plan.config parent)).isEmpty = nothing
  cases nothing with
  | true => exact queried'
  | false =>
    have written := (retains_queries world).writeBlock standard parent
      (Descriptor.measure plan.config parent
        ((entries.getD []).map (judged world plan.config parent))) _ { run with session } queried'
    rwa [List.append_nil] at written

/-- A listing asks for the names of what its calls show. -/
theorem logs_list (paths : List String) :
    Logs world.Queried (list plan paths : Stride ω RunState) fun run =>
      plan.config.inquiries ((listDisplays plan paths run).flatMap fun call =>
        (call.visible plan.config).filterMap Entry.status) := by
  have lists : Logs world.Queried (list plan paths : Stride ω RunState) fun run =>
      (listDisplays plan paths run).flatMap fun call =>
        plan.config.inquiries ((call.visible plan.config).filterMap Entry.status) :=
    (retains_queries world).keeping.list_quiet (logs_display standard sized memory) paths
  exact lists.congr fun run => Config.flatMap_inquiries ..

end Standard

/-- The statuses of the entries that calls show. -/
def shownBy (config : Config) (calls : List (Display ω)) : List Status :=
  calls.flatMap fun call => (call.visible config).filterMap Entry.status

/-- A listing ends in a session that has asked for the names of what its calls showed. -/
theorem queried_of_listPaths {kind : PolicyKind} {paths : List String} {outcome : Outcome}
    (planned : Plan.ofConfig .standard config = .ok plan) (lenient : kind ≠ .failFast)
    (memory : world.HasMemory)
    (given : listPaths .standard world kind paths config = .ok outcome) :
    world.Queried (config.inquiries (shownBy config (displays plan world kind paths)))
      outcome.session := by
  have standard := Plan.select_of_planned planned
  obtain ⟨rfl, -, -, accepted⟩ := Plan.ofConfig_eq_ok planned
  have fresh_queried : world.Queried [] (fresh plan world kind).session :=
    memory.queried_fresh lenient
  have ended := logs_list standard (Config.blockSize_ne_zero accepted) memory
    (pathsOrDefault paths) [] _ fresh_queried
  rw [List.nil_append] at ended
  obtain ⟨_, given', concludes⟩ := exists_concludes world kind paths planned
  cases given.symm.trans given'
  generalize (list plan (pathsOrDefault paths)).run.run (fresh plan world kind) = result
    at ended concludes
  cases concludes with
  | finished | aborted => exact ended
  | @fatal error run _ =>
    have reported := (retains_queries world).reports error ended
    rwa [List.append_nil] at reported

/-- In long lines every entry that is shown has a status. -/
theorem status_of_visible {kind : PolicyKind} {paths : List String}
    (planned : Plan.ofConfig .standard config = .ok plan) (long : config.isLong = true)
    {call : Display Walk} (member : call ∈ displays plan world kind paths) {entry : Entry}
    (visible : entry ∈ call.visible config) : entry.status.isSome = true := by
  obtain ⟨rfl, options, -, -⟩ := Plan.ofConfig_eq_ok planned
  have uses : plan.config.usesStatus = true := by
    simp [Config.usesStatus, Config.needsStatus, long]
  have known := isKnown_of_displays planned member
    (options ▸ Config.skipStatus_of_usesStatus uses)
  obtain ⟨inside, shown⟩ := List.mem_filter.mp visible
  exact status_of_isShown shown (known entry inside)

/-- Where there is memory for all names, a listing under a policy that goes on after errors asks the
databases once for each owner and each group of the entries that it shows, in the order in which
they come first, if lines are long and numbers are not shown as they are; otherwise it asks for
nothing. Names that were asked for before it are not asked for again. In long lines every entry has
a status, and its owner and its group are called what they are called in a table that has kept no
answers. -/
theorem listing_asks {kind : PolicyKind} {paths : List String} {outcome : Outcome}
    (planned : Plan.ofConfig .standard config = .ok plan) (lenient : kind ≠ .failFast)
    (memory : world.HasMemory)
    (given : listPaths .standard world kind paths config = .ok outcome) :
    let calls := displays plan world kind paths
    let queried := config.inquiries (shownBy config calls)
    outcome.session.world.owners.asked =
      world.owners.asked ++ (queried.map Status.owner).eraseDups ∧
    outcome.session.world.groups.asked =
      world.groups.asked ++ (queried.map Status.group).eraseDups ∧
    outcome.session.output = texts plan calls ∧
    (config.isLong = true → ∀ call ∈ calls, call.ShowsNames world plan ∧
      ∀ entry ∈ call.visible config, entry.status.isSome = true) ∧
    (∀ id, (world.owners.forget.resolve config.numericOnly id).1 =
        some (world.owners.called config.numericOnly id) ∧
      (world.groups.forget.resolve config.numericOnly id).1 =
        some (world.groups.called config.numericOnly id)) ∧
    ∀ past (run : Run Walk) paths, world.Queried past run.session →
      world.Queried (past ++ config.inquiries (shownBy config (listDisplays plan paths run)))
        ((list plan paths).run.run run).2.session := by
  have output := listPaths_output planned given
  have asked := queried_of_listPaths planned lenient memory given
  have known : config.isLong = true → ∀ call ∈ displays plan world kind paths,
      ∀ entry ∈ call.visible config, entry.status.isSome = true :=
    fun long call member entry visible => status_of_visible planned long member visible
  have standard := Plan.select_of_planned planned
  obtain ⟨rfl, -, -, accepted⟩ := Plan.ofConfig_eq_ok planned
  have sized := Config.blockSize_ne_zero accepted
  have serves : world.Serves (fresh plan world kind).session := memory.serves_fresh lenient
  refine ⟨asked.owners.asked, asked.groups.asked, output,
    fun long call member => ⟨?_, known long call member⟩, fun id => ?_,
    fun past run paths => logs_list standard sized memory paths past run⟩
  · exact showsNames_of_serves sized memory
      (serves_displays standard sized (.inl memory) _ serves call member) standard long
  · obtain ⟨owner, -⟩ := serves.owners.resolve plan.config.numericOnly id
    obtain ⟨group, -⟩ := serves.groups.resolve plan.config.numericOnly id
    rw [(memory.exhausts _ _).1] at owner
    rw [(memory.exhausts _ _).2] at group
    exact ⟨owner, group⟩

/-! ## A sample -/

/-- A file of an owner and a group. -/
def ownedFile (name : String) (owner group : Int) : Tree :=
  let leaf := Client.sampleSketch .leaf 0o100644
  .node name { leaf with status := { leaf.status with owner, group } } []

/-- A world with a directory `d` and one in it, with a hidden file, an owner without a name and one
whose name is empty. -/
def peopled : World :=
  { (default : World) with
    files := .ofTree (.node "" (Client.sampleSketch .directory 0o040755) [
      .node "d" (Client.sampleSketch .directory 0o040755) [
        ownedFile ".h" 9 9,
        ownedFile "a" 7 8,
        ownedFile "b" 5 8,
        .node "s" (Client.sampleSketch .directory 0o040755) [
          ownedFile "x" 7 5, ownedFile "y" 6 8]]])
    owners := { names := [(7, "alice"), (6, ""), (9, "bob")] }
    groups := { names := [(8, "staff"), (0, "root")] } }

/-- Owners and groups are asked for once each, and the hidden file's are not asked for. -/
theorem run_peopled :
    ∃ plan outcome, Plan.ofConfig .standard thorough = .ok plan ∧
      listPaths .standard peopled .collect ["d"] thorough = .ok outcome ∧
      (outcome.session.output, outcome.session.world.owners.asked,
        outcome.session.world.groups.asked) =
      ("total 0\n" ++
        "-rw-r--r--  0 alice  staff  0 Jan  1 00:00 a\n" ++
        "-rw-r--r--  0 5      staff  0 Jan  1 00:00 b\n" ++
        "drwxr-xr-x  0 0      root   0 Jan  1 00:00 s\n" ++
        "\nd/s:\ntotal 0\n" ++
        "-rw-r--r--  0 alice  5      0 Jan  1 00:00 x\n" ++
        "-rw-r--r--  0 6      staff  0 Jan  1 00:00 y\n", [7, 5, 0, 6], [8, 0, 5]) :=
  exists_of_observed (by decide +kernel)

/-- The numbers of the entries that are shown are those that were asked for, and their lines show
their names. -/
theorem listing_asks_sample :
    PolicyKind.collect ≠ .failFast ∧ peopled.HasMemory ∧
    ∃ plan outcome, Plan.ofConfig .standard thorough = .ok plan ∧
      listPaths .standard peopled .collect ["d"] thorough = .ok outcome ∧
      ((shownBy thorough (displays plan peopled .collect ["d"])).map Status.owner).eraseDups =
        [7, 5, 0, 6] ∧
      ((shownBy thorough (displays plan peopled .collect ["d"])).map Status.group).eraseDups =
        [8, 0, 5] ∧
      ∀ call ∈ displays plan peopled .collect ["d"], call.ShowsNames peopled plan := by
  have lenient : PolicyKind.collect ≠ .failFast := by decide
  have memory : peopled.HasMemory := ⟨fun _ => rfl, fun _ => rfl⟩
  obtain ⟨plan, outcome, planned, given, ran⟩ := run_peopled
  obtain ⟨owners, groups⟩ := Prod.mk.inj (Prod.mk.inj ran).2
  obtain ⟨askedOwners, askedGroups, -, named, -⟩ := listing_asks planned lenient memory given
  exact ⟨lenient, memory, plan, outcome, planned, given, askedOwners.symm.trans owners,
    askedGroups.symm.trans groups, fun call member => (named rfl call member).1⟩

end Run
end DirList
