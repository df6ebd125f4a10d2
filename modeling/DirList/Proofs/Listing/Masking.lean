import DirList.Proofs.Layout.Rows
import DirList.Proofs.Listing.Flat
import DirList.Proofs.Listing.Lines
import DirList.Proofs.Listing.Parallel

/-!
# Listings with masked names

Where names are masked, a block consists of rows of printable characters and of tabs, and there are
no more of them than entries, but for the line with the total. Nothing else is written but headings.
In these the path of a directory stands as it is, and it can hold any characters.

Results:
1. `later_displays`: a call finds what its listing was begun with, and what was added to it.
2. `isTidy_of_collect`: the names of owners and groups in a descriptor are printable.
3. `lays_render`: a renderer writes rows.
4. `masked_listing`: what a listing writes.
-/

namespace DirList

open FileSystem

/-! ## Sessions that calls find -/

theorem Parallels.later {σ α : Type} [Holder σ] {step : ExceptT Abort (StateM σ) α}
    {state state' : σ} {answer : α} (parallels : Parallels .collect step)
    (settles : Settles step state answer state') : Holder.Later state state' := by
  have later := (parallels state).1
  rwa [settles] at later

namespace Run

variable {config : Config} {plan : Plan} {world : World} {kind : PolicyKind} {paths : List String}

/-- What was added to a session stays added. -/
theorem keeping_later (session : Session) :
    Keeping Walk (fun _ : List (Display Walk) => session.Later) fun _ => [] := by
  refine ⟨fun action past run before => ?_, fun error past run before => ?_⟩
  · rw [run_onSource]
    rcases (action run.source).run.run run.session.world.files with ⟨_ | ⟨_ | _, _⟩, files⟩ <;>
      exact before.trans (run.session.later_files files)
  · rw [run_report]
    exact before.trans (run.session.later_record error)

/-- A call finds what its listing was begun with, and what was added to it. -/
theorem later_displays (standard : RendererTable.standard.select plan.config = .ok plan.renderer)
    {call : Display Walk} (member : call ∈ displays plan world kind paths) :
    (Session.fresh world kind).Later call.before.session := by
  have after : ∀ parent entries (run : Run Walk),
      (Session.fresh world kind).Later run.session →
      (Session.fresh world kind).Later ((display plan parent entries).run.run run).2.session := by
    intro parent entries run before
    have shown : Parallels .collect (display plan parent entries : Stride Walk Unit) :=
      parallels_display standard parent entries
    exact before.trans (shown run).1.session
  exact forall_displays (keeping_later _) after _ _ (.refl _) call member

end Run

/-! ## Names of owners and groups -/

/-- The database and what was answered from it are printable. -/
structure NameTable.IsTidy (table : NameTable) : Prop where
  names : ∀ row ∈ table.names, IsClean row.2
  kept : ∀ row ∈ table.kept, IsClean row.2

namespace NameTable.IsTidy

variable {table table' : NameTable}

theorem answer (tidy : table.IsTidy) (id : Int) : IsClean (table.answer id) := by
  unfold NameTable.answer
  split
  next name found =>
    exact isClean_ite (isClean_decimal id) (tidy.names (id, name) (mem_of_lookup found))
  next => exact isClean_decimal id

theorem later (tidy : table.IsTidy) (later : table.Later table') : table'.IsTidy := by
  refine ⟨later.names ▸ tidy.names, fun row member => ?_⟩
  rcases later.kept row member with known | answered
  · exact tidy.kept row known
  · rw [answered]
    exact tidy.answer row.1

theorem resolve (tidy : table.IsTidy) {numericOnly : Bool} {id : Int} {name : String}
    (resolved : (table.resolve numericOnly id).1 = some name) : IsClean name := by
  unfold NameTable.resolve at resolved
  split at resolved
  · cases resolved
    exact isClean_decimal id
  split at resolved
  next known =>
    cases resolved
    exact tidy.kept (id, name) (mem_of_lookup known)
  dsimp only at resolved
  split at resolved
  · cases resolved
  · cases resolved
    exact tidy.answer id

end NameTable.IsTidy

/-- The names that a session can find out are printable. -/
structure Session.IsTidy (session : Session) : Prop where
  owners : session.world.owners.IsTidy
  groups : session.world.groups.IsTidy

/-- The names in a long line are printable. -/
structure Annotation.IsTidy (names : Annotation) : Prop where
  owner : IsClean names.owner
  group : IsClean names.group
  flags : IsClean (names.flags.getD "")

/-- The names that were found out about an entry are printable. -/
def Item.IsTidy (item : Item) : Prop :=
  ∀ names ∈ item.annotation, names.IsTidy

section Selecting

variable {config : Config} {parent : Option Entry} {session session' : Session}

theorem Session.IsTidy.later (tidy : session.IsTidy) (later : session.Later session') :
    session'.IsTidy :=
  ⟨tidy.owners.later later.owners, tidy.groups.later later.groups⟩

theorem isTidy_of_annotate (tidy : session.IsTidy) {entry : Entry} {status : Status}
    {names : Annotation}
    (settles : Settles (Descriptor.annotate config entry status) session (.ok names) session') :
    names.IsTidy := by
  obtain ⟨owner, middle, owned, settles⟩ := Settles.of_bind settles
  have clean : ∀ name ∈ owner, IsClean name := by
    intro name known
    cases owned
    exact tidy.owners.resolve known
  have tidy := tidy.later ((parallels_ownerName _ _).later owned)
  cases owner with
  | none => cases settles
  | some owner =>
    obtain ⟨group, _, grouped, settles⟩ := Settles.of_bind settles
    have clean' : ∀ name ∈ group, IsClean name := by
      intro name known
      cases grouped
      exact tidy.groups.resolve known
    cases group with
    | none => cases settles
    | some group =>
      cases settles
      refine ⟨clean owner rfl, clean' group rfl, ?_⟩
      dsimp only
      split <;> decide

theorem isTidy_of_judge (tidy : session.IsTidy) {entry : Entry} {item : Item}
    (settles : Settles (Descriptor.judge config parent entry) session (.ok item) session') :
    item.IsTidy := by
  have unnamed : ∀ {item : Item}, item.annotation = none → item.IsTidy := by
    intro item none names known
    rw [none] at known
    cases known
  unfold Descriptor.judge at settles
  split at settles
  · obtain ⟨_, _, -, settles⟩ := Settles.of_bind settles
    cases settles
    exact unnamed rfl
  split at settles
  · cases settles
    exact unnamed rfl
  split at settles
  · cases settles
    exact unnamed rfl
  dsimp only at settles
  split at settles
  · obtain ⟨_, _, no, -⟩ := Settles.of_bind settles
    cases no
  split at settles
  · obtain ⟨names, _, annotates, settles⟩ := Settles.of_bind settles
    cases names with
    | error => cases settles
    | ok annotation =>
      cases settles
      intro names known
      cases known
      exact isTidy_of_annotate tidy annotates
  · cases settles
    exact unnamed rfl

theorem isTidy_of_judgeAll (tidy : session.IsTidy) {entries : List Entry} {items : List Item}
    (settles : Settles (Descriptor.judgeAll config parent entries) session (.ok items) session') :
    ∀ item ∈ items, item.IsTidy := by
  induction entries generalizing session items with
  | nil =>
    cases settles
    exact List.forall_mem_nil _
  | cons entry rest ih =>
    obtain ⟨judged, middle, judges, settles⟩ := Settles.of_bind settles
    cases judged with
    | error => cases settles
    | ok item =>
      obtain ⟨others, _, judgesAll, settles⟩ := Settles.of_bind settles
      cases others with
      | error => cases settles
      | ok others =>
        cases settles
        refine List.forall_mem_cons.mpr ⟨isTidy_of_judge tidy judges, ?_⟩
        exact ih (tidy.later ((isMade_judge config parent entry).parallels.later judges)) judgesAll

/-- The names of owners and groups in a descriptor are printable. -/
theorem isTidy_of_collect (tidy : session.IsTidy) {entries : Option (List Entry)}
    {descriptor : Descriptor} (settles : Settles (Descriptor.collect config parent entries) session
      (.ok (some descriptor)) session') : ∀ item ∈ descriptor.items, item.IsTidy := by
  obtain ⟨items, _, judges, rfl, -⟩ := measured_of_collect settles
  exact isTidy_of_judgeAll tidy judges

end Selecting

/-! ## Renderers that write rows -/

/-- `Lays limit job`: what the job writes consists of so many rows at most. -/
def Lays {α : Type} (limit : Nat) (job : Job α) : Prop :=
  ∀ session, ∃ text, (job.run.run session).2.output = session.output ++ text ∧ Laid limit text

section Rendering

variable {config : Config} {descriptor : Descriptor}

theorem lays_write {limit : Nat} {text : String} (laid : Laid limit text) :
    Lays limit (Job.write text) :=
  fun _ => ⟨text, rfl, laid⟩

/-- A long line is a row, if the names in it are printable. -/
theorem isRow_longLine (masks : config.maskNames = true) {now : Moment} {item : Item}
    (tidy : item.IsTidy) {fields : List String} {line : String}
    (written : Layout.IsLineOf config descriptor now item fields line) : IsRow line := by
  cases written with
  | @line status field target =>
    have names : (item.annotation.getD (Layout.numericNames status)).IsTidy := by
      cases known : item.annotation with
      | none => exact ⟨isClean_decimal _, isClean_decimal _, isClean_empty⟩
      | some names => exact tidy names known
    exact (Layout.isClean_longLine masks now item.entry status field target names.owner names.group
      names.flags).isRow

/-- A renderer of this library writes no more rows than there are entries, and one for the
total. -/
theorem lays_render (masks : config.maskNames = true) {renderer : Renderer}
    (standard : RendererTable.standard.select config = .ok renderer)
    (tidy : ∀ item ∈ descriptor.items, item.IsTidy) :
    Lays (descriptor.visibleEntries.length + 1) (renderer.render config descriptor) := by
  have count : (Layout.cells config descriptor).length = descriptor.visibleEntries.length :=
    List.length_map _
  have items : (Descriptor.visibleItems descriptor.items).length =
      descriptor.visibleEntries.length := (List.length_map _).symm
  rw [← count]
  rcases select_cases standard with rfl | rfl | rfl | rfl | ⟨rfl, -⟩
  · exact lays_write ((Layout.laid_singleColumn masks).mono (Nat.le_succ _))
  · exact lays_write (Layout.laid_columns masks Layout.arranges_down)
  · exact lays_write (Layout.laid_columns masks Layout.arranges_across)
  · exact lays_write ((Layout.laid_stream masks).mono (Nat.le_succ _))
  intro session
  obtain ⟨answer, written, shown, rows, ran, output, each, first, -⟩ :=
    Layout.run_long config descriptor session
  have few : rows.length ≤ (Descriptor.visibleItems descriptor.items).length :=
    each.length_eq.symm.trans_le first.length_le
  have areRows : ∀ row ∈ rows, IsRow row := by
    intro row member
    obtain ⟨item, inside, fields, line⟩ := each.exists_of_mem row member
    exact isRow_longLine masks (tidy item (List.mem_of_mem_filter (first.subset inside))) line
  refine ⟨_, (congrArg (·.2.output) ran).trans output, ?_⟩
  rw [count, ← items, Nat.add_comm]
  exact (Layout.laid_totalLine config descriptor).append ((laid_lines areRows).mono few)

end Rendering

/-! ## Listings -/

namespace Run

variable {config : Config} {plan : Plan} {world : World} {kind : PolicyKind} {paths : List String}
  {outcome : Outcome}

/-- A heading holds a path, and beside it newlines and a colon. -/
theorem Display.mem_heading {call : Display Walk} {c : Char}
    (member : c ∈ call.heading.toList) : c = '\n' ∨ c = ':' ∨
      ∃ directory, call.parent = some directory ∧ c ∈ directory.path.toList := by
  unfold Display.heading at member
  cases parent : call.parent with
  | none =>
    rw [parent] at member
    cases member
  | some directory =>
    rw [parent, Option.elim_some] at member
    have path : c ∈ (directory.path ++ ":\n").toList → c = '\n' ∨ c = ':' ∨
        ∃ directory', some directory = some directory' ∧ c ∈ directory'.path.toList := by
      intro member
      rw [String.toList_append] at member
      rcases List.mem_append.mp member with named | mark
      · exact .inr (.inr ⟨directory, rfl, named⟩)
      · have ends : c ∈ [':', '\n'] := mark
        simp only [List.mem_cons, List.not_mem_nil, or_false] at ends
        exact ends.symm.imp_right .inl
    unfold header at member
    split at member
    · rw [String.append_assoc, String.toList_append] at member
      rcases List.mem_append.mp member with blank | rest
      · exact .inl (List.mem_singleton.mp blank)
      · exact path rest
    split at member
    · exact path member
    · cases member

/-- Where names are masked and the names of all owners and groups are printable, what a call of
`display` writes under its heading consists of rows of printable characters and of tabs. There are
no more of them than entries, but for one with the total. So there is no character in the listing
that is not printable, but for the tabs and newlines of the layout and for what stands in the path
of a directory that was displayed. -/
theorem masked_listing (masks : config.maskNames = true)
    (owners : ∀ row ∈ world.owners.names, IsClean row.2)
    (groups : ∀ row ∈ world.groups.names, IsClean row.2)
    (planned : Plan.ofConfig .standard config = .ok plan)
    (given : listPaths .standard world kind paths config = .ok outcome) :
    outcome.session.output = texts plan (displays plan world kind paths) ∧
    (∀ call ∈ displays plan world kind paths, call.text plan = "" ∨
      ∃ rows, call.text plan = call.heading ++ Layout.lines rows ∧
        rows.length ≤ (call.entries.getD []).length + 1 ∧
        ∀ row ∈ rows, ∀ c ∈ row.toList, isPrintable c = true ∨ c = '\t') ∧
    ∀ c ∈ outcome.session.output.toList, isPrintable c = true ∨ c = '\n' ∨ c = '\t' ∨
      ∃ call ∈ displays plan world kind paths, ∃ directory, call.parent = some directory ∧
        c ∈ directory.path.toList := by
  have standard := Plan.select_of_planned planned
  have same := (Plan.ofConfig_eq_ok planned).1
  have fresh : (Session.fresh world kind).IsTidy :=
    ⟨⟨owners, List.forall_mem_nil _⟩, ⟨groups, List.forall_mem_nil _⟩⟩
  have output := listPaths_output planned given
  have blocks : ∀ call ∈ displays plan world kind paths, call.text plan = "" ∨
      ∃ rows, call.text plan = call.heading ++ Layout.lines rows ∧
        rows.length ≤ (call.entries.getD []).length + 1 ∧ ∀ row ∈ rows, IsRow row := by
    intro call member
    refine (text_cases standard call).imp_right ?_
    rintro ⟨descriptor, session, -, collected, -⟩
    obtain ⟨text, before, rendered, wrote⟩ := text_of_collect standard collected
    have tidy := isTidy_of_collect (fresh.later (later_displays standard member)) collected
    obtain ⟨text', rendered', rows, rfl, few, areRows⟩ :=
      lays_render (same ▸ masks) standard tidy before
    cases (String.append_right_inj _).mp (rendered.symm.trans rendered')
    refine ⟨rows, wrote, few.trans ?_, areRows⟩
    cases collect_cases collected with
    | measured _ _ visible =>
      rw [visible]
      exact Nat.succ_le_succ (List.length_filter_le _ _)
  refine ⟨output, blocks, fun c member => ?_⟩
  rw [output, texts, String.toList_join, List.flatMap_map] at member
  obtain ⟨call, displayed, member⟩ := List.mem_flatMap.mp member
  rcases blocks call displayed with nothing | ⟨rows, text, -, areRows⟩
  · rw [nothing] at member
    cases member
  rw [text, String.toList_append] at member
  rcases List.mem_append.mp member with headed | listed
  · rcases Display.mem_heading headed with newline | colon | ⟨directory, parent, path⟩
    · exact .inr (.inl newline)
    · rw [colon]
      exact .inl (by decide)
    · exact .inr (.inr (.inr ⟨call, displayed, directory, parent, path⟩))
  · rcases Layout.mem_lines listed with newline | ⟨row, inside, member⟩
    · exact .inr (.inl newline)
    · exact (areRows row inside c member).imp_right fun tab => .inr (.inl tab)

/-! ## A name with an escape character -/

theorem isPrintable_escape : isPrintable '\x1b' = false := by
  decide +kernel

/-- A world with a directory `d` that holds a directory with an escape character in its name. -/
def escaping : World :=
  { (default : World) with
    files := .ofTree (.node "" (Walk.Client.sampleSketch .directory 0o040755) [
      .node "d" (Walk.Client.sampleSketch .directory 0o040755) [
        .node "s\x1bt" (Walk.Client.sampleSketch .directory 0o040755) [sampleFile]]]) }

/-- A recursive listing with masked names. -/
def masking : Config :=
  { recursive := true, maskNames := true }

/-- The name is masked in the listing of its directory, and not in the heading. -/
theorem run_escaping :
    ∃ plan outcome, Plan.ofConfig .standard masking = .ok plan ∧
      listPaths .standard escaping .collect ["d"] masking = .ok outcome ∧
      (outcome.status.toOption, outcome.session.policy.errors, outcome.session.output) =
        (some 0, [], "s?t\n\nd/s\x1bt:\nx\n") :=
  exists_of_observed (by decide +kernel)

/-- The escape character stands in the path of a directory that was displayed. -/
theorem masked_listing_sample :
    ∃ plan, Plan.ofConfig .standard masking = .ok plan ∧
      ∃ call ∈ displays plan escaping .collect ["d"], ∃ directory,
        call.parent = some directory ∧ '\x1b' ∈ directory.path.toList := by
  obtain ⟨plan, outcome, planned, given, ran⟩ := run_escaping
  obtain ⟨-, ran⟩ := Prod.mk.inj ran
  obtain ⟨-, output⟩ := Prod.mk.inj ran
  obtain ⟨-, -, known⟩ := masked_listing (by decide : masking.maskNames = true)
    (by decide : ∀ row ∈ escaping.owners.names, IsClean row.2)
    (by decide : ∀ row ∈ escaping.groups.names, IsClean row.2) planned given
  rw [output] at known
  refine ⟨plan, planned, ((known '\x1b' (by decide)).resolve_left ?_).elim ?_ ?_⟩
  · rw [isPrintable_escape]
    exact Bool.false_ne_true
  · intro no
    cases no
  · exact fun other => other.resolve_left (by decide)

/-- A character that is not printable reaches the listing, though names are masked. -/
theorem exists_unmasked :
    ∃ outcome, listPaths .standard escaping .collect ["d"] masking = .ok outcome ∧
      masking.problems = [] ∧ masking.maskNames = true ∧
      ∃ c ∈ outcome.session.output.toList, isPrintable c = false ∧ c ≠ '\n' ∧ c ≠ '\t' := by
  obtain ⟨plan, outcome, planned, given, ran⟩ := run_escaping
  obtain ⟨-, ran⟩ := Prod.mk.inj ran
  obtain ⟨-, output⟩ := Prod.mk.inj ran
  refine ⟨outcome, given, by decide, rfl, '\x1b', ?_, isPrintable_escape, by decide, by decide⟩
  rw [output]
  decide

end Run
end DirList
