import DirList.Proofs.Listing.Blocks
import DirList.Proofs.Listing.Completing
import DirList.Proofs.Walk.Naming

/-!
# How blocks are arranged

A listing writes a block for every directory that it enters and that has anything to show, and one
for the roots before all others. A block that is not the first stands under the path of its
directory and after a blank line. All the time, a run knows whether it has written anything, and how
many directories it has written blocks of.

Results:
1. `named_of_displays`: every entry that a call displays has a name.
2. `arranged_of_display`: a call adds its block to those that were written.
3. `hands_arranged`: so every turn adds the blocks of its calls.
4. `listing_arranged`: what a listing has written before every turn, and in the end.
-/

namespace DirList.Run

open FileSystem Walk

/-! ## Named entries -/

section Naming

variable {config : Config} {plan : Plan} {world : World} {kind : PolicyKind} {paths : List String}
  {base : FileSystem} {run₀ run₁ : Run Walk} {entries : Option (List Entry)} {call : Display Walk}

/-- The entries of a call are named. -/
def IsNamed (entries : Option (List Entry)) : Prop :=
  ∀ entry ∈ entries.getD [], entry.name ≠ ""

theorem isNamed_of_lists {used : List Nat} {walk walk' : Walk} {run : Run Walk}
    {files' : FileSystem} {namesOnly : Bool} (named : base.IsNamed)
    (follows : Follows base plan used walk run) (roots : walk.started = false → IsNamed walk.roots)
    (lists : Lists walk run.session.world.files namesOnly entries walk' files') :
    IsNamed entries := by
  cases lists with
  | roots fresh => exact roots fresh
  | nowhere | fail => exact List.forall_mem_nil _
  | @give directory entries _ _ _ given =>
    have known := (yields_named_readDirectory named walk.options walk.comparator namesOnly directory
      walk.nextSerial run.session.world.files follows.wears).2
    exact known _ (congrArg Prod.fst given) entries rfl

/-- What is known of every walk that is started is known of the walk that a run has started. -/
theorem of_start {post : Walk → Prop} {walk : Walk} {used : List Nat}
    (yields : world.files.Yields (Walk.start 0 paths plan.options plan.comparator)
      fun answer => ∀ walk, answer = .ok walk → post walk)
    (starts : Settles (onSource (Source.start paths)) ((fresh plan world kind).atStart paths) ()
      run₀)
    (follows : Follows world.files plan used walk run₀) : post walk := by
  have known := (yields world.files .refl).2
  have source := follows.source
  unfold Settles at starts
  rw [run_start] at starts
  rcases ran : (Walk.start 0 paths plan.options plan.comparator).run.run world.files with
    ⟨_ | _ | walk', files⟩
  all_goals
    rw [ran] at starts known
    cases starts
  have same : some walk' = some walk := congrArg Source.last source
  exact known _ rfl walk (congrArg _ (Option.some.inj same))

/-- Every entry that a call displays has a name. -/
theorem named_of_displays (named : world.files.IsNamed)
    (planned : Plan.ofConfig .standard config = .ok plan)
    (member : call ∈ displays plan world kind paths) : IsNamed call.entries := by
  have standard := Plan.select_of_planned planned
  have begins : Begins plan (pathsOrDefault paths) (fresh plan world kind) (Driven world.files plan)
      fun _ call => IsNamed call.entries := by
    intro run₀ entries run₁ starts lists
    obtain ⟨walk, follows, -⟩ := exists_follows_of_start starts
    have roots := of_start (yields_named_start 0 _ plan.options plan.comparator) starts follows
    obtain ⟨walk₁, -, answers, follows₁⟩ := follows.children lists
    refine ⟨isNamed_of_lists named follows (fun _ => roots) answers, fun run₂ displays => ?_⟩
    have follows₂ := follows₁.extend ((orderly_display standard none entries).settles displays)
    exact ⟨options_of_roots standard starts lists displays, _, _, follows₂⟩
  have carries : Carries plan (Recursion.namesOnly plan) (Driven world.files plan)
      fun _ call => IsNamed call.entries := by
    rintro fuel log run event run₁ ⟨used, walk, follows⟩ reads
    obtain ⟨walk₁, -, reads', follows₁⟩ := follows.read reads
    refine ⟨fun call member => ?_, fun run₂ reacts => ?_⟩
    · obtain ⟨-, -, _, _, listed, rfl⟩ := of_mem_displaysAt member
      obtain ⟨_, -, lists, -⟩ := follows₁.children listed
      refine isNamed_of_lists named follows₁ (fun fresh => ?_) lists
      cases reads'.started.symm.trans fresh
    · obtain ⟨walk₂, -, follows₂⟩ := follows₁.reacts standard reads'.current reacts
      exact ⟨_, walk₂, follows₂⟩
  obtain ⟨before, after, split⟩ := List.append_of_mem member
  exact list_displays begins carries split

end Naming

/-! ## Blocks one after another -/

/-- The line with the path of the directory of a block. The roots have none. -/
def Block.pathLine (block : Block) : String :=
  block.directory.elim "" fun directory => directory.path ++ ":\n"

/-- Whether a block shows the entries of a directory. -/
def Block.isSection (block : Block) : Bool :=
  block.directory.isSome

/-- The text of blocks: above the first one stands the path of its directory if there are several
roots, and above every other one a blank line and the path of its directory. -/
def layOut (rootCount : Nat) : List Block → String
  | [] => ""
  | first :: rest =>
    (if 1 < rootCount then first.pathLine else "") ++ first.text ++
      String.join (rest.map fun block => "\n" ++ block.pathLine ++ block.text)

/-- The blocks that turns write. -/
def blocks {ω : Type} (plan : Plan) (turns : List (Turn ω)) : List Block :=
  turns.flatMap fun turn => turn.calls.filterMap (Display.block? plan)

theorem layOut_eq_empty {rootCount : Nat} {blocks : List Block}
    (full : ∀ block ∈ blocks, block.text ≠ "") : layOut rootCount blocks = "" ↔ blocks = [] := by
  cases blocks with
  | nil => exact iff_of_true rfl rfl
  | cons first rest =>
    refine iff_of_false (fun empty => ?_) (List.cons_ne_nil _ _)
    have both := (String.append_eq_empty_iff.mp empty).1
    exact full first List.mem_cons_self (String.append_eq_empty_iff.mp both).2

/-- One more block, which is not that of the roots unless it is the first. -/
theorem layOut_concat (rootCount : Nat) {blocks : List Block} {block : Block}
    (first : block.directory = none → blocks = []) :
    layOut rootCount (blocks ++ [block]) = layOut rootCount blocks ++
      (block.directory.elim ""
        (header { rootCount, hasOutput := !blocks.isEmpty }) ++ block.text) := by
  cases blocks with
  | nil =>
    rw [List.nil_append, layOut, layOut, String.empty_append, List.map_nil, String.join_nil,
      String.append_empty]
    congr 1
    unfold Block.pathLine header
    cases block.directory with
    | none => rw [Option.elim_none, Option.elim_none, ite_self]
    | some directory => rfl
  | cons before rest =>
    obtain ⟨directory, same⟩ := Option.ne_none_iff_exists'.mp fun none => nomatch first none
    rw [List.cons_append, layOut, layOut, List.map_append, String.join_append, List.map_singleton,
      String.join_cons, String.join_nil, String.append_empty, ← String.append_assoc, same]
    congr 1
    rw [Block.pathLine, same, Option.elim_some, Option.elim_some, header]
    rw [if_pos (by rfl)]
    simp only [String.append_assoc]

/-! ## What turns add -/

/-- `Arranged rootCount blocks run`: the run has so many roots, has written the blocks, and knows
so. -/
structure Arranged {ω : Type} (rootCount : Nat) (blocks : List Block) (run : Run ω) : Prop where
  count : run.state.rootCount = rootCount
  output : run.session.output = layOut rootCount blocks
  hasOutput : run.state.hasOutput = !blocks.isEmpty
  sections : run.state.sections = blocks.countP Block.isSection

/-- The call was not given up. -/
def Display.IsDone {ω : Type} (plan : Plan) (call : Display ω) : Prop :=
  ∃ run', Settles (display plan call.parent call.entries) call.before () run'

/-- `HasArranged plan rootCount log run`: the run has written the blocks of its turns so far, none
of whose calls was given up. -/
def HasArranged {ω : Type} (plan : Plan) (rootCount : Nat) (log : List (Turn ω)) (run : Run ω) :
    Prop :=
  Arranged rootCount (blocks plan log) run ∧ ∀ turn ∈ log, ∀ call ∈ turn.calls, call.IsDone plan

section Adding

variable {ω α : Type} {plan : Plan} {rootCount : Nat} {written : List Block} {run run' : Run ω}
  {parent : Option Entry} {entries : Option (List Entry)}

theorem Arranged.onSource {action : Source ω → Access (Except ListingError α × Source ω)}
    {answer : α} (arranged : Arranged rootCount written run)
    (settles : Settles (Run.onSource action) run answer run') :
    Arranged rootCount written run' := by
  obtain ⟨files, source, rfl⟩ := exists_of_onSource settles
  exact ⟨arranged.count, arranged.output, arranged.hasOutput, arranged.sections⟩

theorem Arranged.report {error : ListingError} (arranged : Arranged rootCount written run)
    (settles : Settles (Run.report error) run () run') : Arranged rootCount written run' := by
  unfold Settles at settles
  rw [run_report] at settles
  obtain ⟨-, rfl⟩ := Prod.mk.inj settles
  exact ⟨arranged.count, arranged.output, arranged.hasOutput, arranged.sections⟩

variable (standard : RendererTable.standard.select plan.config = .ok plan.renderer)

include standard

/-- A call adds its block, if it has one. -/
theorem arranged_of_display (arranged : Arranged rootCount written run)
    (first : parent = none → written = [])
    (settles : Settles (display plan parent entries) run () run') :
    Arranged rootCount
      (written ++ [(⟨parent, entries, run⟩ : Display ω)].filterMap (Display.block? plan)) run' := by
  obtain ⟨count, output, hasOutput, sections⟩ := arranged
  cases shown_of_display standard settles with
  | nothing none output' state' =>
    obtain ⟨hasFailed, state'⟩ := state'
    rw [List.filterMap_cons_none none, List.filterMap_nil, List.append_nil]
    refine ⟨?_, output'.trans output, ?_, ?_⟩
    all_goals rw [state']
    · exact count
    · exact hasOutput
    · exact sections
  | @written block some output' state' =>
    obtain ⟨_, _, -, directory⟩ := Display.exists_collected some
    have directory : block.directory = parent := by rw [directory]
    rw [List.filterMap_cons_some some, List.filterMap_nil]
    have heading : Display.heading ⟨parent, entries, run⟩ =
        block.directory.elim "" (header { rootCount, hasOutput := !written.isEmpty }) := by
      rw [Display.heading, directory]
      dsimp only
      unfold header
      rw [count, hasOutput]
    refine ⟨?_, ?_, ?_, ?_⟩
    · rw [state']
      exact count
    · rw [output', output, heading, layOut_concat]
      exact fun none => first (directory.symm.trans none)
    · rw [state']
      simp
    · rw [state', List.countP_append, List.countP_singleton, ← sections, Block.isSection, directory]
      dsimp only
      split <;> rfl

/-- Reacting to an event adds the blocks of the calls that it brings about. -/
theorem arranged_of_react {namesOnly : Bool} {event : Entry}
    (arranged : Arranged rootCount written run)
    (settles : Settles (react plan namesOnly event) run () run') :
    Arranged rootCount
      (written ++ (displaysAt plan namesOnly event run).filterMap (Display.block? plan)) run' ∧
    ∀ call ∈ displaysAt plan namesOnly event run, call.IsDone plan := by
  have silent : Arranged rootCount written run' → displaysAt plan namesOnly event run = [] →
      Arranged rootCount
        (written ++ (displaysAt plan namesOnly event run).filterMap (Display.block? plan)) run' ∧
      ∀ call ∈ displaysAt plan namesOnly event run, call.IsDone plan := by
    intro arranged none
    rw [none, List.filterMap_nil, List.append_nil]
    exact ⟨arranged, List.forall_mem_nil _⟩
  unfold react at settles
  cases kind : event.kind with
  | directory =>
    rw [kind] at settles
    dsimp only at settles
    unfold enter at settles
    split at settles
    next passed =>
      refine silent (arranged.onSource settles) ?_
      rw [displaysAt, kind]
      exact if_pos passed
    next entered =>
      obtain ⟨entries, run₁, lists, settles⟩ := Settles.of_bind settles
      obtain ⟨_, run₂, displays, settles⟩ := Settles.of_bind settles
      have calls : displaysAt plan namesOnly event run = [⟨some event, entries, run₁⟩] := by
        rw [displaysAt, kind]
        dsimp only
        rw [if_neg entered, onward_of_settles lists]
      rw [calls]
      have arranged₂ := arranged_of_display standard (arranged.onSource lists)
        (fun no : some event = none => nomatch no) displays
      refine ⟨?_, List.forall_mem_singleton.mpr ⟨run₂, displays⟩⟩
      split at settles
      · exact arranged₂.onSource settles
      · cases settles
        exact arranged₂
  | cycle | unreadable | error =>
    rw [kind] at settles
    exact silent (arranged.report settles) (by rw [displaysAt, kind])
  | finished | file | symlink | dangling | other | dot | noStatus | unasked =>
    rw [kind] at settles
    cases settles
    exact silent arranged (by rw [displaysAt, kind])

/-- The turn of the roots adds their block. -/
theorem hasArranged_of_roots (arranged : HasArranged plan rootCount [] run)
    (shows : Settles (showRoots plan) run () run') :
    HasArranged plan rootCount [rootsTurn run] run' := by
  obtain ⟨entries, run₁, lists, displays⟩ := Settles.of_bind shows
  have calls : (rootsTurn run).calls = [⟨none, entries, run₁⟩] := onward_of_settles lists
  refine ⟨?_, List.forall_mem_singleton.mpr ?_⟩
  · rw [blocks, List.flatMap_singleton, calls]
    exact arranged_of_display standard (arranged.1.onSource lists) (fun _ => rfl) displays
  · rw [calls]
    exact List.forall_mem_singleton.mpr ⟨run', displays⟩

/-- Every turn adds the blocks of its calls, none of which was given up. -/
theorem hands_arranged (rootCount : Nat) (namesOnly : Bool) :
    Hands plan namesOnly (fun turn : Turn ω => [turn]) (fun _ => HasArranged plan rootCount)
      fun log turn => HasArranged plan rootCount log turn.before := by
  rintro fuel log run event run₁ ⟨arranged, done⟩ reads
  refine ⟨⟨arranged, done⟩, fun run₂ reacts => ?_⟩
  obtain ⟨arranged', done'⟩ := arranged_of_react standard (arranged.onSource reads) reacts
  refine ⟨?_, List.forall_mem_append.mpr ⟨done, List.forall_mem_singleton.mpr done'⟩⟩
  rw [blocks, List.flatMap_append, List.flatMap_singleton]
  exact arranged'

end Adding

/-! ## Listings -/

section Listings

variable {config : Config} {plan : Plan} {world : World} {kind : PolicyKind} {paths : List String}
  {outcome : Outcome} {call : Display Walk} {block : Block}

/-- A block of a call that was not given up ends with a line. -/
theorem endsLine_of_block (named : IsNamed call.entries)
    (standard : RendererTable.standard.select plan.config = .ok plan.renderer)
    (done : call.IsDone plan) (shown : call.block? plan = some block) : EndsLine block.text := by
  obtain ⟨run', settles⟩ := done
  obtain ⟨descriptor, session, session', collected, rendered, text⟩ :=
    Display.exists_rendered standard settles shown
  cases collect_cases collected with
  | measured some _ visible =>
    obtain ⟨text', output, ends⟩ := endsLine_render standard (visible ▸ some)
      (fun entry member => named entry (List.mem_of_mem_filter (visible ▸ member))) rendered
    have blank : session.blank.output = "" := rfl
    rw [text, output, blank, String.empty_append]
    exact ends

/-- The blocks come in the order of the turns, each of which writes one at most. -/
theorem sublist_blocks {ω : Type} {turns : List (Turn ω)} (told : ∀ turn ∈ turns, turn.IsTold) :
    ((blocks plan turns).map Block.directory).Sublist (turns.map Turn.event) := by
  induction turns with
  | nil => exact List.Sublist.refl []
  | cons turn turns ih =>
    obtain ⟨first, others⟩ := List.forall_mem_cons.mp told
    rw [blocks, List.flatMap_cons, List.map_append, List.map_cons, ← List.singleton_append]
    refine List.Sublist.append ?_ (ih others)
    rcases first with none | ⟨entries, run, one⟩
    · rw [none]
      exact List.nil_sublist _
    · rw [one]
      cases shown : (⟨turn.event, entries, run⟩ : Display ω).block? plan with
      | none =>
        rw [List.filterMap_cons_none shown]
        exact List.nil_sublist _
      | some block =>
        obtain ⟨_, _, -, same⟩ := Display.exists_collected shown
        rw [List.filterMap_cons_some shown, List.filterMap_nil, List.map_singleton, same]

/-- A run that has written its blocks up to their ends knows whether it has written anything. -/
theorem HasArranged.knows {ω : Type} {rootCount : Nat} {log : List (Turn ω)} {run : Run ω}
    (arranged : HasArranged plan rootCount log run)
    (ends : ∀ block ∈ blocks plan log, EndsLine block.text) :
    run.session.output = layOut rootCount (blocks plan log) ∧
      (run.state.hasOutput = true ↔ run.session.output ≠ "") ∧
      run.state.sections = (blocks plan log).countP Block.isSection := by
  obtain ⟨⟨-, output, hasOutput, sections⟩, -⟩ := arranged
  refine ⟨output, ?_, sections⟩
  rw [output, hasOutput, Ne, layOut_eq_empty fun block member => (ends block member).ne_empty]
  cases blocks plan log <;> simp

section Turns

variable (named : world.files.IsNamed) (planned : Plan.ofConfig .standard config = .ok plan)
include named planned

/-- The blocks of turns of a listing end with lines, once they are written. -/
theorem HasArranged.endsLine {rootCount : Nat} {log : List (Turn Walk)} {run : Run Walk}
    (arranged : HasArranged plan rootCount log run)
    (among : ∀ turn ∈ log, turn ∈ turns plan world kind paths) :
    ∀ block ∈ blocks plan log, EndsLine block.text := by
  intro block member
  obtain ⟨turn, inside, member⟩ := List.mem_flatMap.mp member
  obtain ⟨call, called, shown⟩ := List.mem_filterMap.mp member
  have displayed : call ∈ displays plan world kind paths := by
    rw [displays_eq_flatMap]
    exact List.mem_flatMap.mpr ⟨turn, among turn inside, called⟩
  exact endsLine_of_block (named_of_displays named planned displayed)
    (Plan.select_of_planned planned) (arranged.2 turn inside call called) shown

omit named planned in
/-- Nothing is written before the first turn. -/
theorem hasArranged_of_starts {run : Run Walk}
    (starts : Settles (onSource (Source.start (pathsOrDefault paths)))
      ((fresh plan world kind).atStart (pathsOrDefault paths)) () run) :
    HasArranged plan (pathsOrDefault paths).length [] run := by
  obtain ⟨files, source, rfl⟩ := exists_of_onSource starts
  exact ⟨⟨rfl, rfl, rfl, rfl⟩, List.forall_mem_nil _⟩

omit named in
theorem opens_arranged :
    Opens plan (pathsOrDefault paths) (fresh plan world kind) (fun turn : Turn Walk => [turn])
      (fun _ => HasArranged plan (pathsOrDefault paths).length)
      fun log turn => HasArranged plan (pathsOrDefault paths).length log turn.before := by
  intro run₀ starts
  have standard := Plan.select_of_planned planned
  have arranged := hasArranged_of_starts starts
  refine ⟨arranged, fun run₂ shows => ⟨?_, hasArranged_of_roots standard arranged shows⟩⟩
  obtain ⟨entries, run₁, lists, displays⟩ := Settles.of_bind shows
  exact options_of_roots standard starts lists displays

/-- What has been written before a turn. -/
theorem arranged_before {before after : List (Turn Walk)} {turn : Turn Walk}
    (split : turns plan world kind paths = before ++ turn :: after) :
    (∀ block ∈ blocks plan before, EndsLine block.text) ∧
      HasArranged plan (pathsOrDefault paths).length before turn.before := by
  have arranged := (hands_arranged (Plan.select_of_planned planned) _ _).list
    (opens_arranged planned) split
  rw [List.flatMap_singleton'] at arranged
  exact ⟨arranged.endsLine named planned fun turn member => split ▸ List.mem_append_left _ member,
    arranged⟩

/-- What has been written in the end. -/
theorem arranged_of_list {state : RunState} {run : Run Walk}
    (settles : Settles (list plan (pathsOrDefault paths)) (fresh plan world kind) state run) :
    let blocks := blocks plan (turns plan world kind paths)
    (∀ block ∈ blocks, EndsLine block.text) ∧
      run.session.output = layOut (pathsOrDefault paths).length blocks ∧
      (state.hasOutput = true ↔ run.session.output ≠ "") ∧
      state.sections = blocks.countP Block.isSection := by
  obtain ⟨run₀, last, starts, walks, finishes⟩ := settles_list settles
  have arranged : HasArranged plan (pathsOrDefault paths).length
      (turns plan world kind paths) last := by
    have ends := (hands_arranged (Plan.select_of_planned planned) _ _).walkRoots_ends
      (opens_arranged planned) starts walks
    dsimp only at ends
    rw [List.flatMap_singleton'] at ends
    rcases ends with ⟨_, -, arranged⟩ | arranged | ⟨_, before, ⟨arranged, done⟩, reads⟩
    · exact arranged
    · exact arranged
    · exact ⟨arranged.onSource reads, done⟩
  have lines := arranged.endsLine named planned fun _ => id
  unfold Settles at finishes
  rw [run_finish] at finishes
  cases finishes
  exact ⟨lines, arranged.knows lines⟩

end Turns

/-- A listing writes the blocks of the directories that it enters, in their order, and before them
the block of the roots. Before every turn and in the end, it has written the blocks so far, each of
which ends with a line, and knows whether there were any and how many of them were of directories.
Where nothing is to be shown, nothing is written. -/
theorem listing_arranged (named : world.files.IsNamed)
    (planned : Plan.ofConfig .standard config = .ok plan)
    (given : listPaths .standard world kind paths config = .ok outcome) :
    let turns := turns plan world kind paths
    let rootCount := (pathsOrDefault paths).length
    ((blocks plan turns).map Block.directory).Sublist (turns.map Turn.event) ∧
    (turns = [] ∨ ∃ first rest, turns = first :: rest ∧ first.event = none ∧
      ∀ turn ∈ rest, turn.event.isSome = true) ∧
    (∀ before turn after, turns = before ++ turn :: after →
      (∀ block ∈ blocks plan before, EndsLine block.text) ∧
      turn.before.session.output = layOut rootCount (blocks plan before) ∧
      (turn.before.state.hasOutput = true ↔ turn.before.session.output ≠ "") ∧
      turn.before.state.sections = (blocks plan before).countP Block.isSection) ∧
    (∀ status, outcome.status = .ok status →
      (∀ block ∈ blocks plan turns, EndsLine block.text) ∧
      outcome.session.output = layOut rootCount (blocks plan turns)) ∧
    (∀ state run, Settles (list plan (pathsOrDefault paths)) (fresh plan world kind) state run →
      (state.hasOutput = true ↔ run.session.output ≠ "") ∧
      state.sections = (blocks plan turns).countP Block.isSection) ∧
    ∀ call ∈ displays plan world kind paths,
      (call.entries.getD []).filter (Recursion.isShown config call.parent) = [] →
      call.block? plan = none ∧ call.text plan = "" := by
  intro turns rootCount
  obtain ⟨same, -⟩ := Plan.ofConfig_eq_ok planned
  obtain ⟨told, first⟩ := events_listTurns plan (pathsOrDefault paths) (fresh plan world kind)
  refine ⟨sublist_blocks told, first, fun before turn after split => ?_, fun status ended => ?_,
    fun state run settles => (arranged_of_list named planned settles).2.2, fun call _ nothing => ?_⟩
  · obtain ⟨lines, arranged⟩ := arranged_before named planned split
    exact ⟨lines, arranged.knows lines⟩
  · obtain ⟨_, given', concludes⟩ := exists_concludes world kind paths planned
    cases given.symm.trans given'
    rcases ran : (list plan (pathsOrDefault paths)).run.run (fresh plan world kind) with
      ⟨abort | state, run⟩
    all_goals rw [ran] at concludes
    · cases concludes with
      | aborted => cases ended
      | fatal fatal =>
        have none : turns = [] := turns_of_fatal planned fatal ran
        rw [none]
        refine ⟨List.forall_mem_nil _, ?_⟩
        rw [listPaths_output planned given, displays_eq_flatMap]
        exact congrArg (fun turns => texts plan (List.flatMap Turn.calls turns)) none
    · cases concludes
      obtain ⟨lines, output, -⟩ := arranged_of_list named planned ran
      exact ⟨lines, output⟩
  · rw [← same] at nothing
    have none := Display.block?_eq_none nothing
    exact ⟨none, by rw [Display.text_eq_of_block (Plan.select_of_planned planned), none,
      Option.elim_none]⟩

/-- A file, a directory and a directory below it are listed. -/
theorem run_severalRoots :
    ∃ plan outcome, Plan.ofConfig .standard { recursive := true } = .ok plan ∧
      listPaths .standard exhausted .collect ["d/a", "d", "d/s"] { recursive := true } =
        .ok outcome ∧
      (outcome.status.toOption,
        (blocks plan (turns plan exhausted .collect ["d/a", "d", "d/s"])).map fun block =>
          (block.directory.map Entry.path, block.text)) =
      (some 0,
        [(none, "d/a\n"), (some "d", "a\ns\n"), (some "d/s", "x\n"), (some "d/s", "x\n")]) :=
  exists_of_observed (by decide +kernel)

/-- The file is the block of the roots, and the directory below has two blocks: one within its
parent, and one as a root. -/
theorem listing_arranged_sample :
    exhausted.files.IsNamed ∧ ∃ plan outcome,
      Plan.ofConfig .standard { recursive := true } = .ok plan ∧
      listPaths .standard exhausted .collect ["d/a", "d", "d/s"] { recursive := true } =
        .ok outcome ∧ outcome.status = .ok 0 ∧
      outcome.session.output =
        layOut 3 (blocks plan (turns plan exhausted .collect ["d/a", "d", "d/s"])) ∧
      (blocks plan (turns plan exhausted .collect ["d/a", "d", "d/s"])).map (fun block =>
          (block.directory.map Entry.path, block.text)) =
        [(none, "d/a\n"), (some "d", "a\ns\n"), (some "d/s", "x\n"), (some "d/s", "x\n")] := by
  have named : exhausted.files.IsNamed := isNamed_of_nodes (by decide +kernel)
  obtain ⟨plan, outcome, planned, given, ran⟩ := run_severalRoots
  obtain ⟨status, written⟩ := Prod.mk.inj ran
  have ended := ok_of_toOption status
  obtain ⟨-, -, -, output, -⟩ := listing_arranged named planned given
  exact ⟨named, plan, outcome, planned, given, ended, (output 0 ended).2, written⟩

end Listings

end DirList.Run
