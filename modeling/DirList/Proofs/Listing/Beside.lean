import DirList.Proofs.Listing.Heading
import DirList.Proofs.Listing.Holding

/-!
# Calls without memory

Where there is no memory for the names in a long line, the call that is about to write the list is
given up: it writes nothing and holds nothing. Beside the same call in a world with memory for all
names, it writes the same otherwise. The call with memory may be given up where the other one is
not: at an entry that the other one does not come to, and whose date cannot be told.

Results:
1. `Job.Draws.commutes_lend`: rendering depends on the files and the clock alone.
2. `Display.block?_eq`: so the block of a call depends on its entries, and on the memory that there
   is for them.
3. `exists_display`: how a call ends.
4. `givenUp_of_lacks`: what it comes to without memory.
5. `beside_display`: what it does beside the same call with memory.
-/

namespace DirList

open FileSystem Walk

/-! ## Rendering -/

/-- The session `other` with the files, the clock and the text of a session. -/
def Session.lend (other session : Session) : Session :=
  { other with
    world := { other.world with files := session.world.files, now := session.world.now }
    output := session.output }

/-- Rendering depends on the files and the clock alone, and changes neither the names that are known
nor the policy. -/
theorem Job.Draws.commutes_lend {α : Type} {reads : String → Prop} {job : Job α}
    (draws : job.Draws reads) (other : Session) :
    Commutes (fun _ => True) (Session.lend other) job := by
  induction draws with
  | pure answer => exact .pure answer
  | throw abort => exact .throw abort
  | bind _ _ first second => exact first.bind second
  | write | now => exact fun _ _ => ⟨trivial, rfl⟩
  | readLink _ =>
    intro session _
    have same : (other.lend session).world.files = session.world.files := rfl
    rw [run_access, run_access, same]
    rcases (attempt (Call.readLink _)).run.run session.world.files with ⟨_ | _, _⟩ <;>
      exact ⟨trivial, rfl⟩

/-- Rendering comes to the same in sessions with the same files and the same clock. -/
theorem Job.Draws.alike {α : Type} {reads : String → Prop} {job : Job α} (draws : job.Draws reads)
    {session session' : Session} (files : session'.world.files = session.world.files)
    (now : session'.world.now = session.world.now) :
    (job.run.run session'.blank).1 = (job.run.run session.blank).1 ∧
      job.text session' = job.text session := by
  have same : session'.blank = session'.lend session.blank := by
    unfold Session.lend Session.blank
    rw [← files, ← now]
  have moved := (draws.commutes_lend session' session.blank trivial).2
  rw [← same] at moved
  rw [Job.text, moved]
  exact ⟨rfl, rfl⟩

/-- The world with memory for all names. -/
def World.withMemory (world : World) : World :=
  { world with
    owners := { world.owners with exhausting := [] }
    groups := { world.groups with exhausting := [] } }

theorem World.hasMemory_withMemory (world : World) : world.withMemory.HasMemory :=
  ⟨fun _ => rfl, fun _ => rfl⟩

theorem World.hasStaticNames_withMemory (world : World) : world.withMemory.HasStaticNames :=
  ⟨List.forall_mem_nil _, List.forall_mem_nil _⟩

theorem World.lacks_withMemory (world : World) (config : Config) (parent : Option Entry)
    (entry : Entry) : world.withMemory.lacks config parent entry = false :=
  world.hasMemory_withMemory.lacks config parent entry

theorem World.lacking?_withMemory (world : World) (config : Config) (parent : Option Entry)
    (entries : List Entry) : world.withMemory.lacking? config parent entries = none :=
  world.hasMemory_withMemory.lacking? config parent entries

/-- Where nothing is written there is no date to be told. -/
theorem Recursion.undatable_nil (config : Config) : undatable config [] = none := by
  unfold undatable
  cases config.timeField with
  | known => exact ite_self _
  | unknown => rfl

section Rendering

variable {world : World} {plan : Plan} {entries : List Entry}

/-- In a world that does not change, the entries of a directory are written up to where a date
cannot be told, whether there is memory for all names or not. -/
theorem exists_render (static : world.files.IsStatic) (calm : world.files.IsCalm)
    (works : plan.Works) (parent : Option Entry)
    (described : plan.config.isLong = true → ∀ entry ∈ entries, entry.Described)
    (session : Session) (files : session.world.files = world.files)
    (now : session.world.now = world.now) :
    ∃ text, (plan.renderer.render plan.config (Descriptor.measure plan.config parent
        (entries.map (judged world plan.config parent)))).run.run session =
      (Recursion.cutShort (Recursion.undatable plan.config
        (entries.filter (Recursion.isShown plan.config parent))),
        { session with output := session.output ++ text }) := by
  have memory := world.hasMemory_withMemory
  have steady : world.withMemory.IsSteady := ⟨static, calm, memory.owners, memory.groups⟩
  have sees := steady.sees (by decide : PolicyKind.collect ≠ .failFast)
  obtain ⟨last, ran, comes⟩ := does_render steady works parent described _ sees
  have draws := draws_render works.renderer (Descriptor.measure plan.config parent
    (entries.map (judged world plan.config parent)))
  have moved := (draws.commutes_lend session (Session.fresh world.withMemory .collect) trivial).2
  have ran' : (plan.renderer.render plan.config (Descriptor.measure plan.config parent
      (entries.map (judged world plan.config parent)))).run.run
        (Session.fresh world.withMemory .collect) =
      (Recursion.cutShort (Recursion.undatable plan.config
        (entries.filter (Recursion.isShown plan.config parent))), last) := ran
  have blank : session.lend (Session.fresh world.withMemory .collect) = session.blank := by
    unfold Session.lend Session.blank
    have files' : (Session.fresh world.withMemory .collect).world.files = session.world.files :=
      files.symm
    have now' : (Session.fresh world.withMemory .collect).world.now = session.world.now := now.symm
    rw [files', now']
    rfl
  rw [blank, ran'] at moved
  refine ⟨last.output, ?_⟩
  rw [draws.isMade.run_blank, moved]
  dsimp only
  have files' : last.world.files = session.world.files := comes.sees.files.trans files.symm
  have now' : last.world.now = session.world.now := comes.sees.now.trans now.symm
  unfold Session.lend Session.led
  rw [files', now']

end Rendering

/-! ## Calls -/

namespace Run

variable {ω : Type} {world : World} {plan : Plan} {run run' : Run ω} {parent : Option Entry}
  {entries : Option (List Entry)}

/-- `Attends world run`: the run is in a world that does not change. -/
structure Attends (world : World) (run : Run ω) : Prop where
  serves : world.Serves run.session
  files : run.session.world.files = world.files
  now : run.session.world.now = world.now

/-- The block of a call depends on its entries, and on whether there is memory for them. -/
theorem Display.block?_eq (call : Display ω)
    (standard : RendererTable.standard.select plan.config = .ok plan.renderer)
    (sized : plan.config.blockSize ≠ 0) (serves : world.Serves call.before.session) :
    call.block? plan =
      if (world.lacking? plan.config call.parent (call.entries.getD [])).isSome ∨
        ((call.entries.getD []).filter (Recursion.isShown plan.config call.parent)).isEmpty
      then none
      else some ⟨call.parent, (plan.renderer.render plan.config (Descriptor.measure plan.config
        call.parent ((call.entries.getD []).map (judged world plan.config call.parent)))).text
          call.before.session⟩ := by
  obtain ⟨session, collects, learns⟩ :=
    finds_collect sized call.parent call.entries call.before.session serves
  unfold block?
  rw [collects]
  cases world.lacking? plan.config call.parent (call.entries.getD []) with
  | some entry => rfl
  | none =>
    rw [Option.elim_none]
    generalize ((call.entries.getD []).filter (Recursion.isShown plan.config call.parent)).isEmpty =
      nothing
    cases nothing with
    | true => rfl
    | false =>
      have alike := (draws_render standard (Descriptor.measure plan.config call.parent
        ((call.entries.getD []).map (judged world plan.config call.parent)))).alike
        learns.files learns.now
      exact congrArg (fun text => some (Block.mk call.parent text)) alike.2

/-- In a world that does not change, a block is written up to where a date cannot be told. -/
theorem exists_writeBlock (static : world.files.IsStatic) (calm : world.files.IsCalm)
    (works : plan.Works) (parent : Option Entry)
    (described : plan.config.isLong = true → ∀ entry ∈ entries.getD [], entry.Described)
    (run : Run ω) (files : run.session.world.files = world.files)
    (now : run.session.world.now = world.now) :
    ∃ run₁, (writeBlock plan parent (Descriptor.measure plan.config parent
        ((entries.getD []).map (judged world plan.config parent)))).run.run run =
        (Recursion.cutShort (Recursion.undatable plan.config
          ((entries.getD []).filter (Recursion.isShown plan.config parent))), run₁) ∧
      run₁.source = run.source ∧ run₁.session.world.files = world.files ∧
      run₁.session.world.now = world.now := by
  obtain ⟨text, renders⟩ := exists_render static calm works parent described
    (run.headed parent).session files now
  rw [run_writeBlock, run_writeEntries, renders]
  cases Recursion.undatable plan.config
      ((entries.getD []).filter (Recursion.isShown plan.config parent)) <;>
    exact ⟨_, rfl, rfl, files, now⟩

/-- What a call comes to in a world that does not change: it is given up for a date that cannot be
told, unless it comes to an entry before that there is no memory for. -/
theorem exists_display (static : world.files.IsStatic) (calm : world.files.IsCalm)
    (names : world.HasStaticNames) (works : plan.Works) (parent : Option Entry)
    (attends : Attends world run)
    (described : plan.config.isLong = true → ∀ entry ∈ entries.getD [], entry.Described) :
    ∃ run₁, (display plan parent entries).run.run run =
        ((world.lacking? plan.config parent (entries.getD [])).elim
          (Recursion.cutShort (Recursion.undatable plan.config
            ((entries.getD []).filter (Recursion.isShown plan.config parent)))) fun _ => .ok (),
          run₁) ∧
      run₁.source = run.source ∧ Attends world run₁ := by
  obtain ⟨session, collects, learns⟩ :=
    finds_collect works.blockSize parent entries run.session attends.serves
  have files := learns.files.trans attends.files
  have now := learns.now.trans attends.now
  have serves := serves_display works.renderer works.blockSize (.inr names) parent entries run
    attends.serves
  have ran := run_display plan parent entries run
  rw [collects] at ran
  cases lacking : world.lacking? plan.config parent (entries.getD []) with
  | some entry =>
    rw [lacking, Option.elim_some] at ran
    dsimp only at ran
    rw [run_report, Policy.handle_lenient learns.informs.lenient] at ran
    rw [ran] at serves
    exact ⟨_, ran, rfl, serves, files, now⟩
  | none =>
    rw [lacking, Option.elim_none] at ran
    rw [Option.elim_none]
    cases nothing :
      ((entries.getD []).filter (Recursion.isShown plan.config parent)).isEmpty with
    | true =>
      rw [nothing] at ran
      rw [ran] at serves
      rw [List.isEmpty_iff.mp nothing, Recursion.undatable_nil]
      exact ⟨_, ran, rfl, serves, files, now⟩
    | false =>
      rw [nothing] at ran
      obtain ⟨run₁, writes, source, files', now'⟩ := exists_writeBlock static calm works parent
        described { run with session } files now
      have ran₁ := ran.trans writes
      rw [ran₁] at serves
      exact ⟨run₁, ran₁, source, serves, files', now'⟩

/-! ## A call beside the same call with memory -/

/-- The run once a call was made. -/
def Display.after (plan : Plan) (call : Display ω) : Run ω :=
  ((display plan call.parent call.entries).run.run call.before).2

/-- The errors that a call hands to the policy. -/
def Display.added (plan : Plan) (call : Display ω) : List ListingError :=
  (call.after plan).session.policy.errors.drop call.before.session.policy.errors.length

/-- `GivenUp plan before entry call`: the call gives up its list at an entry. It writes nothing, and
hands over the errors about the entries before, and the one about the entry. No descriptor comes of
the list, and no name is held for it. The run goes on as if nothing was to be shown, but as a failed
one. -/
structure GivenUp (plan : Plan) (before : List Entry) (entry : Entry) (call : Display ω) :
    Prop where
  text : call.text plan = ""
  added : call.added plan = Recursion.losses before ++ [.allocation entry.name]
  alone : (call.added plan).filter (fun error => error.kind = .allocation) =
    [.allocation entry.name]
  collected : ∃ session, Settles (Descriptor.collect plan.config call.parent call.entries)
    call.before.session (.error (.allocation entry.name)) session
  held : (call.after plan).session.held = []
  goesOn : Settles (display plan call.parent call.entries) call.before () (call.after plan)
  source : (call.after plan).source = call.before.source
  state : (call.after plan).state = { call.before.state with hasFailed := true }

/-- `call.Beside world plan call'`: the calls are about the same entries, one in the world, and one
in the world with memory for all names.

* `spared`: where there is memory for all that is to be shown, they hand over the same errors and
  write the same, or nothing, below their headings.
* `givenUp`: otherwise the first one gives up its list at the first entry that there is no memory
  for. -/
structure Display.Beside (world : World) (plan : Plan) (call call' : Display ω) : Prop where
  parent : call'.parent = call.parent
  entries : call'.entries = call.entries
  spared : (∀ entry ∈ call.entries.getD [], world.lacks plan.config call.parent entry = false) →
    call'.added plan = call.added plan ∧ ∃ block : Option String,
      call.text plan = block.elim "" (call.heading ++ ·) ∧
      call'.text plan = block.elim "" (call'.heading ++ ·)
  givenUp : ∀ before entry after, call.entries.getD [] = before ++ entry :: after →
    (∀ other ∈ before, world.lacks plan.config call.parent other = false) →
    world.lacks plan.config call.parent entry = true → GivenUp plan before entry call

/-- `turn.Beside world plan turn'`: in the turns the same event is read, and calls are made beside
each other. -/
structure Turn.Beside (world : World) (plan : Plan) (turn turn' : Turn ω) : Prop where
  event : turn'.event = turn.event
  calls : List.Forall₂ (Display.Beside world plan) turn.calls turn'.calls

/-- `Abreast world run run'`: the runs have come to the same point of their walk, one in the world,
and one in the world with memory for all names. -/
structure Abreast (world : World) (run run' : Run ω) : Prop where
  source : run'.source = run.source
  attends : Attends world run
  attends' : Attends world.withMemory run'

section Standard

variable (standard : RendererTable.standard.select plan.config = .ok plan.renderer)
  (sized : plan.config.blockSize ≠ 0)

include standard sized

/-- What a call hands to the policy is what it records. -/
theorem Display.added_eq_recorded {call : Display ω} (informs : world.Informs call.before.session) :
    call.added plan = call.recorded plan := by
  have recorded :=
    (records_display standard sized call.parent call.entries call.before informs).2
  unfold added after
  rw [recorded, List.drop_left]

/-- It depends on the entries, and on whether there is memory for them. -/
theorem Display.added_eq {call : Display ω} (serves : world.Serves call.before.session) :
    call.added plan = world.recorded plan.config call.parent (call.entries.getD []) := by
  rw [added_eq_recorded standard sized serves.informs]
  have same : call.before.session.world.lacks plan.config call.parent =
      world.lacks plan.config call.parent := funext (serves.lacks_eq plan.config call.parent)
  unfold recorded World.recorded World.reached World.lacking?
  rw [same]

/-- What a call comes to without memory. -/
theorem givenUp_of_lacks {call : Display ω} (serves : world.Serves call.before.session)
    {before after : List Entry} {entry : Entry}
    (listed : call.entries.getD [] = before ++ entry :: after)
    (memory : ∀ other ∈ before, world.lacks plan.config call.parent other = false)
    (lacks : world.lacks plan.config call.parent entry = true) :
    GivenUp plan before entry call := by
  obtain ⟨session, collects, learns⟩ :=
    finds_collect sized call.parent call.entries call.before.session serves
  have first : world.lacking? plan.config call.parent (call.entries.getD []) = some entry := by
    rw [listed, lacking?_append memory]
    exact List.find?_cons_of_pos lacks
  rw [first, Option.elim_some] at collects
  have none : call.block? plan = none := by
    unfold Display.block?
    rw [collects]
  have ran := run_display plan call.parent call.entries call.before
  rw [collects] at ran
  dsimp only at ran
  rw [run_report, Policy.handle_lenient learns.informs.lenient, if_neg Bool.false_ne_true] at ran
  have released := held_of_collect_error collects
  have added : call.added plan = Recursion.losses before ++ [.allocation entry.name] := by
    rw [Display.added_eq standard sized serves, listed, recorded_of_lacking memory lacks]
  have others : (Recursion.losses before).filter (fun error => error.kind = .allocation) = [] := by
    refine List.filter_eq_nil_iff.mpr fun error member => ?_
    obtain ⟨lost, -, rfl⟩ := List.mem_map.mp member
    exact Bool.false_ne_true
  refine ⟨?_, added, ?_, ⟨session, collects⟩, ?_, ?_, ?_, ?_⟩
  · rw [Display.text_eq_of_block standard, none]
    rfl
  · rw [added, List.filter_append, others]
    rfl
  · rw [Display.after, ran]
    exact released
  · rw [Settles, Display.after, ran]
  · rw [Display.after, ran]
  · rw [Display.after, ran]

/-- What a call does without memory, beside the same call with memory. -/
theorem beside_display (abreast : Abreast world run run') :
    Display.Beside world plan ⟨parent, entries, run⟩ ⟨parent, entries, run'⟩ := by
  refine ⟨rfl, rfl, fun memory => ?_, fun _ _ _ =>
    givenUp_of_lacks standard sized abreast.attends.serves⟩
  have memory' : ∀ entry ∈ entries.getD [],
      world.withMemory.lacks plan.config parent entry = false :=
    fun entry _ => world.lacks_withMemory plan.config parent entry
  constructor
  · rw [Display.added_eq standard sized abreast.attends'.serves,
      Display.added_eq standard sized abreast.attends.serves, recorded_of_memory memory,
      recorded_of_memory memory']
  have alike := (draws_render standard (Descriptor.measure plan.config parent
      ((entries.getD []).map (judged world plan.config parent)))).alike
    (abreast.attends'.files.trans abreast.attends.files.symm)
    (abreast.attends'.now.trans abreast.attends.now.symm)
  have block := Display.block?_eq ⟨parent, entries, run⟩ standard sized
    abreast.attends.serves
  have block' := Display.block?_eq ⟨parent, entries, run'⟩ standard sized
    abreast.attends'.serves
  rw [World.lacking?_eq_none memory] at block
  rw [World.lacking?_eq_none memory'] at block'
  rw [Display.text_eq_of_block standard, Display.text_eq_of_block standard, block, block']
  cases nothing : ((entries.getD []).filter (Recursion.isShown plan.config parent)).isEmpty with
  | true =>
    rw [if_pos (.inr rfl), if_pos (.inr rfl)]
    exact ⟨.none, rfl, rfl⟩
  | false =>
    have some : ¬((Option.none : Option Entry).isSome = true ∨ false = true) := by decide
    rw [if_neg some, if_neg some]
    exact ⟨.some _, rfl, congrArg (Display.heading ⟨parent, entries, run'⟩ ++ ·) alike.2⟩

end Standard

end Run
end DirList
