import DirList.Proofs.Listing.Blocks

/-!
# Names that there is no memory for

The databases of a world may run out of memory when they are asked what an owner or a group is
called. Whatever a listing has asked before, the entries of a directory are judged up to the first
one that is to be shown with such a name: the errors of those before it are recorded, and no
descriptor comes of the directory.

Results:
1. `NameTable.Backs.resolve`: what a query comes to in a table that is backed by another one.
2. `finds_judgeAll`: entries are judged up to the first one that there is no memory for.
3. `finds_collect`: what selecting and measuring entries comes to.
-/

namespace DirList

open FileSystem

/-! ## Queries that run out of memory -/

namespace NameTable

/-- Whether there is no memory to find out what a number is called. Where it was found out before,
there is no need to. -/
def exhausts (table : NameTable) (numericOnly : Bool) (id : Int) : Bool :=
  !numericOnly && (table.kept.lookup id).isNone && table.runsOut id

/-- Whether all queries for a number end the same way. -/
def IsStatic (table : NameTable) : Prop :=
  ∀ row ∈ table.exhausting, row.2.isConstant = true

/-- `base.Informs table`: the table asks the database of `base` and keeps what it was told. -/
structure Informs (base table : NameTable) : Prop where
  names : table.names = base.names
  kept : ∀ id name, table.kept.lookup id = some name → name = base.answer id

/-- `base.Backs table`: the table is informed by `base`, and there is no memory for the same
numbers. -/
structure Backs (base table : NameTable) : Prop extends base.Informs table where
  exhausts : ∀ numericOnly id, table.exhausts numericOnly id = base.exhausts numericOnly id
  static : base.IsStatic → table.IsStatic

theorem informs_forget (table : NameTable) : table.Informs table.forget :=
  ⟨rfl, fun _ _ no => nomatch no⟩

theorem backs_forget (table : NameTable) : table.forget.Backs table.forget :=
  ⟨⟨rfl, fun _ _ no => nomatch no⟩, fun _ _ => rfl, id⟩

section Resolving

variable {base table : NameTable}

theorem Informs.answer_eq (informs : base.Informs table) (id : Int) :
    table.answer id = base.answer id := by
  rw [answer, answer, informs.names]

/-- A table that is informed backs itself. -/
theorem Informs.backs (informs : base.Informs table) : table.Backs table where
  names := rfl
  kept := fun id name known => (informs.kept id name known).trans (informs.answer_eq id).symm
  exhausts := fun _ _ => rfl
  static := id

theorem Informs.trans {last : NameTable} (first : base.Informs table)
    (second : table.Informs last) : base.Informs last :=
  ⟨second.names.trans first.names,
    fun id name known => (second.kept id name known).trans (first.answer_eq id)⟩

theorem Informs.ask (informs : base.Informs table) (id : Int) : base.Informs (table.ask id) :=
  ⟨informs.names, informs.kept⟩

/-- A table that has kept one more answer. -/
theorem Informs.keep (informs : base.Informs table) (id : Int) :
    base.Informs { table with kept := (id, table.answer id) :: table.kept } := by
  refine ⟨informs.names, fun other name found => ?_⟩
  rw [List.lookup_cons] at found
  split at found
  next same =>
    cases found
    rw [informs.answer_eq, beq_iff_eq.mp same]
  next => exact informs.kept other name found

theorem Informs.resolve (informs : base.Informs table) (numericOnly : Bool) (id : Int) :
    base.Informs (table.resolve numericOnly id).2 := by
  unfold NameTable.resolve
  cases numericOnly with
  | true => exact informs
  | false =>
    rw [if_neg Bool.false_ne_true]
    cases table.kept.lookup id with
    | some name => exact informs
    | none =>
      dsimp only
      split_ifs
      · exact informs.ask id
      · exact (informs.ask id).keep id

/-- Where all queries end the same way, a query leaves it at that. -/
theorem exhausting_ask (static : table.IsStatic) (id : Int) :
    (table.ask id).exhausting = table.exhausting := by
  refine (List.map_congr_left fun row member => ?_).trans (List.map_id _)
  split_ifs with same
  · rw [Schedule.next_of_isConstant (static row member), ← same]
    rfl
  · rfl

theorem isStatic_ask (static : table.IsStatic) (id : Int) : (table.ask id).IsStatic := by
  unfold IsStatic
  rw [exhausting_ask static]
  exact static

/-- An answer that is kept makes up for the memory that was needed for it. -/
theorem exhausts_keep {id : Int} (memory : table.exhausts false id = false) (numericOnly : Bool)
    (other : Int) {name : String} :
    NameTable.exhausts { table.ask id with kept := (id, name) :: table.kept } numericOnly other =
      table.exhausts numericOnly other := by
  unfold NameTable.exhausts at memory ⊢
  dsimp only
  rw [List.lookup_cons]
  cases same : other == id with
  | true =>
    cases beq_iff_eq.mp same
    cases numericOnly with
    | true => rfl
    | false => exact memory.symm
  | false =>
    congr 1
    exact runsOut_ask (beq_eq_false_iff_ne.mp same)

/-- What a number is called depends on the database only, and so does whether there is memory to
find it out. After a query that runs out of memory the next one may succeed, unless all of them end
the same way. -/
theorem Backs.resolve (backs : base.Backs table) (numericOnly : Bool) (id : Int) :
    (table.resolve numericOnly id).1 =
        (if base.exhausts numericOnly id then none else some (base.called numericOnly id)) ∧
      (base.exhausts numericOnly id = false ∨ base.IsStatic →
        base.Backs (table.resolve numericOnly id).2) := by
  have informs := backs.toInforms.resolve numericOnly id
  have same := backs.exhausts numericOnly id
  rw [← same]
  unfold NameTable.resolve at informs ⊢
  unfold called
  cases numericOnly with
  | true => exact ⟨rfl, fun _ => backs⟩
  | false =>
    rw [if_neg Bool.false_ne_true] at informs ⊢
    cases known : table.kept.lookup id with
    | some name =>
      have memory : table.exhausts false id = false := by
        unfold NameTable.exhausts
        rw [known]
        rfl
      rw [memory, backs.kept id name known]
      exact ⟨rfl, fun _ => backs⟩
    | none =>
      have unknown : table.exhausts false id = table.runsOut id := by
        unfold NameTable.exhausts
        rw [known]
        rfl
      rw [known] at informs
      rw [unknown]
      dsimp only at informs ⊢
      cases out : table.runsOut id with
      | true =>
        rw [if_pos rfl]
        refine ⟨rfl, fun either => ?_⟩
        have static := backs.static (either.resolve_left nofun)
        refine ⟨backs.toInforms.ask id, fun numericOnly other => ?_,
          fun _ => isStatic_ask static id⟩
        rw [← backs.exhausts]
        unfold NameTable.exhausts runsOut
        rw [exhausting_ask static]
        rfl
      | false =>
        rw [out, if_neg Bool.false_ne_true] at informs
        rw [if_neg Bool.false_ne_true]
        refine ⟨congrArg some (backs.toInforms.answer_eq id), fun _ => ⟨informs, ?_, ?_⟩⟩
        · intro numericOnly other
          rw [← backs.exhausts]
          exact exhausts_keep (unknown.trans out) numericOnly other
        · exact fun static => isStatic_ask (backs.static static) id

end Resolving
end NameTable

/-! ## Sessions that serve a world -/

/-- `world.Informs session`: the session asks the databases of the world, and goes on after
errors. -/
structure World.Informs (world : World) (session : Session) : Prop where
  owners : world.owners.Informs session.world.owners
  groups : world.groups.Informs session.world.groups
  lenient : session.policy.kind ≠ .failFast

/-- `world.Serves session`: the session is informed by the world, and there is no memory for the
same names. -/
structure World.Serves (world : World) (session : Session) : Prop where
  owners : world.owners.Backs session.world.owners
  groups : world.groups.Backs session.world.groups
  lenient : session.policy.kind ≠ .failFast

/-- Whether all queries for a name end the same way. -/
structure World.HasStaticNames (world : World) : Prop where
  owners : world.owners.IsStatic
  groups : world.groups.IsStatic

theorem World.informs_fresh (world : World) {kind : PolicyKind} (lenient : kind ≠ .failFast) :
    world.Informs (Session.fresh world kind) :=
  ⟨NameTable.informs_forget _, NameTable.informs_forget _, lenient⟩

theorem World.serves_fresh (world : World) {kind : PolicyKind} (lenient : kind ≠ .failFast) :
    world.forget.Serves (Session.fresh world kind) :=
  ⟨NameTable.backs_forget _, NameTable.backs_forget _, lenient⟩

theorem World.Serves.informs {world : World} {session : Session} (serves : world.Serves session) :
    world.Informs session :=
  ⟨serves.owners.toInforms, serves.groups.toInforms, serves.lenient⟩

/-- A session that is informed serves what it looks at. -/
theorem World.Informs.serves {world : World} {session : Session} (informs : world.Informs session) :
    session.world.Serves session :=
  ⟨informs.owners.backs, informs.groups.backs, informs.lenient⟩

theorem World.Informs.trans {world : World} {session session' : Session}
    (first : world.Informs session) (second : session.world.Informs session') :
    world.Informs session' :=
  ⟨first.owners.trans second.owners, first.groups.trans second.groups, second.lenient⟩

section Informing

variable {world : World} {session : Session} (informs : world.Informs session)

include informs

/-- What is rendered has nothing to do with names. -/
theorem World.Informs.draws (files : FileSystem) (output : String) (held : List Annotation) :
    world.Informs { session.among files with output, held } :=
  ⟨informs.owners, informs.groups, informs.lenient⟩

theorem World.Informs.reports (error : ListingError) :
    world.Informs { session with policy := (session.policy.handle error).2 } := by
  refine ⟨informs.owners, informs.groups, ?_⟩
  dsimp only
  rw [Policy.handle_kind]
  exact informs.lenient

end Informing

section Serving

variable {world : World} {session : Session} (serves : world.Serves session)

include serves

theorem World.Serves.among (files : FileSystem) : world.Serves (session.among files) :=
  ⟨serves.owners, serves.groups, serves.lenient⟩

theorem World.Serves.draws (files : FileSystem) (output : String) (held : List Annotation) :
    world.Serves { session.among files with output, held } :=
  ⟨serves.owners, serves.groups, serves.lenient⟩

theorem World.Serves.reports (error : ListingError) :
    world.Serves { session with policy := (session.policy.handle error).2 } :=
  ⟨serves.owners, serves.groups, (serves.informs.reports error).lenient⟩

end Serving

/-! ## Selecting without memory -/

/-- Whether there is no memory for the names in the long line of an entry. -/
def World.exhausts (world : World) (config : Config) (entry : Entry) : Bool :=
  config.isLong && entry.status.any fun status =>
    world.owners.exhausts config.numericOnly status.owner ||
      world.groups.exhausts config.numericOnly status.group

/-- Whether an entry is to be shown and there is no memory for it. -/
def World.lacks (world : World) (config : Config) (parent : Option Entry) (entry : Entry) : Bool :=
  Recursion.isShown config parent entry && world.exhausts config entry

/-- The entries before the first one that there is no memory for. -/
def World.reached (world : World) (config : Config) (parent : Option Entry)
    (entries : List Entry) : List Entry :=
  entries.takeWhile fun entry => !world.lacks config parent entry

/-- The first entry that there is no memory for. -/
def World.lacking? (world : World) (config : Config) (parent : Option Entry)
    (entries : List Entry) : Option Entry :=
  entries.find? (world.lacks config parent)

/-- A session that serves a world has memory for the same entries. -/
theorem World.Serves.lacks_eq {world : World} {session : Session} (serves : world.Serves session)
    (config : Config) (parent : Option Entry) (entry : Entry) :
    session.world.lacks config parent entry = world.lacks config parent entry := by
  unfold World.lacks World.exhausts
  simp only [serves.owners.exhausts, serves.groups.exhausts]

theorem World.lacking?_eq_none {world : World} {config : Config} {parent : Option Entry}
    {entries : List Entry} (memory : ∀ entry ∈ entries, world.lacks config parent entry = false) :
    world.lacking? config parent entries = none :=
  List.find?_eq_none.mpr fun entry member lacks => by
    rw [memory entry member] at lacks
    cases lacks

/-- There is memory for the names of all owners and groups. -/
structure World.HasMemory (world : World) : Prop where
  owners : world.owners.HasMemory
  groups : world.groups.HasMemory

section Memory

variable {world : World} (memory : world.HasMemory)

include memory

/-- Where there is memory, a query always has an answer. -/
theorem World.HasMemory.exhausts (numericOnly : Bool) (id : Int) :
    world.owners.exhausts numericOnly id = false ∧
      world.groups.exhausts numericOnly id = false := by
  unfold NameTable.exhausts
  rw [memory.owners, memory.groups]
  exact ⟨Bool.and_false _, Bool.and_false _⟩

theorem World.HasMemory.lacks (config : Config) (parent : Option Entry) (entry : Entry) :
    world.lacks config parent entry = false := by
  unfold World.lacks World.exhausts
  simp only [memory.exhausts, Bool.or_self, Option.any_false, Bool.and_false]

/-- Where there is memory, it makes no difference which names are kept. -/
theorem World.HasMemory.serves_fresh {kind : PolicyKind} (lenient : kind ≠ .failFast) :
    world.Serves (Session.fresh world kind) := by
  have backs : ∀ {table : NameTable}, table.HasMemory → table.Backs table.forget := by
    refine fun {table} memory => ⟨table.informs_forget, fun numericOnly other => ?_, id⟩
    have forgets : table.forget.runsOut other = table.runsOut other := rfl
    unfold NameTable.exhausts
    rw [forgets, memory, Bool.and_false, Bool.and_false]
  exact ⟨backs memory.owners, backs memory.groups, lenient⟩

theorem World.HasMemory.lacking? (config : Config) (parent : Option Entry)
    (entries : List Entry) : world.lacking? config parent entries = none :=
  World.lacking?_eq_none fun entry _ => memory.lacks config parent entry

end Memory

/-- `Learns world spared errors session session'`: the session has handed errors to its policy and
asked for names, and nothing else. If there was memory for those names, or if all queries end the
same way, it goes on serving the world. -/
structure Learns (world : World) (spared : Prop) (errors : List ListingError)
    (session session' : Session) : Prop where
  informs : world.Informs session'
  serves : spared ∨ world.HasStaticNames → world.Serves session'
  files : session'.world.files = session.world.files
  now : session'.world.now = session.world.now
  output : session'.output = session.output
  policy : session'.policy = session.policy.handleAll errors

/-- `Finds world spared job answer errors`: in every session that serves the world, the job gives
`answer` and reports `errors`, and there is memory for all names that it asks for if `spared`. -/
def Finds {α : Type} (world : World) (spared : Prop) (job : Job α) (answer : α)
    (errors : List ListingError) : Prop :=
  ∀ session, world.Serves session →
    ∃ session', Settles job session answer session' ∧ Learns world spared errors session session'

section Finding

variable {α β : Type} {world : World} {config : Config} {spared : Prop}

theorem Finds.pure (answer : α) : Finds world spared (Pure.pure answer) answer [] :=
  fun session serves =>
    ⟨session, .pure answer session, serves.informs, fun _ => serves, rfl, rfl, rfl, rfl⟩

theorem Finds.imp {spared' : Prop} {job : Job α} {answer : α} {errors : List ListingError}
    (finds : Finds world spared job answer errors) (imp : spared' → spared) :
    Finds world spared' job answer errors := by
  intro session serves
  obtain ⟨session', settles, learns⟩ := finds session serves
  exact ⟨session', settles,
    { learns with serves := fun either => learns.serves (either.imp_left imp) }⟩

/-- Jobs one after another, the first of which has memory for all names that it asks for. -/
theorem Finds.bind {job : Job α} {next : α → Job β} {answer : α} {answer' : β}
    {errors errors' : List ListingError} (first : Finds world True job answer errors)
    (second : Finds world spared (next answer) answer' errors') :
    Finds world spared (job >>= next) answer' (errors ++ errors') := by
  intro session serves
  obtain ⟨middle, settles, learns⟩ := first session serves
  obtain ⟨session', settles', learns'⟩ := second middle (learns.serves (.inl trivial))
  refine ⟨session', settles.bind settles', learns'.informs, learns'.serves,
    learns'.files.trans learns.files, learns'.now.trans learns.now,
    learns'.output.trans learns.output, ?_⟩
  rw [learns'.policy, learns.policy, Policy.handleAll, Policy.handleAll, Policy.handleAll,
    List.foldl_append]

/-- A job that reports nothing after another one. -/
theorem Finds.bind_quiet {job : Job α} {next : α → Job β} {answer : α} {answer' : β}
    {errors : List ListingError} (first : Finds world True job answer errors)
    (second : Finds world spared (next answer) answer' []) :
    Finds world spared (job >>= next) answer' errors := by
  have both := first.bind second
  rwa [List.append_nil] at both

/-- A job after which there is nothing to be done, be it for lack of memory, but to hold names or to
release them. -/
theorem Finds.stop {job : Job α} {next : α → Job β} {answer : α} {answer' : β}
    {errors : List ListingError} (first : Finds world spared job answer errors)
    (last : ∀ session, ∃ held, Settles (next answer) session answer' { session with held }) :
    Finds world spared (job >>= next) answer' errors := by
  intro session serves
  obtain ⟨session', settles, learns⟩ := first session serves
  obtain ⟨held, settles'⟩ := last session'
  refine ⟨_, settles.bind settles', ⟨learns.informs.owners, learns.informs.groups,
    learns.informs.lenient⟩, fun either => ?_, learns.files, learns.now, learns.output,
    learns.policy⟩
  have serves' := learns.serves either
  exact ⟨serves'.owners, serves'.groups, serves'.lenient⟩

theorem finds_report (error : ListingError) :
    Finds world spared (Job.report error) () [error] := by
  intro session serves
  refine ⟨{ session with policy := (session.policy.handle error).2 }, ?_,
    serves.informs.reports error, fun _ => serves.reports error, rfl, rfl, rfl, rfl⟩
  rw [Settles, Job.run_report, Policy.handle_lenient serves.lenient]
  rfl

theorem finds_ownerName (numericOnly : Bool) (id : Int) :
    Finds world (world.owners.exhausts numericOnly id = false) (Job.ownerName numericOnly id)
      (if world.owners.exhausts numericOnly id then none
        else some (world.owners.called numericOnly id)) [] := by
  intro session serves
  obtain ⟨answers, backs⟩ := serves.owners.resolve numericOnly id
  have informs := serves.owners.toInforms.resolve numericOnly id
  rw [← answers]
  exact ⟨_, rfl, ⟨informs, serves.groups.toInforms, serves.lenient⟩, fun either =>
    ⟨backs (either.imp_right World.HasStaticNames.owners), serves.groups, serves.lenient⟩,
    rfl, rfl, rfl, rfl⟩

theorem finds_groupName (numericOnly : Bool) (id : Int) :
    Finds world (world.groups.exhausts numericOnly id = false) (Job.groupName numericOnly id)
      (if world.groups.exhausts numericOnly id then none
        else some (world.groups.called numericOnly id)) [] := by
  intro session serves
  obtain ⟨answers, backs⟩ := serves.groups.resolve numericOnly id
  have informs := serves.groups.toInforms.resolve numericOnly id
  rw [← answers]
  exact ⟨_, rfl, ⟨serves.owners.toInforms, informs, serves.lenient⟩, fun either =>
    ⟨serves.owners, backs (either.imp_right World.HasStaticNames.groups), serves.lenient⟩,
    rfl, rfl, rfl, rfl⟩

theorem finds_annotate (entry : Entry) (status : Status) :
    let exhausted := world.owners.exhausts config.numericOnly status.owner ||
      world.groups.exhausts config.numericOnly status.group
    Finds world (exhausted = false) (Descriptor.annotate config entry status)
      (if exhausted then .error (.allocation entry.name)
        else .ok (Recursion.names world config status)) [] := by
  have owner : Finds world _ (Job.ownerName config.numericOnly status.owner) _ _ :=
    finds_ownerName config.numericOnly status.owner
  have group : Finds world _ (Job.groupName config.numericOnly status.group) _ _ :=
    finds_groupName config.numericOnly status.group
  cases lost : world.owners.exhausts config.numericOnly status.owner with
  | true =>
    rw [lost] at owner
    have stopped : Finds world _ (Descriptor.annotate config entry status)
        (.error (.allocation entry.name)) [] := owner.stop fun _ => ⟨_, rfl⟩
    exact stopped.imp nofun
  | false =>
    rw [lost] at owner
    refine (owner.imp fun _ => rfl).bind ?_
    rw [Bool.false_or]
    cases lost' : world.groups.exhausts config.numericOnly status.group with
    | true =>
      rw [lost'] at group
      exact group.stop fun _ => ⟨_, rfl⟩
    | false =>
      rw [lost'] at group
      exact group.stop fun _ => ⟨_, rfl⟩

variable (sized : config.blockSize ≠ 0) (parent : Option Entry)

include sized

/-- What is decided on an entry, unless there is no memory for it. -/
theorem finds_judge (entry : Entry) :
    Finds world (world.lacks config parent entry = false) (Descriptor.judge config parent entry)
      (if world.lacks config parent entry then .error (.allocation entry.name)
        else .ok (judged world config parent entry)) (Recursion.losses [entry]) := by
  unfold Descriptor.judge judged Recursion.losses World.lacks
  by_cases lost : entry.kind = .error ∨ entry.kind = .noStatus
  · have isLost : Recursion.isLost entry = true := by simpa [Recursion.isLost] using lost
    rw [if_pos lost, Recursion.isShown, isLost, List.filter_cons_of_pos isLost]
    exact (finds_report _).bind_quiet (.pure _)
  have isKept : Recursion.isLost entry = false := by simpa [Recursion.isLost] using lost
  rw [if_neg lost, Recursion.isShown, isKept, List.filter_cons_of_neg (by simp [isKept])]
  cases selected : Descriptor.isSelected config parent entry with
  | false => exact .pure _
  | true =>
    simp only [Bool.not_true, Bool.not_false, Bool.and_true, Bool.true_and, Bool.false_eq_true,
      if_false, if_true]
    unfold Recursion.item World.exhausts
    cases known : entry.status with
    | none =>
      rw [Option.map_none, ite_self, Option.any_none, Bool.and_false]
      exact .pure _
    | some status =>
      dsimp only
      rw [if_neg (by simp [sized]), Option.any_some]
      cases config.isLong with
      | false => exact .pure _
      | true =>
        rw [Bool.true_and]
        refine (finds_annotate entry status).stop fun _ => ?_
        cases world.owners.exhausts config.numericOnly status.owner ||
          world.groups.exhausts config.numericOnly status.group <;> exact ⟨_, rfl⟩

/-- What is decided on entries, up to the first one that there is no memory for. -/
theorem finds_judgeAll (entries : List Entry) :
    Finds world (world.lacking? config parent entries = none)
      (Descriptor.judgeAll config parent entries)
      ((world.lacking? config parent entries).elim (.ok (entries.map (judged world config parent)))
        fun entry => .error (.allocation entry.name))
      (Recursion.losses (world.reached config parent entries)) := by
  induction entries with
  | nil => exact .pure _
  | cons entry rest ih =>
    have judges : Finds world _ (Descriptor.judge config parent entry) _ _ :=
      finds_judge sized parent entry
    unfold World.lacking? World.reached at ih ⊢
    rw [List.find?_cons, List.takeWhile_cons]
    cases lacks : world.lacks config parent entry with
    | true =>
      have kept : Recursion.isLost entry = false := by
        unfold World.lacks Recursion.isShown at lacks
        revert lacks
        cases Recursion.isLost entry <;> simp
      have none : Recursion.losses [entry] = [] := by
        rw [Recursion.losses, List.filter_cons_of_neg (by simp [kept])]
        rfl
      rw [lacks, none] at judges
      have stopped : Finds world _ (Descriptor.judgeAll config parent (entry :: rest))
          (.error (.allocation entry.name)) [] := judges.stop fun _ => ⟨_, rfl⟩
      exact stopped.imp nofun
    | false =>
      rw [lacks] at judges
      rw [Bool.not_false, if_pos rfl, Recursion.losses_cons]
      refine (judges.imp fun _ => rfl).bind (ih.stop fun _ => ?_)
      cases rest.find? (world.lacks config parent) <;> exact ⟨_, rfl⟩

/-- What selecting and measuring entries comes to: an error about the first entry that there is no
memory for, or what comes of them in a world with memory for all. -/
theorem finds_collect (entries : Option (List Entry)) :
    Finds world (world.lacking? config parent (entries.getD []) = none)
      (Descriptor.collect config parent entries)
      ((world.lacking? config parent (entries.getD [])).elim
        (.ok (if ((entries.getD []).filter (Recursion.isShown config parent)).isEmpty then none
          else some (Descriptor.measure config parent
            ((entries.getD []).map (judged world config parent)))))
        fun entry => .error (.allocation entry.name))
      (Recursion.losses (world.reached config parent (entries.getD []))) := by
  refine (finds_judgeAll sized parent (entries.getD [])).stop fun _ => ?_
  cases world.lacking? config parent (entries.getD []) with
  | some entry => exact ⟨_, rfl⟩
  | none =>
    dsimp only [Option.elim_none]
    rw [visibleItems_judged, List.isEmpty_map]
    split
    · exact ⟨_, rfl⟩
    · rw [if_neg (by simp [sized])]
      exact ⟨_, rfl⟩

end Finding
end DirList
