import DirList.Proofs.Layout.Rows
import DirList.Proofs.Listing.Leaving

/-!
# Lines that are written

What the long layout writes are lines of the entries, from the first one on. Looking where a link
leads can end the job, but whatever comes of it, no line is begun that is not ended.

Results:
1. `run_writeLong`: the line of one entry.
2. `run_long`: the lines of a directory.
-/

namespace DirList

open FileSystem

namespace Layout

/-- `IsLineOf config descriptor now item fields line`: a line that is written for the item, and its
fields before the name. -/
inductive IsLineOf (config : Config) (descriptor : Descriptor) (now : Moment) (item : Item) :
    List String → String → Prop
  | line {status : Status} {field : TimeField} (target : Option String) :
      item.entry.status = some status → config.timeField = .known field →
      IsLineOf config descriptor now item
        (longFields config descriptor now item.entry status
          (item.annotation.getD (numericNames status)) field)
        (longLine config descriptor now item.entry status
          (item.annotation.getD (numericNames status)) field target)

/-- `AreLinesOf config descriptor now items rows`: one line for each item. -/
def AreLinesOf (config : Config) (descriptor : Descriptor) (now : Moment) :
    List Item → List String → Prop :=
  List.Forall₂ fun item row => ∃ fields, IsLineOf config descriptor now item fields row

theorem AreLinesOf.exists_of_mem {config : Config} {descriptor : Descriptor} {now : Moment}
    {items : List Item} {rows : List String}
    (written : AreLinesOf config descriptor now items rows) :
    ∀ row ∈ rows, ∃ item ∈ items, ∃ fields,
      IsLineOf config descriptor now item fields row := by
  induction written with
  | nil => exact List.forall_mem_nil _
  | cons line _ ih =>
    refine List.forall_mem_cons.mpr ⟨⟨_, List.mem_cons_self, line⟩, fun row member => ?_⟩
    obtain ⟨item, inside, line⟩ := ih row member
    exact ⟨item, List.mem_cons_of_mem _ inside, line⟩

variable (config : Config) (descriptor : Descriptor)

/-- Looking at a link writes nothing and does not set the clock. -/
theorem run_linkTarget (entry : Entry) (session : Session) :
    ∃ answer session', (linkTarget entry).run.run session = (answer, session') ∧
      session'.world.now = session.world.now ∧ session'.output = session.output := by
  unfold linkTarget
  rw [run_bind, Job.run_access]
  rcases (attempt (Call.readLink entry.accessPath)).run.run session.world.files with
    ⟨_ | answer, files⟩
  · exact ⟨_, _, rfl, rfl, rfl⟩
  · cases answer <;> exact ⟨_, _, rfl, rfl, rfl⟩

/-- The line of an entry is written, or the job is given up before. -/
theorem run_writeLong (item : Item) (session : Session) :
    ∃ session', session'.world.now = session.world.now ∧
      ((∃ abort, (writeLong config descriptor item).run.run session = (.error abort, session') ∧
        session'.output = session.output) ∨
      ∃ fields line, IsLineOf config descriptor session.world.now.measured item fields line ∧
        Settles (writeLong config descriptor item) session () session' ∧
        session'.output = session.output ++ (line ++ "\n")) := by
  unfold writeLong
  split
  · exact ⟨session, rfl, .inl ⟨_, rfl, rfl⟩⟩
  · exact ⟨session, rfl, .inl ⟨_, rfl, rfl⟩⟩
  next status field known chosen =>
    dsimp only
    split
    · exact ⟨session, rfl, .inl ⟨_, rfl, rfl⟩⟩
    split
    · obtain ⟨answer, session', ran, now, output⟩ := run_linkTarget item.entry session
      unfold Settles
      rw [run_bind, ran, ← now, ← output]
      cases answer with
      | error abort => exact ⟨session', rfl, .inl ⟨abort, rfl, rfl⟩⟩
      | ok target =>
        exact ⟨{ session' with output := session'.output ++ (_ ++ "\n") }, rfl,
          .inr ⟨_, _, .line target known chosen, rfl, rfl⟩⟩
    · exact ⟨{ session with output := session.output ++ (_ ++ "\n") }, rfl,
        .inr ⟨_, _, .line none known chosen, rfl, rfl⟩⟩

/-- Lines are written for the first of some items, and for all of them unless the job is given
up. -/
theorem run_forM_writeLong (items : List Item) (session : Session) :
    ∃ answer session' shown rows,
      (items.forM (writeLong config descriptor)).run.run session = (answer, session') ∧
      session'.output = session.output ++ lines rows ∧
      AreLinesOf config descriptor session.world.now.measured shown rows ∧
      shown <+: items ∧ (answer = .ok () → shown = items) := by
  induction items generalizing session with
  | nil =>
    exact ⟨.ok (), session, [], [], rfl, String.append_empty.symm, .nil, List.prefix_rfl,
      fun _ => rfl⟩
  | cons item items ih =>
    have step : ((item :: items).forM (writeLong config descriptor)).run.run session = _ :=
      run_bind _ _ session
    obtain ⟨middle, now, ⟨abort, ran, output⟩ | ⟨fields, line, written, ran, output⟩⟩ :=
      run_writeLong config descriptor item session
    · rw [ran] at step
      exact ⟨.error abort, middle, [], [], step, output.trans String.append_empty.symm, .nil,
        List.nil_prefix, nofun⟩
    · obtain ⟨answer, session', shown, rows, ran', output', each, first, all⟩ := ih middle
      rw [now] at each
      rw [ran] at step
      refine ⟨answer, session', item :: shown, line :: rows, step.trans ran', ?_,
        .cons ⟨fields, written⟩ each, List.cons_prefix_cons.mpr ⟨rfl, first⟩,
        fun done => congrArg (item :: ·) (all done)⟩
      rw [output', output, lines_cons, String.append_assoc, String.append_assoc]

/-- The long layout writes the total and lines of the entries, and it is through with them if it is
not given up. -/
theorem run_long (session : Session) :
    ∃ answer session' shown rows,
      (long config descriptor).run.run session = (answer, session') ∧
      session'.output = session.output ++ (totalLine config descriptor ++ lines rows) ∧
      AreLinesOf config descriptor session.world.now.measured shown rows ∧
      shown <+: Descriptor.visibleItems descriptor.items ∧
      (answer = .ok () → shown = Descriptor.visibleItems descriptor.items) := by
  have step : (long config descriptor).run.run session = _ :=
    run_bind (Job.write (totalLine config descriptor)) _ session
  obtain ⟨answer, session', shown, rows, ran, output, written⟩ :=
    run_forM_writeLong config descriptor (Descriptor.visibleItems descriptor.items)
      { session with output := session.output ++ totalLine config descriptor }
  exact ⟨answer, session', shown, rows, step.trans ran, output.trans String.append_assoc, written⟩

end Layout
end DirList
