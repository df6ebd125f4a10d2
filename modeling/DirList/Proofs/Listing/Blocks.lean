import DirList.Proofs.Layout.Endings
import DirList.Proofs.Listing.Lines
import DirList.Proofs.Listing.Transfer

/-!
# Blocks

The entries of a directory, or the roots, that are to be shown are written as one block, by a
renderer. What stands in a block depends neither on what was written before nor on its heading.

Results:
1. `Job.IsMade.output`: a job writes the same text whatever was written before.
2. `text_eq_of_block`: a call of `display` writes its block under its heading, if it has one.
3. `exists_rendered`: the block of a call that was not given up was written to its end.
4. `endsLine_render`: what a renderer writes for named entries ends with a line.
-/

namespace DirList

open FileSystem

/-! ## What jobs write -/

section Texts

variable {α : Type}

/-- The session with another text before what was written. -/
def Session.led (lead : String) (session : Session) : Session :=
  { session with output := lead ++ session.output }

/-- The session with nothing written. -/
def Session.blank (session : Session) : Session :=
  { session with output := "" }

/-- What a job writes in a session. -/
def Job.text (job : Job α) (session : Session) : String :=
  (job.run.run session.blank).2.output

theorem Session.led_blank (session : Session) : session.blank.led session.output = session := by
  unfold led blank
  rw [String.append_empty]

/-- What is made of single steps does the same whatever was written before. -/
theorem Job.IsMade.commutes_led {job : Job α} (made : job.IsMade) (lead : String) :
    Commutes (fun _ => True) (Session.led lead) job := by
  induction made with
  | pure answer => exact .pure answer
  | throw abort => exact .throw abort
  | bind _ _ first second => exact first.bind second
  | write text =>
    intro session _
    refine ⟨trivial, ?_⟩
    have wrote : (Job.write text).run.run (session.led lead) =
        (.ok (), { session with output := lead ++ session.output ++ text }) := rfl
    rw [wrote, String.append_assoc]
    rfl
  | report error =>
    intro session _
    rw [run_report, run_report]
    exact ⟨trivial, rfl⟩
  | ownerName | groupName | changeHeld | now => exact fun _ _ => ⟨trivial, rfl⟩
  | readLink path =>
    intro session _
    have same : (session.led lead).world = session.world := rfl
    rw [run_access, run_access, same]
    rcases (attempt (Call.readLink path)).run.run session.world.files with ⟨_ | _, _⟩ <;>
      exact ⟨trivial, rfl⟩

/-- A job comes to the same from a session with nothing written. -/
theorem Job.IsMade.run_blank {job : Job α} (made : job.IsMade) (session : Session) :
    job.run.run session =
      ((job.run.run session.blank).1, (job.run.run session.blank).2.led session.output) := by
  have same := (made.commutes_led session.output session.blank trivial).2
  rwa [Session.led_blank] at same

/-- A job writes the same text whatever was written before. -/
theorem Job.IsMade.output {job : Job α} (made : job.IsMade) (session : Session) :
    (job.run.run session).2.output = session.output ++ job.text session := by
  rw [made.run_blank]
  rfl

end Texts

namespace Run

variable {ω : Type}

/-! ## Blocks of calls -/

/-- A block that was written: the directory whose entries it shows, or nothing for the roots, and
its text without the heading. -/
structure Block where
  directory : Option Entry
  text : String

/-- The block that a call writes, if it has anything to show. -/
def Display.block? (plan : Plan) (call : Display ω) : Option Block :=
  match (Descriptor.collect plan.config call.parent call.entries).run.run call.before.session with
  | (.ok (.ok (some descriptor)), session) =>
    some ⟨call.parent, (plan.renderer.render plan.config descriptor).text session⟩
  | _ => none

section Blocks

variable {plan : Plan} {call : Display ω} {block : Block} {run run' : Run ω}
  {parent : Option Entry} {entries : Option (List Entry)}

theorem Display.block?_of_collect {descriptor : Descriptor} {session : Session}
    (collected : Settles (Descriptor.collect plan.config call.parent call.entries)
      call.before.session (.ok (some descriptor)) session) :
    call.block? plan =
      some ⟨call.parent, (plan.renderer.render plan.config descriptor).text session⟩ := by
  unfold block?
  rw [collected]

/-- A block shows the entries of a descriptor. -/
theorem Display.exists_collected (shown : call.block? plan = some block) :
    ∃ descriptor session, Settles (Descriptor.collect plan.config call.parent call.entries)
      call.before.session (.ok (some descriptor)) session ∧
      block = ⟨call.parent, (plan.renderer.render plan.config descriptor).text session⟩ := by
  unfold block? at shown
  split at shown
  next descriptor session collected => exact ⟨descriptor, session, collected, by cases shown; rfl⟩
  next => cases shown

/-- Where nothing is to be shown there is no block. -/
theorem Display.block?_eq_none
    (none : (call.entries.getD []).filter (Recursion.isShown plan.config call.parent) = []) :
    call.block? plan = .none := by
  refine Option.eq_none_iff_forall_not_mem.mpr fun block shown => ?_
  obtain ⟨descriptor, session, collected, -⟩ := exists_collected shown
  cases collect_cases collected with
  | measured some => exact some none

section Standard

variable (standard : RendererTable.standard.select plan.config = .ok plan.renderer)

include standard

/-- A block is what the renderer writes under the heading, whatever was written before. -/
theorem output_headed (parent : Option Entry) (descriptor : Descriptor) (run : Run ω) :
    ((writeBlock plan parent descriptor).run.run run).2.session.output =
      run.session.output ++ (parent.elim "" (header run.state) ++
        (plan.renderer.render plan.config descriptor).text run.session) := by
  have made := isMade_render standard descriptor
  rw [run_writeBlock, output_writeEntries, made.output, ← String.append_assoc]
  rfl

/-- A call writes its block under its heading, if it has one, and nothing otherwise. -/
theorem Display.text_eq_of_block (call : Display ω) :
    call.text plan = (call.block? plan).elim "" fun block => call.heading ++ block.text := by
  have same := output_collect plan.config call.parent call.entries call.before.session
  have ran := run_display plan call.parent call.entries call.before
  refine Display.text_eq ?_
  unfold block?
  rcases collected : (Descriptor.collect plan.config call.parent call.entries).run.run
    call.before.session with ⟨abort | error | _ | descriptor, session⟩
  all_goals rw [collected] at ran same
  · rw [ran, Option.elim_none, String.append_empty]
    exact same
  · rw [ran, Option.elim_none, String.append_empty]
    dsimp only
    rw [run_report]
    exact same
  · rw [ran, Option.elim_none, String.append_empty]
    exact same
  · rw [ran]
    exact (output_headed standard call.parent descriptor { call.before with session }).trans
      (congrArg (· ++ _) same)

omit standard in
/-- What a run knows of itself once it has written a block. -/
theorem state_of_writeBlock {descriptor : Descriptor}
    (settles : Settles (writeBlock plan parent descriptor) run () run') :
    run'.state = { run.state with
      hasOutput := true
      sections := if parent.isSome then run.state.sections + 1 else run.state.sections } := by
  obtain ⟨_, -, rfl⟩ := of_writeBlock settles
  rfl

/-- `Shown plan call run'`: what a call has come to that was not given up.

* `nothing`: it had no block to write.
* `written`: it has written its block. -/
inductive Shown (plan : Plan) (call : Display ω) (run' : Run ω) : Prop
  | nothing : call.block? plan = none →
      run'.session.output = call.before.session.output →
      (∃ hasFailed, run'.state = { call.before.state with hasFailed }) → Shown plan call run'
  | written {block : Block} : call.block? plan = some block →
      run'.session.output = call.before.session.output ++ (call.heading ++ block.text) →
      run'.state = { call.before.state with
        hasOutput := true
        sections := if call.parent.isSome then call.before.state.sections + 1
          else call.before.state.sections } → Shown plan call run'

theorem shown_of_display (settles : Settles (display plan parent entries) run () run') :
    Shown plan ⟨parent, entries, run⟩ run' := by
  have output := output_display standard ⟨parent, entries, run⟩
  have ran : (display plan parent entries).run.run run = (.ok (), run') := settles
  rw [ran, Display.text_eq_of_block standard] at output
  rw [run_display] at ran
  rcases collected : (Descriptor.collect plan.config parent entries).run.run run.session with
    ⟨abort | error | _ | descriptor, session⟩
  all_goals rw [collected] at ran
  · cases ran
  · have none : Display.block? plan ⟨parent, entries, run⟩ = none := by
      unfold Display.block?
      rw [collected]
    rw [none, Option.elim_none, String.append_empty] at output
    refine .nothing none output ⟨true, ?_⟩
    dsimp only at ran
    rw [run_report] at ran
    obtain ⟨-, rfl⟩ := Prod.mk.inj ran
    rfl
  · have none : Display.block? plan ⟨parent, entries, run⟩ = none := by
      unfold Display.block?
      rw [collected]
    rw [none, Option.elim_none, String.append_empty] at output
    cases ran
    exact .nothing none output ⟨run.state.hasFailed, rfl⟩
  · have some : Display.block? plan ⟨parent, entries, run⟩ = _ :=
      Display.block?_of_collect collected
    rw [some, Option.elim_some] at output
    have wrote : Settles (writeBlock plan parent descriptor) { run with session } () run' := ran
    have state := state_of_writeBlock wrote
    exact .written some output state

/-- The block of a call that was not given up was written to its end. -/
theorem Display.exists_rendered (settles : Settles (display plan call.parent call.entries)
      call.before () run') (shown : call.block? plan = some block) :
    ∃ descriptor session session', Settles (Descriptor.collect plan.config call.parent call.entries)
        call.before.session (.ok (some descriptor)) session ∧
      Settles (plan.renderer.render plan.config descriptor) session.blank () session' ∧
      block.text = session'.output := by
  obtain ⟨descriptor, session, collected, rfl⟩ := exists_collected shown
  have made := isMade_render standard descriptor
  have ran : (display plan call.parent call.entries).run.run call.before = (.ok (), run') := settles
  rw [run_display, collected] at ran
  have wrote : Settles (writeBlock plan call.parent descriptor) { call.before with session } ()
    run' := ran
  obtain ⟨_, renders, -⟩ := of_writeBlock wrote
  -- Under its heading or not, the block is written as in the blank session.
  have rendered :
      ((plan.renderer.render plan.config descriptor).run.run session.blank).1 = .ok () := by
    unfold Settles at renders
    rw [made.run_blank] at renders
    exact congrArg Prod.fst renders
  exact ⟨descriptor, session, _, collected, Prod.ext rendered rfl, rfl⟩

end Standard
end Blocks
end Run

/-! ## Lines of blocks -/

section Lines

variable {config : Config} {descriptor : Descriptor} {session session' : Session}

/-- Whatever renderer writes the entries of a descriptor, the last line is ended. -/
theorem endsLine_render {renderer : Renderer}
    (standard : RendererTable.standard.select config = .ok renderer)
    (some : descriptor.visibleEntries ≠ [])
    (named : ∀ entry ∈ descriptor.visibleEntries, entry.name ≠ "")
    (settles : Settles (renderer.render config descriptor) session () session') :
    ∃ text, session'.output = session.output ++ text ∧ EndsLine text := by
  have cells : Layout.cells config descriptor ≠ [] := mt List.map_eq_nil_iff.mp some
  have short : ∀ {text : String}, Settles (Job.write text) session () session' → EndsLine text →
      ∃ text, session'.output = session.output ++ text ∧ EndsLine text := by
    intro text wrote ends
    cases wrote
    exact ⟨text, rfl, ends⟩
  rcases select_cases standard with rfl | rfl | rfl | rfl | ⟨rfl, -⟩
  · exact short settles (Layout.endsLine_lines cells)
  · exact short settles (Layout.endsLine_columns Layout.length_arrangeDown cells)
  · exact short settles (Layout.endsLine_columns Layout.length_arrangeAcross cells)
  · refine short settles (Layout.endsLine_streamFrom (fun cell member => ?_) (.inr cells))
    obtain ⟨entry, inside, rfl⟩ := List.mem_map.mp member
    exact Layout.cell_ne_empty (named entry inside)
  obtain ⟨answer, written, shown, rows, ran, output, each, -, all⟩ :=
    Layout.run_long config descriptor session
  cases ran.symm.trans settles
  have items : shown ≠ [] := (all rfl).trans_ne (mt List.map_eq_nil_iff.mpr some)
  have lines : rows ≠ [] := fun none => items (List.forall₂_nil_right_iff.mp (none ▸ each))
  exact ⟨_, output, (Layout.endsLine_lines lines).append _⟩

end Lines
end DirList
