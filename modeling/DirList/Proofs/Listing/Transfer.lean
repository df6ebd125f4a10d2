import DirList.Proofs.Listing.Displaying
import DirList.Proofs.Listing.Making

/-!
# Steps that do not depend on the files

Selecting and rendering entries looks at the file system only to read links. So it leaves a file
system that does not change as it is, and it does the same in another one whose links read alike.

Results:
1. `Commutes.bind`: steps that commute with a change of state, one after another.
2. `Job.Selects.commutes`, `Job.Draws.commutes`: selecting and rendering do the same among other
   files.
3. `Run.transfers_display`: so does displaying entries, whatever the source is.
-/

namespace DirList

open FileSystem

/-! ## Commuting with a change -/

section Commuting

variable {σ ε α β : Type} {keeps : σ → Prop} {move : σ → σ}

/-- `Commutes keeps move step`: the step keeps a property of states, and from such a state it does
the same before and after they are moved. -/
def Commutes (keeps : σ → Prop) (move : σ → σ) (step : ExceptT ε (StateM σ) α) : Prop :=
  ∀ state, keeps state → keeps (step.run.run state).2 ∧
    step.run.run (move state) = ((step.run.run state).1, move (step.run.run state).2)

namespace Commutes

theorem pure (answer : α) : Commutes keeps move (Pure.pure answer : ExceptT ε (StateM σ) α) :=
  fun _ kept => ⟨kept, rfl⟩

theorem throw (error : ε) :
    Commutes keeps move (MonadExcept.throw error : ExceptT ε (StateM σ) α) :=
  fun _ kept => ⟨kept, rfl⟩

/-- A step after another one, which has to commute for the answers that there are. -/
theorem bind_of_settles {step : ExceptT ε (StateM σ) α} {next : α → ExceptT ε (StateM σ) β}
    (first : Commutes keeps move step)
    (second : ∀ state answer state', Settles step state answer state' →
      Commutes keeps move (next answer)) :
    Commutes keeps move (step >>= next) := by
  intro state kept
  obtain ⟨kept', same⟩ := first state kept
  rw [run_bind, run_bind, same]
  rcases ran : step.run.run state with ⟨error | answer, state'⟩
  · rw [ran] at kept'
    exact ⟨kept', rfl⟩
  · rw [ran] at kept'
    exact second state answer state' ran state' kept'

theorem bind {step : ExceptT ε (StateM σ) α} {next : α → ExceptT ε (StateM σ) β}
    (first : Commutes keeps move step) (second : ∀ answer, Commutes keeps move (next answer)) :
    Commutes keeps move (step >>= next) :=
  first.bind_of_settles fun _ answer _ _ => second answer

/-- What is done in the end, whatever a step has come to. -/
theorem closing {step : ExceptT ε (StateM σ) α} {change : σ → σ}
    (commutes : Commutes keeps move step) (kept : ∀ state, keeps state → keeps (change state))
    (same : ∀ state, change (move state) = move (change state)) :
    Commutes keeps move (try step finally modify change) := by
  intro state begins
  obtain ⟨kept', same'⟩ := commutes state begins
  rw [run_finally, run_finally, same', same]
  exact ⟨kept _ kept', rfl⟩

/-- A step may look at what is not moved. -/
theorem get_bind {γ : Type} (look : σ → γ) (next : γ → ExceptT ε (StateM σ) β)
    (blind : ∀ state, look (move state) = look state)
    (second : ∀ seen, Commutes keeps move (next seen)) :
    Commutes keeps move (MonadState.get >>= fun state => next (look state)) := by
  intro state kept
  have commutes := second (look state) state kept
  have looked : (next (look (move state))).run.run (move state) =
      (next (look state)).run.run (move state) := by
    rw [blind]
  rw [← looked] at commutes
  exact commutes

end Commutes
end Commuting

/-! ## Jobs -/

/-- `files.LinkAlike files' path`: in both file systems reading the link at a path changes nothing,
and it reads alike. -/
def FileSystem.LinkAlike (files files' : FileSystem) (path : String) : Prop :=
  ∃ answer, Settles (attempt (Call.readLink path)) files answer files ∧
    Settles (attempt (Call.readLink path)) files' answer files'

/-- `files.LinksAlike files'`: in both file systems reading a link changes nothing, and links read
alike. -/
def FileSystem.LinksAlike (files files' : FileSystem) : Prop :=
  ∀ path, ∃ answer, Settles (attempt (Call.readLink path)) files answer files ∧
    Settles (attempt (Call.readLink path)) files' answer files'

theorem FileSystem.linksAlike_refl {files : FileSystem} (static : files.IsStatic)
    (calm : files.IsCalm) : files.LinksAlike files := by
  intro path
  obtain ⟨answer, settles, -⟩ := settles_of_calm static (yields_attempt (yields_readLink path))
    (spares_attempt (spares_readLink calm path))
  exact ⟨answer, settles, settles⟩

/-- The session among other files. -/
def Session.among (files : FileSystem) (session : Session) : Session :=
  { session with world := { session.world with files } }

theorem Session.among_self (session : Session) : session.among session.world.files = session :=
  rfl

section Jobs

variable {files files' : FileSystem}

/-- Selecting does not depend on the files. -/
theorem Job.Selects.commutes {α : Type} {job : Job α} (selects : job.Selects) :
    Commutes (fun session => session.world.files = files) (Session.among files') job := by
  induction selects with
  | pure answer => exact .pure answer
  | throw abort => exact .throw abort
  | bind _ _ first second => exact first.bind second
  | report error =>
    intro session kept
    rw [run_report, run_report]
    exact ⟨kept, rfl⟩
  | ownerName numericOnly id => exact fun _ kept => ⟨kept, rfl⟩
  | groupName numericOnly id => exact fun _ kept => ⟨kept, rfl⟩
  | changeHeld change => exact fun _ kept => ⟨kept, rfl⟩

/-- Rendering leaves the files as they are, and does the same among other files where the links that
it reads are alike. -/
theorem Job.Draws.commutes {α : Type} {reads : String → Prop} {job : Job α}
    (draws : job.Draws reads) (links : ∀ path, reads path → files.LinkAlike files' path) :
    Commutes (fun session => session.world.files = files) (Session.among files') job := by
  induction draws with
  | pure answer => exact .pure answer
  | throw abort => exact .throw abort
  | bind _ _ first second => exact first.bind second
  | write text => exact fun _ kept => ⟨kept, rfl⟩
  | now => exact fun _ kept => ⟨kept, rfl⟩
  | @readLink path read =>
    intro session kept
    obtain ⟨answer, settles, settles'⟩ := links path read
    rw [run_access, run_access, kept, settles]
    have ran : (attempt (Call.readLink path)).run.run (session.among files').world.files =
        (.ok answer, files') := settles'
    rw [ran]
    exact ⟨rfl, rfl⟩

end Jobs

/-! ## Runs -/

namespace Run

variable {ω : Type} {files files' : FileSystem}

/-- The run among other files and with another source. -/
def among (files : FileSystem) (source : Source ω) (run : Run ω) : Run ω :=
  { run with session := run.session.among files, source }

/-- `Transfers files files' step`: among `files` the step leaves them as they are, and it does the
same among `files'`, whatever its source is. -/
def Transfers {α : Type} (files files' : FileSystem) (step : Stride ω α) : Prop :=
  ∀ source, Commutes (fun run : Run ω => run.session.world.files = files) (among files' source) step

theorem transfers_job {α : Type} {work : Job α}
    (commutes : Commutes (fun session => session.world.files = files) (Session.among files') work) :
    Transfers files files' (job work : Stride ω α) := by
  intro source run kept
  obtain ⟨kept', same⟩ := commutes run.session kept
  have moved : work.run.run (among files' source run).session =
      ((work.run.run run.session).1, (work.run.run run.session).2.among files') := same
  rw [run_job, run_job, moved]
  exact ⟨kept', rfl⟩

theorem transfers_changeState (change : RunState → RunState) :
    Transfers files files' (changeState change : Stride ω Unit) :=
  fun _ _ kept => ⟨kept, rfl⟩

theorem transfers_report (error : ListingError) :
    Transfers files files' (report error : Stride ω Unit) := by
  intro source run kept
  rw [run_report, run_report]
  exact ⟨kept, rfl⟩

theorem transfers_finish : Transfers files files' (finish : Stride ω RunState) := by
  intro source run kept
  rw [run_finish, run_finish]
  exact ⟨kept, rfl⟩

/-- Displaying entries leaves the files as they are, and it does the same among other files where
the links among the entries read alike. -/
theorem transfers_display_of_links {plan : Plan}
    (standard : RendererTable.standard.select plan.config = .ok plan.renderer)
    (parent : Option Entry) {entries : Option (List Entry)}
    (links : ∀ entry ∈ entries.getD [], files.LinkAlike files' entry.accessPath) :
    Transfers files files' (display plan parent entries : Stride ω Unit) := by
  intro source
  refine Commutes.bind_of_settles
    (transfers_job (selects_collect plan.config parent entries).commutes source)
    fun run answer run' collects => ?_
  rcases answer with error | _ | descriptor
  · exact transfers_report error source
  · exact .pure ()
  have collected : Settles (Descriptor.collect plan.config parent entries) run.session
      (.ok (some descriptor)) run'.session := by
    unfold Settles at collects
    rw [run_job] at collects
    obtain ⟨answered, rfl⟩ := Prod.mk.inj collects
    exact Prod.ext answered rfl
  have shown : ∀ path, (∃ entry ∈ descriptor.visibleEntries, entry.accessPath = path) →
      files.LinkAlike files' path := by
    rintro path ⟨entry, visible, rfl⟩
    cases collect_cases collected with
    | measured _ _ same =>
      rw [same] at visible
      exact links entry (List.mem_filter.mp visible).1
  have writes : Commutes (fun run : Run ω => run.session.world.files = files) (among files' source)
      (writeEntries plan parent descriptor) := by
    refine .bind (.closing ?_ (fun _ kept => kept) fun _ => rfl) fun _ =>
      transfers_changeState _ source
    exact transfers_job ((draws_render standard descriptor).commutes shown) source
  cases parent with
  | none => exact writes
  | some directory =>
    have heads : Commutes (fun run : Run ω => run.session.world.files = files)
        (among files' source)
        (do job (Job.write (header (← get).state directory)) : Stride ω Unit) :=
      .get_bind Run.state (fun state => job (Job.write (header state directory))) (fun _ => rfl)
        fun state => transfers_job
          ((.write _ : Job.Draws (fun _ => False) (Job.write (header state directory))).commutes
            fun _ => False.elim) source
    exact heads.bind fun _ => writes

/-- Displaying entries leaves the files as they are, and it does the same among other files whose
links read alike. -/
theorem transfers_display {plan : Plan} (links : files.LinksAlike files')
    (standard : RendererTable.standard.select plan.config = .ok plan.renderer)
    (parent : Option Entry) (entries : Option (List Entry)) :
    Transfers files files' (display plan parent entries : Stride ω Unit) :=
  transfers_display_of_links standard parent fun entry _ => links entry.accessPath

end Run
end DirList
