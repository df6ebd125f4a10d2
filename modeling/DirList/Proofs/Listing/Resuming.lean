import DirList.Proofs.Listing.Backing
import DirList.Proofs.Listing.Stages

/-!
# Sessions that were used before

A session that was used before has written text, recorded errors and kept the names that it was
told. In a world that does not change, steps do in it what they do in a session of their own: names
are the same whether they were kept or not, and what is written and recorded joins what was there.

Results:
1. `Mirrors.bind`: steps that are mirrored one after another.
2. `Job.IsMade.mirrors`: what is made of single steps does the same in a session that was used.
3. `Stage.mirrors_performAll`: so does going through stages.
-/

namespace DirList

open FileSystem

/-! ## Steps that are mirrored -/

section Mirroring

variable {σ α β : Type} {related : σ → σ → Prop}

/-- `Mirrors related step`: from related states the step gives the same answer, and it leaves
related states. -/
def Mirrors (related : σ → σ → Prop) (step : ExceptT Abort (StateM σ) α) : Prop :=
  ∀ state state', related state state' →
    (step.run.run state').1 = (step.run.run state).1 ∧
      related (step.run.run state).2 (step.run.run state').2

namespace Mirrors

theorem pure (answer : α) : Mirrors related (Pure.pure answer : ExceptT Abort (StateM σ) α) :=
  fun _ _ alike => ⟨rfl, alike⟩

theorem throw (abort : Abort) :
    Mirrors related (MonadExcept.throw abort : ExceptT Abort (StateM σ) α) :=
  fun _ _ alike => ⟨rfl, alike⟩

/-- Mirrored steps one after another are mirrored. -/
theorem bind {step : ExceptT Abort (StateM σ) α} {next : α → ExceptT Abort (StateM σ) β}
    (first : Mirrors related step) (second : ∀ answer, Mirrors related (next answer)) :
    Mirrors related (step >>= next) := by
  intro state state' alike
  obtain ⟨same, alike'⟩ := first state state' alike
  rw [run_bind, run_bind]
  generalize step.run.run state' = result' at same alike'
  generalize step.run.run state = result at same alike'
  obtain ⟨answer, after⟩ := result
  obtain ⟨answer', after'⟩ := result'
  cases same
  cases answer with
  | error abort => exact ⟨rfl, alike'⟩
  | ok answer => exact second answer after after' alike'

/-- What is done in the end, however a mirrored step ends. -/
theorem closing {step : ExceptT Abort (StateM σ) α} {change : σ → σ}
    (mirrored : Mirrors related step)
    (changes : ∀ state state', related state state' → related (change state) (change state')) :
    Mirrors related (try step finally modify change) := by
  intro state state' alike
  rw [run_finally, run_finally]
  exact (mirrored state state' alike).imp_right (changes _ _)

/-- A step may look at what is the same in related states. -/
theorem get_bind {γ : Type} (look : σ → γ) (next : γ → ExceptT Abort (StateM σ) β)
    (blind : ∀ state state', related state state' → look state' = look state)
    (second : ∀ seen, Mirrors related (next seen)) :
    Mirrors related (MonadState.get >>= fun state => next (look state)) := by
  intro state state' alike
  have mirrored := second (look state) state state' alike
  have looked : (next (look state')).run.run state' = (next (look state)).run.run state' := by
    rw [blind state state' alike]
  rw [← looked] at mirrored
  exact mirrored

end Mirrors
end Mirroring

/-! ## Used sessions -/

/-- `world.Hosts kind session`: the session looks at a world, asks its databases, in which all
queries for a name end the same way, and hands errors to a policy of a kind. -/
structure World.Hosts (world : World) (kind : PolicyKind) (session : Session) : Prop where
  names : world.HasStaticNames
  files : session.world.files = world.files
  now : session.world.now = world.now
  owners : world.owners.Backs session.world.owners
  groups : world.groups.Backs session.world.groups
  kind : session.policy.kind = kind

theorem World.HasStaticNames.hosts_fresh {world : World} (names : world.HasStaticNames)
    (kind : PolicyKind) : world.forget.Hosts kind (Session.fresh world kind) :=
  ⟨⟨names.owners, names.groups⟩, rfl, rfl, NameTable.backs_forget _, NameTable.backs_forget _, rfl⟩

/-- `Resumes world past alone session`: what `session` has written and recorded since it was `past`
is what `alone` has, and both look at the world under policies of one kind. -/
structure Resumes (world : World) (past alone session : Session) : Prop where
  own : world.Hosts past.policy.kind alone
  used : world.Hosts past.policy.kind session
  output : session.output = past.output ++ alone.output
  errors : session.policy.errors = past.policy.errors ++ alone.policy.errors
  written : session.policy.written = past.policy.written ++ alone.policy.written

/-- A session resumes one that is fresh. -/
theorem World.Hosts.resumes {world : World} {kind : PolicyKind} {past : Session}
    (hosts : world.forget.Hosts kind past) :
    Resumes world.forget past (Session.fresh world kind) past where
  own := hosts.kind ▸ World.HasStaticNames.hosts_fresh ⟨hosts.names.owners, hosts.names.groups⟩ kind
  used := hosts.kind ▸ hosts
  output := String.append_empty.symm
  errors := (List.append_nil _).symm
  written := String.append_empty.symm

/-- Policies of one kind do the same with an error, whatever they have recorded. -/
theorem Policy.handle_resumed {past alone policy : Policy} (kind : policy.kind = alone.kind)
    (errors : policy.errors = past.errors ++ alone.errors)
    (written : policy.written = past.written ++ alone.written) (error : ListingError) :
    (policy.handle error).1 = (alone.handle error).1 ∧
      (policy.handle error).2.errors = past.errors ++ (alone.handle error).2.errors ∧
      (policy.handle error).2.written = past.written ++ (alone.handle error).2.written := by
  have recorded : policy.errors ++ [error] = past.errors ++ (alone.errors ++ [error]) := by
    rw [errors, List.append_assoc]
  unfold Policy.handle
  rw [kind]
  cases alone.kind with
  | collect | failFast => exact ⟨rfl, recorded, written⟩
  | report lead =>
    refine ⟨rfl, recorded, ?_⟩
    dsimp only
    rw [written, String.append_assoc]

/-! ## Jobs -/

section Jobs

variable {world : World} {past alone session : Session}

/-- What is made of single steps does the same in a session that was used before. -/
theorem Job.IsMade.mirrors {α : Type} (static : world.files.IsStatic) {job : Job α}
    (made : job.IsMade) : Mirrors (Resumes world past) job := by
  induction made with
  | pure answer => exact .pure answer
  | throw abort => exact .throw abort
  | bind _ _ first second => exact first.bind second
  | write text =>
    refine fun alone session alike => ⟨rfl, { alike with own := ?_, used := ?_, output := ?_ }⟩
    · exact { alike.own with }
    · exact { alike.used with }
    · show session.output ++ text = past.output ++ (alone.output ++ text)
      rw [alike.output, String.append_assoc]
  | report error =>
    intro alone session alike
    rw [run_report, run_report]
    obtain ⟨stops, errors, written⟩ := Policy.handle_resumed
      (alike.used.kind.trans alike.own.kind.symm) alike.errors alike.written error
    refine ⟨by rw [stops], ?_, ?_, alike.output, errors, written⟩
    · exact { alike.own with kind := (Policy.handle_kind _ _).trans alike.own.kind }
    · exact { alike.used with kind := (Policy.handle_kind _ _).trans alike.used.kind }
  | changeHeld change =>
    exact fun alone session alike =>
      ⟨rfl, { alike with own := { alike.own with }, used := { alike.used with } }⟩
  | ownerName numericOnly id =>
    intro alone session alike
    obtain ⟨answers, backs⟩ := alike.own.owners.resolve numericOnly id
    obtain ⟨answers', backs'⟩ := alike.used.owners.resolve numericOnly id
    refine ⟨congrArg Except.ok (answers'.trans answers.symm), { alike with
      own := { alike.own with owners := backs (.inr alike.own.names.owners) }
      used := { alike.used with owners := backs' (.inr alike.own.names.owners) } }⟩
  | groupName numericOnly id =>
    intro alone session alike
    obtain ⟨answers, backs⟩ := alike.own.groups.resolve numericOnly id
    obtain ⟨answers', backs'⟩ := alike.used.groups.resolve numericOnly id
    refine ⟨congrArg Except.ok (answers'.trans answers.symm), { alike with
      own := { alike.own with groups := backs (.inr alike.own.names.groups) }
      used := { alike.used with groups := backs' (.inr alike.own.names.groups) } }⟩
  | now =>
    intro alone session alike
    refine ⟨?_, alike⟩
    show Except.ok session.world.now.measured = .ok alone.world.now.measured
    rw [alike.used.now, alike.own.now]
  | readLink path =>
    intro alone session alike
    -- Reading a link leaves the files as they are, whatever comes of it.
    have same := (yields_attempt (yields_readLink path) world.files .refl).1.eq_of_isStatic static
    rw [run_access, run_access, alike.used.files, alike.own.files]
    rcases ran : (attempt (Call.readLink path)).run.run world.files with ⟨_ | answer, files⟩
    all_goals
      rw [ran] at same
      refine ⟨rfl, { alike with
        own := { alike.own with files := same }
        used := { alike.used with files := same } }⟩

end Jobs

/-! ## Runs -/

namespace Run

variable {ω : Type} {world : World} {past : Session}

/-- `Run.Resumes world past alone run`: the session of the run resumes that of `alone`, and both
runs are in the same state. -/
structure Resumes (world : World) (past : Session) (alone run : Run ω) : Prop where
  session : DirList.Resumes world past alone.session run.session
  state : run.state = alone.state

theorem mirrors_job {α : Type} {work : Job α}
    (mirrors : Mirrors (DirList.Resumes world past) work) :
    Mirrors (Resumes world past) (job work : Stride ω α) := by
  intro alone run alike
  obtain ⟨same, session⟩ := mirrors alone.session run.session alike.session
  rw [run_job, run_job]
  exact ⟨same, session, alike.state⟩

theorem mirrors_changeState (change : RunState → RunState) :
    Mirrors (Resumes world past) (changeState change : Stride ω Unit) :=
  fun _ _ alike => ⟨rfl, alike.session, congrArg change alike.state⟩

variable (static : world.files.IsStatic)

include static

theorem mirrors_report (error : ListingError) :
    Mirrors (Resumes world past) (report error : Stride ω Unit) :=
  (mirrors_changeState _).bind fun _ => mirrors_job ((Job.IsMade.report error).mirrors static)

/-- Writing the entries of a descriptor does the same in a session that was used before. -/
theorem mirrors_writeEntries {plan : Plan}
    (standard : RendererTable.standard.select plan.config = .ok plan.renderer)
    (parent : Option Entry) (descriptor : Descriptor) :
    Mirrors (Resumes world past) (writeEntries plan parent descriptor : Stride ω Unit) := by
  have renders : Mirrors (Resumes world past)
      (job (plan.renderer.render plan.config descriptor) : Stride ω Unit) :=
    mirrors_job ((isMade_render standard descriptor).mirrors static)
  refine .bind (renders.closing fun alone run alike => ?_) fun _ => mirrors_changeState _
  exact ⟨{ alike.session with
    own := { alike.session.own with }, used := { alike.session.used with } }, alike.state⟩

/-- Displaying entries does the same in a session that was used before. -/
theorem mirrors_display {plan : Plan}
    (standard : RendererTable.standard.select plan.config = .ok plan.renderer)
    (parent : Option Entry) (entries : Option (List Entry)) :
    Mirrors (Resumes world past) (display plan parent entries : Stride ω Unit) := by
  unfold display
  refine (mirrors_job ((isMade_collect plan.config parent entries).mirrors static)).bind
    fun answer => ?_
  rcases answer with error | _ | descriptor
  · exact mirrors_report static error
  · exact .pure ()
  have writes : Mirrors (Resumes world past)
      (writeEntries plan parent descriptor : Stride ω Unit) :=
    mirrors_writeEntries static standard parent descriptor
  cases parent with
  | none => exact writes
  | some directory =>
    have heads : Mirrors (Resumes world past) (do
        job (Job.write (header (← get).state directory)) : Stride ω Unit) :=
      .get_bind Run.state (fun state => job (Job.write (header state directory)))
        (fun _ _ alike => alike.state) fun state =>
          mirrors_job ((Job.IsMade.write (header state directory)).mirrors static)
    exact heads.bind fun _ => writes

end Run

/-! ## Stages -/

namespace Stage

variable {ω : Type} {world : World} {plan : Plan} {past : Session}
  (static : world.files.IsStatic)
  (standard : RendererTable.standard.select plan.config = .ok plan.renderer)

include static standard

/-- Going through stages does the same in a session that was used before. -/
theorem mirrors_performAll (stages : List Stage) :
    Mirrors (Run.Resumes world past) (performAll plan stages : Stride ω Unit) := by
  induction stages with
  | nil => exact .pure ()
  | cons stage stages ih =>
    refine Mirrors.bind ?_ fun _ => ih
    cases stage with
    | report error => exact Run.mirrors_report static error
    | display parent entries => exact Run.mirrors_display static standard parent (some entries)

end Stage
end DirList
