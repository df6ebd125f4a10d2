import DirList.Proofs.Listing.Recursion
import DirList.Proofs.Walk.Description

/-!
# What jobs write

A job in a world that does not change writes a text and hands errors to the policy, whatever was
written and reported before.

Results:
1. `Policy.handleAll_errors`: every policy records the errors in their order.
2. `NameTable.Answers.resolve`: names do not depend on what was asked before.
3. `Does.bind`: jobs one after another.
-/

namespace DirList

open FileSystem

/-! ## Worlds that do not change -/

namespace NameTable

/-- There is memory for a query for any number. Its answer is kept, and so it is asked for once. -/
def HasMemory (table : NameTable) : Prop :=
  ∀ id, table.runsOut id = false

/-- A query for a number tells nothing of the queries for another one. -/
theorem runsOut_ask {table : NameTable} {id other : Int} (different : other ≠ id) :
    (table.ask id).runsOut other = table.runsOut other := by
  unfold runsOut ask
  congr 2
  dsimp only
  induction table.exhausting with
  | nil => rfl
  | cons row rows ih =>
    rw [List.map_cons, List.lookup_cons, List.lookup_cons, ih]
    split_ifs with same
    · rw [same, beq_eq_false_iff_ne.mpr different]
    · rfl

end NameTable

/-- Neither the failures of the file system nor the answers to any question change from call to
call, there is memory for all answers, and nothing is interrupted. -/
structure World.IsSteady (world : World) : Prop where
  static : world.files.IsStatic
  calm : world.files.IsCalm
  owners : world.owners.HasMemory
  groups : world.groups.HasMemory

namespace NameTable

/-- `Answers base table`: the table gives the answers of the database of `base`. -/
structure Answers (base table : NameTable) : Prop where
  names : table.names = base.names
  memory : ∀ id, table.kept.lookup id = none → table.runsOut id = false
  kept : ∀ id name, table.kept.lookup id = some name → name = base.answer id

theorem Answers.resolve {base table : NameTable} (answers : Answers base table)
    (numericOnly : Bool) (id : Int) :
    ∃ table', table.resolve numericOnly id = (some (base.called numericOnly id), table') ∧
      Answers base table' := by
  unfold NameTable.resolve called
  split
  · exact ⟨table, rfl, answers⟩
  · have answer : table.answer id = base.answer id := by
      rw [NameTable.answer, NameTable.answer, answers.names]
    cases known : table.kept.lookup id with
    | some name => exact ⟨table, by rw [answers.kept id name known], answers⟩
    | none =>
      dsimp only
      rw [answers.memory id known, if_neg Bool.false_ne_true]
      refine ⟨_, Prod.ext (congrArg some answer) rfl, answers.names, fun other unknown => ?_,
        fun other name found => ?_⟩
      · rw [List.lookup_cons] at unknown
        split at unknown
        · cases unknown
        next different =>
          exact (runsOut_ask (beq_eq_false_iff_ne.mp different)).trans
            (answers.memory other unknown)
      · rw [List.lookup_cons] at found
        split at found
        next same =>
          cases found
          rw [answer, beq_iff_eq.mp same]
        next => exact answers.kept other name found

end NameTable

/-- The policy after errors, the first one first. -/
def Policy.handleAll (policy : Policy) (errors : List ListingError) : Policy :=
  errors.foldl (fun policy error => (policy.handle error).2) policy

theorem Policy.handle_kind (policy : Policy) (error : ListingError) :
    (policy.handle error).2.kind = policy.kind := by
  unfold Policy.handle Policy.record
  cases policy.kind <;> rfl

/-- A policy that goes on after errors hands none of them back. -/
theorem Policy.handle_lenient {policy : Policy} (lenient : policy.kind ≠ .failFast)
    (error : ListingError) : (policy.handle error).1 = false := by
  unfold Policy.handle
  split
  · rfl
  · rfl
  next strict => exact absurd strict lenient

/-- Every policy records the errors in their order. -/
theorem Policy.handleAll_errors (policy : Policy) (errors : List ListingError) :
    (policy.handleAll errors).errors = policy.errors ++ errors := by
  have handled : ∀ (policy : Policy) (error : ListingError),
      (policy.handle error).2.errors = policy.errors ++ [error] := by
    intro policy error
    unfold Policy.handle Policy.record
    cases policy.kind <;> rfl
  induction errors generalizing policy with
  | nil => exact (List.append_nil _).symm
  | cons error errors ih =>
    refine (ih _).trans ?_
    rw [handled, List.append_assoc, List.singleton_append]

/-- `world.Sees session`: the session looks at the world, and goes on after errors. -/
structure World.Sees (world : World) (session : Session) : Prop where
  files : session.world.files = world.files
  now : session.world.now = world.now
  owners : world.owners.Answers session.world.owners
  groups : world.groups.Answers session.world.groups
  lenient : session.policy.kind ≠ .failFast

/-- A session sees its world at first. -/
theorem World.IsSteady.sees {world : World} (steady : world.IsSteady) {kind : PolicyKind}
    (lenient : kind ≠ .failFast) : world.Sees (Session.fresh world kind) where
  files := rfl
  now := rfl
  owners := ⟨rfl, fun id _ => steady.owners id, fun _ _ no => nomatch no⟩
  groups := ⟨rfl, fun id _ => steady.groups id, fun _ _ no => nomatch no⟩
  lenient := lenient

/-- `Comes world text errors session session'`: after more text and errors, `session` has become
`session'`. -/
structure Comes (world : World) (text : String) (errors : List ListingError)
    (session session' : Session) : Prop where
  sees : world.Sees session'
  output : session'.output = session.output ++ text
  policy : session'.policy = session.policy.handleAll errors

theorem Comes.refl {world : World} {session : Session} (sees : world.Sees session) :
    Comes world "" [] session session :=
  ⟨sees, String.append_empty.symm, rfl⟩

theorem Comes.trans {world : World} {text text' : String} {errors errors' : List ListingError}
    {session session' session'' : Session} (first : Comes world text errors session session')
    (second : Comes world text' errors' session' session'') :
    Comes world (text ++ text') (errors ++ errors') session session'' := by
  refine ⟨second.sees, ?_, ?_⟩
  · rw [second.output, first.output, String.append_assoc]
  · rw [second.policy, first.policy, Policy.handleAll, Policy.handleAll, Policy.handleAll,
      List.foldl_append]

/-! ## Jobs -/

/-- `Does world job result text errors`: in every session that looks at the world, the job comes to
`result`, writes `text` and reports `errors`. -/
def Does {α : Type} (world : World) (job : Job α) (result : Except Abort α) (text : String)
    (errors : List ListingError) : Prop :=
  ∀ session, world.Sees session →
    ∃ session', job.run.run session = (result, session') ∧
      Comes world text errors session session'

section Jobs

variable {world : World} {α β : Type}

theorem Does.pure (answer : α) : Does world (Pure.pure answer) (.ok answer) "" [] :=
  fun session sees => ⟨session, rfl, .refl sees⟩

theorem Does.throw (abort : Abort) :
    Does world (MonadExcept.throw abort : Job α) (.error abort) "" [] :=
  fun session sees => ⟨session, rfl, .refl sees⟩

theorem Does.bind {job : Job α} {next : α → Job β} {answer : α} {result : Except Abort β}
    {text text' : String} {errors errors' : List ListingError}
    (first : Does world job (.ok answer) text errors)
    (second : Does world (next answer) result text' errors') :
    Does world (job >>= next) result (text ++ text') (errors ++ errors') := by
  intro session sees
  obtain ⟨session', ran, comes⟩ := first session sees
  obtain ⟨session'', ran', comes'⟩ := second session' comes.sees
  exact ⟨session'', by rw [run_bind, ran, ← ran'], comes.trans comes'⟩

/-- What comes after a job that is given up is not done. -/
theorem Does.stop {job : Job α} {next : α → Job β} {abort : Abort} {text : String}
    {errors : List ListingError} (first : Does world job (.error abort) text errors) :
    Does world (job >>= next) (.error abort) text errors := by
  intro session sees
  obtain ⟨session', ran, comes⟩ := first session sees
  exact ⟨session', by rw [run_bind, ran], comes⟩

/-- A job that writes nothing before another one. -/
theorem Does.silent_bind {job : Job α} {next : α → Job β} {answer : α}
    {result : Except Abort β} {text : String} {errors errors' : List ListingError}
    (first : Does world job (.ok answer) "" errors)
    (second : Does world (next answer) result text errors') :
    Does world (job >>= next) result text (errors ++ errors') := by
  have both := first.bind second
  rwa [String.empty_append] at both

/-- A silent job before another one. -/
theorem Does.quiet_bind {job : Job α} {next : α → Job β} {answer : α}
    {result : Except Abort β} {text : String} {errors : List ListingError}
    (first : Does world job (.ok answer) "" [])
    (second : Does world (next answer) result text errors) :
    Does world (job >>= next) result text errors :=
  first.silent_bind second

/-- A silent job after another one. -/
theorem Does.bind_quiet {job : Job α} {next : α → Job β} {answer : α}
    {result : Except Abort β} {text : String} {errors : List ListingError}
    (first : Does world job (.ok answer) text errors)
    (second : Does world (next answer) result "" []) :
    Does world (job >>= next) result text errors := by
  have both := first.bind second
  rwa [String.append_empty, List.append_nil] at both

theorem does_write (text : String) : Does world (Job.write text) (.ok ()) text [] := by
  intro session sees
  exact ⟨{ session with output := session.output ++ text }, rfl,
    ⟨sees.files, sees.now, sees.owners, sees.groups, sees.lenient⟩, rfl, rfl⟩

theorem does_report (error : ListingError) : Does world (Job.report error) (.ok ()) "" [error] := by
  intro session sees
  have goesOn := Policy.handle_lenient sees.lenient error
  refine ⟨{ session with policy := (session.policy.handle error).2 }, ?_,
    ⟨sees.files, sees.now, sees.owners, sees.groups, ?_⟩, String.append_empty.symm, rfl⟩
  · have ran : (Job.report error).run.run session =
        ((if (session.policy.handle error).1 then throw (.listing error) else pure () : Job Unit)
          ).run.run { session with policy := (session.policy.handle error).2 } := rfl
    rw [ran, goesOn]
    rfl
  · dsimp only
    rw [Policy.handle_kind]
    exact sees.lenient

theorem does_ownerName (numericOnly : Bool) (id : Int) :
    Does world (Job.ownerName numericOnly id)
      (.ok (some (world.owners.called numericOnly id))) "" [] := by
  intro session sees
  obtain ⟨owners, resolved, answers⟩ := sees.owners.resolve numericOnly id
  refine ⟨{ session with world := { session.world with owners } }, ?_,
    ⟨sees.files, sees.now, answers, sees.groups, sees.lenient⟩, String.append_empty.symm, rfl⟩
  have ran : (Job.ownerName numericOnly id).run.run session =
      (.ok (session.world.owners.resolve numericOnly id).1, { session with
        world := { session.world with
          owners := (session.world.owners.resolve numericOnly id).2 } }) := rfl
  rw [ran, resolved]

theorem does_groupName (numericOnly : Bool) (id : Int) :
    Does world (Job.groupName numericOnly id)
      (.ok (some (world.groups.called numericOnly id))) "" [] := by
  intro session sees
  obtain ⟨groups, resolved, answers⟩ := sees.groups.resolve numericOnly id
  refine ⟨{ session with world := { session.world with groups } }, ?_,
    ⟨sees.files, sees.now, sees.owners, answers, sees.lenient⟩, String.append_empty.symm, rfl⟩
  have ran : (Job.groupName numericOnly id).run.run session =
      (.ok (session.world.groups.resolve numericOnly id).1, { session with
        world := { session.world with
          groups := (session.world.groups.resolve numericOnly id).2 } }) := rfl
  rw [ran, resolved]

theorem does_changeHeld (change : List Annotation → List Annotation) :
    Does world (Job.changeHeld change) (.ok ()) "" [] :=
  fun session sees => ⟨{ session with held := change session.held }, rfl,
    ⟨sees.files, sees.now, sees.owners, sees.groups, sees.lenient⟩, String.append_empty.symm, rfl⟩

theorem does_now : Does world Job.now (.ok world.now.measured) "" [] := by
  intro session sees
  refine ⟨session, ?_, .refl sees⟩
  rw [← sees.now]
  rfl

/-- An action on the files leaves a session as it is, if it leaves them as they are. -/
theorem settles_access {session : Session} {action : Access α} {answer : α}
    (settles : Settles action session.world.files answer session.world.files) :
    Settles (Job.access action) session answer session := by
  refine (Settles.get session).bind ?_
  have ran : action.run.run session.world.files = (.ok answer, session.world.files) := settles
  rw [ran]
  exact (Settles.set _ _).bind (.pure _ _)

theorem does_access {action : Access α} {answer : α}
    (settles : Settles action world.files answer world.files) :
    Does world (Job.access action) (.ok answer) "" [] := by
  intro session sees
  rw [← sees.files] at settles
  exact ⟨session, settles_access settles, .refl sees⟩

end Jobs
end DirList
