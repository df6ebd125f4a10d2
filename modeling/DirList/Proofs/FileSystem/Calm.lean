import DirList.Proofs.FileSystem.Resolution

/-!
# Calls that are not interrupted

Where no schedule of failures holds an interrupt, no call is interrupted, however worn the schedules
are.

Results:
1. `IsCalm.wears`: schedules stay without interrupts.
2. `spares_status`, `spares_scan`, `spares_isDirectory`: calls are not interrupted.
3. `spares_attempt`: nor is an action that only attempts such calls.
-/

namespace DirList

namespace FileSystem

/-- Whether no call is ever interrupted. -/
def IsCalm (files : FileSystem) : Prop :=
  ∀ node ∈ files.nodes, ∀ operation,
    some .interrupt ∉ (node.faults.schedule operation).now ::
      (node.faults.schedule operation).later

/-- `files.Spares action error`: in no state of wear does the action end with the error. -/
def Spares {ε α : Type} (files : FileSystem) (action : ExceptT ε (StateM FileSystem) α)
    (error : ε) : Prop :=
  ∀ files', files.Wears files' → (action.run.run files').1 ≠ .error error

/-! ## Schedules -/

variable {files files' : FileSystem}

theorem schedule_setSchedule (faults : Faults) (operation other : Operation)
    (schedule : Schedule Fault) : (faults.setSchedule operation schedule).schedule other =
      if other = operation then schedule else faults.schedule other := by
  cases operation <;> cases other <;> rfl

theorem IsCalm.node (calm : files.IsCalm) (id : NodeId) (operation : Operation) :
    some .interrupt ∉ ((files.node id).faults.schedule operation).now ::
      ((files.node id).faults.schedule operation).later := by
  by_cases inside : id < files.nodes.size
  · refine calm _ ?_ operation
    simp [FileSystem.node, inside]
  · have absent : files.node id = default := by
      simp [FileSystem.node, inside]
    rw [absent]
    cases operation <;> decide

theorem IsCalm.worn (calm : files.IsCalm) (id : NodeId) (operation : Operation) :
    (files.worn id operation).IsCalm := by
  have here := calm.node id
  unfold FileSystem.worn
  split
  · exact calm
  next now later schedule =>
    intro node member other
    rcases Array.mem_or_eq_of_mem_setIfInBounds member with before | rfl
    · exact calm node before other
    · dsimp only
      rw [schedule_setSchedule]
      split
      · have whole := here operation
        rw [schedule] at whole
        exact fun no => whole (List.mem_cons_of_mem _ no)
      · exact here other

theorem IsCalm.wears (calm : files.IsCalm) (wears : files.Wears files') : files'.IsCalm := by
  induction wears with
  | refl => exact calm
  | ask id operation _ ih => exact ih.worn id operation

namespace Spares

variable {ε α β : Type} {error : ε}

theorem pure {answer : α} :
    files.Spares (Pure.pure answer : ExceptT ε (StateM FileSystem) α) error :=
  fun _ _ no => nomatch no

theorem throw {other : ε} (differs : other ≠ error) :
    files.Spares (MonadExcept.throw other : ExceptT ε (StateM FileSystem) α) error := by
  intro files' _ same
  cases same
  exact differs rfl

theorem bind {action : ExceptT ε (StateM FileSystem) α}
    {next : α → ExceptT ε (StateM FileSystem) β} {post : α → Prop}
    (first : files.Spares action error) (yields : files.Yields action post)
    (second : ∀ answer, files.Spares (next answer) error) :
    files.Spares (action >>= next) error := by
  intro files' wears
  have spared := first files' wears
  have wears' := (yields files' wears).1
  rw [run_bind]
  rcases ran : action.run.run files' with ⟨_ | answer, files''⟩
  · rw [ran] at spared
    exact fun same => spared (congrArg _ (Except.error.inj same))
  · rw [ran] at wears'
    exact second answer files'' wears'

theorem get_bind {next : FileSystem → ExceptT ε (StateM FileSystem) β}
    (second : ∀ seen, files.Spares (next seen) error) :
    files.Spares (MonadState.get >>= next) error :=
  fun files' wears => second files' files' wears

end Spares

/-! ## Calls -/

theorem spares_consult (calm : files.IsCalm) (id : NodeId) (operation : Operation) :
    files.Spares (Call.consult id operation) .interrupt := by
  intro files' wears
  have quiet := (calm.wears wears).node id operation
  rw [Call.run_consult]
  cases now : ((files'.node id).faults.schedule operation).now with
  | none => exact nofun
  | some fault =>
    rintro ⟨⟩
    rw [now] at quiet
    exact quiet List.mem_cons_self

theorem spares_fail {α : Type} (error : SystemError) :
    files.Spares (Call.fail error : Call α) .interrupt :=
  Spares.throw nofun

theorem spares_entries (id : NodeId) : files.Spares (Call.entries id) .interrupt := by
  refine Spares.get_bind fun seen => ?_
  split
  · exact Spares.pure
  · exact spares_fail _

theorem spares_proceed (calm : files.IsCalm) (followLast : Bool) (stack : List NodeId)
    (names : List String) : files.Spares (Call.proceed followLast stack names) .interrupt := by
  induction names generalizing stack with
  | nil => exact Spares.pure
  | cons name rest ih =>
    rw [Call.proceed]
    refine (spares_entries _).bind (yields_entries _) fun entries => ?_
    refine (spares_consult calm _ _).bind (Call.yields_consult _ _) fun _ => ?_
    split
    · exact ih _
    · split
      · exact ih _
      · split
        · exact spares_fail _
        · refine Spares.get_bind fun seen => ?_
          split
          · exact ih _
          · split
            · exact Spares.pure
            · exact ih _

theorem spares_follow (calm : files.IsCalm) (followLast : Bool) (links : Nat)
    (stack : List NodeId) (names : List String) :
    files.Spares (Call.follow followLast links stack names) .interrupt := by
  induction links generalizing stack names with
  | zero =>
    unfold Call.follow
    refine (spares_proceed calm _ _ _).bind (yields_proceed _ _ _) fun progress => ?_
    cases progress with
    | arrived => exact Spares.pure
    | diverted => exact spares_fail _
  | succ links ih =>
    unfold Call.follow
    refine (spares_proceed calm _ _ _).bind (yields_proceed _ _ _) fun progress => ?_
    cases progress with
    | arrived => exact Spares.pure
    | diverted =>
      dsimp only
      split
      · exact spares_fail _
      · exact ih _ _

theorem spares_resolve (calm : files.IsCalm) (followLast : Bool) (path : String) :
    files.Spares (Call.resolve followLast path) .interrupt := by
  have located : files.Spares
      (do
        let stack ← Call.locate followLast path (Path.components path)
        pure (stack.headD root) : Call NodeId) .interrupt := by
    refine Spares.bind ?_ (?_ : files.Yields _ fun _ => True) fun _ => Spares.pure
    · exact Spares.get_bind fun seen => spares_follow calm _ _ _ _
    · exact Yields.get_bind fun seen _ => (yields_follow _ _ _ _).mono fun _ _ => trivial
  unfold Call.resolve
  dsimp only
  split
  · exact (spares_fail _).bind (Yields.throw : files.Yields (Call.fail _) fun _ => True)
      fun _ => located
  · exact located

theorem spares_status (calm : files.IsCalm) (followLast : Bool) (path : String) :
    files.Spares (Call.status followLast path) .interrupt := by
  refine (spares_resolve calm _ _).bind (yields_resolve _ _) fun id => ?_
  refine (spares_consult calm _ _).bind (Call.yields_consult _ _) fun _ => ?_
  exact Spares.get_bind fun seen => Spares.pure

theorem spares_scan (calm : files.IsCalm) (path : String) :
    files.Spares (Call.scan path) .interrupt := by
  refine (spares_resolve calm _ _).bind (yields_resolve _ _) fun id => ?_
  refine (spares_entries _).bind (yields_entries _) fun entries => ?_
  exact (spares_consult calm _ _).bind (Call.yields_consult _ _) fun _ => Spares.pure

theorem spares_isDirectory (calm : files.IsCalm) (followLinks : Bool) (scanned name : String)
    (id : NodeId) : files.Spares (Call.isDirectory followLinks scanned name id) .interrupt := by
  refine Spares.get_bind fun seen => ?_
  dsimp only
  split
  · refine (spares_resolve calm _ _).bind (yields_resolve _ _) fun _ => ?_
    exact Spares.get_bind fun _ => Spares.pure
  · exact Spares.pure

theorem spares_readLink (calm : files.IsCalm) (path : String) :
    files.Spares (Call.readLink path) .interrupt := by
  refine (spares_resolve calm _ _).bind (yields_resolve _ _) fun id => ?_
  refine Spares.get_bind fun seen => ?_
  split
  · exact spares_fail _
  · exact (spares_consult calm _ _).bind (Call.yields_consult _ _) fun _ => Spares.pure

theorem spares_attempt {α : Type} {call : Call α} (spares : files.Spares call .interrupt) :
    files.Spares (attempt call) .interrupted := by
  intro files' wears
  have spared := spares files' wears
  rw [run_attempt]
  rcases ran : call.run.run files' with ⟨(_ | _) | _, files''⟩
  · exact nofun
  · rw [ran] at spared
    exact absurd rfl spared
  · exact nofun

end FileSystem
end DirList
