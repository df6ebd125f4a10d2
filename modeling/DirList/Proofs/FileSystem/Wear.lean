import DirList.FileSystem.Call
import Mathlib.Data.List.Basic

/-!
# Schedules wear off

The only thing that a call changes in a file system is that it advances schedules of failures. So a
file system that does not change between calls answers every call the same way, and contents and
status of the nodes stay what they are in every file system.

Results:
1. `Wears.eq_of_isStatic`: a static file system is not changed by calls at all.
2. `Wears.faultless`: calls leave everything but the failures alone.
3. `Yields.bind`: what two actions ensure one after the other.
-/

namespace DirList

namespace FileSystem

/-- The file system after a call has asked a schedule. -/
def worn (files : FileSystem) (id : NodeId) (operation : Operation) : FileSystem :=
  match ((files.node id).faults.schedule operation).later with
  | [] => files
  | now :: later =>
    files.setNode id { files.node id with
      faults := (files.node id).faults.setSchedule operation ⟨now, later⟩ }

/-- `Wears files files'`: calls can turn the one into the other. -/
inductive Wears (files : FileSystem) : FileSystem → Prop
  | refl : Wears files files
  | ask {files' : FileSystem} (id : NodeId) (operation : Operation) :
      Wears files files' → Wears files (files'.worn id operation)

/-- The file system without its failures. -/
def faultless (files : FileSystem) : FileSystem :=
  { files with nodes := files.nodes.map fun node => { node with faults := {} } }

/-! ## Nodes -/

theorem node_setNode (files : FileSystem) (id other : NodeId) (node : Node) :
    (files.setNode id node).node other =
      if other = id ∧ id < files.nodes.size then node else files.node other := by
  simp only [FileSystem.node, setNode, Array.getD_eq_getD_getElem?,
    Array.getElem?_setIfInBounds]
  by_cases equal : id = other
  · subst equal
    by_cases inside : id < files.nodes.size
    · simp [inside]
    · simp [inside]
  · simp [equal, Ne.symm equal]

theorem node_faultless (files : FileSystem) (id : NodeId) :
    files.faultless.node id = { files.node id with faults := {} } := by
  simp only [FileSystem.node, faultless, Array.getD_eq_getD_getElem?, Array.getElem?_map]
  cases files.nodes[id]? <;> rfl

theorem faultless_worn (files : FileSystem) (id : NodeId) (operation : Operation) :
    (files.worn id operation).faultless = files.faultless := by
  unfold worn
  split
  · rfl
  · simp only [faultless, setNode, FileSystem.mk.injEq, and_true]
    apply Array.ext_getElem?
    intro other
    simp only [Array.getElem?_map, Array.getElem?_setIfInBounds, FileSystem.node,
      Array.getD_eq_getD_getElem?]
    by_cases equal : id = other
    · subst equal
      by_cases inside : id < files.nodes.size
      · simp [inside]
      · simp [inside]
    · simp [equal]

/-- A schedule that holds no change is not changed by asking it. -/
theorem worn_of_isStatic {files : FileSystem} (static : files.IsStatic) (id : NodeId)
    (operation : Operation) : files.worn id operation = files := by
  have constant : ((files.node id).faults.schedule operation).later = [] := by
    by_cases inside : id < files.nodes.size
    · have member : files.node id ∈ files.nodes := by
        simp [FileSystem.node, inside]
      exact List.isEmpty_iff.mp (static _ member operation)
    · have absent : files.node id = default := by
        simp [FileSystem.node, inside]
      rw [absent]
      cases operation <;> rfl
  rw [worn, constant]

namespace Wears

variable {files files' files'' : FileSystem}

theorem trans (first : files.Wears files') (second : files'.Wears files'') :
    files.Wears files'' := by
  induction second with
  | refl => exact first
  | ask id operation _ ih => exact ih.ask id operation

theorem eq_of_isStatic (static : files.IsStatic) (wears : files.Wears files') :
    files' = files := by
  induction wears with
  | refl => rfl
  | ask id operation _ ih =>
    rw [ih]
    exact worn_of_isStatic static id operation

theorem faultless (wears : files.Wears files') : files'.faultless = files.faultless := by
  induction wears with
  | refl => rfl
  | ask id operation _ ih => rw [faultless_worn, ih]

theorem home (wears : files.Wears files') : files'.home = files.home := by
  have same := congrArg FileSystem.home (Wears.faultless wears)
  exact same

theorem node (wears : files.Wears files') (id : NodeId) :
    (files'.node id).content = (files.node id).content ∧
      (files'.node id).status = (files.node id).status := by
  have same := congrArg (fun files => FileSystem.node files id) (Wears.faultless wears)
  simp only [node_faultless, Node.mk.injEq, and_true] at same
  exact same

theorem entries? (wears : files.Wears files') (id : NodeId) :
    (files'.node id).entries? = (files.node id).entries? := by
  simp only [Node.entries?, (wears.node id).1]

theorem target? (wears : files.Wears files') (id : NodeId) :
    (files'.node id).target? = (files.node id).target? := by
  simp only [Node.target?, (wears.node id).1]

theorem status (wears : files.Wears files') (id : NodeId) :
    (files'.node id).status = (files.node id).status :=
  (wears.node id).2

end Wears

/-! ## Actions -/

theorem run_bind {σ ε α β : Type} (action : ExceptT ε (StateM σ) α)
    (next : α → ExceptT ε (StateM σ) β) (state : σ) :
    (action >>= next).run.run state =
      match action.run.run state with
      | (.ok answer, state') => (next answer).run.run state'
      | (.error error, state') => (.error error, state') := by
  simp only [ExceptT.run_bind, StateT.run_bind]
  rcases action.run.run state with ⟨_ | _, _⟩ <;> rfl

theorem run_get_bind {σ ε α : Type} (next : σ → ExceptT ε (StateM σ) α) (state : σ) :
    (get >>= next).run.run state = (next state).run.run state :=
  rfl

theorem run_set_bind {σ ε α : Type} (state' : σ) (next : PUnit → ExceptT ε (StateM σ) α)
    (state : σ) : (set state' >>= next).run.run state = (next ⟨⟩).run.run state' :=
  rfl

/-- `Settles action state answer state'`: the action is not given up. It gives `answer`. -/
def Settles {σ ε α : Type} (action : ExceptT ε (StateM σ) α) (state : σ) (answer : α)
    (state' : σ) : Prop :=
  action.run.run state = (.ok answer, state')

theorem Settles.pure {σ ε α : Type} (answer : α) (state : σ) :
    Settles (Pure.pure answer : ExceptT ε (StateM σ) α) state answer state :=
  rfl

theorem Settles.bind {σ ε α β : Type} {action : ExceptT ε (StateM σ) α}
    {next : α → ExceptT ε (StateM σ) β} {state state' state'' : σ} {answer : α} {answer' : β}
    (first : Settles action state answer state')
    (second : Settles (next answer) state' answer' state'') :
    Settles (action >>= next) state answer' state'' := by
  unfold Settles
  rw [run_bind, first]
  exact second

/-- An action that settles has settled in each of its parts. -/
theorem Settles.of_bind {σ ε α β : Type} {action : ExceptT ε (StateM σ) α}
    {next : α → ExceptT ε (StateM σ) β} {state state' : σ} {answer : β}
    (settles : Settles (action >>= next) state answer state') :
    ∃ answer' middle, Settles action state answer' middle ∧
      Settles (next answer') middle answer state' := by
  unfold Settles at settles
  rw [run_bind] at settles
  rcases ran : action.run.run state with ⟨stop | answer', middle⟩
  · rw [ran] at settles
    cases settles
  · rw [ran] at settles
    exact ⟨answer', middle, ran, settles⟩

/-- What follows an action that settles goes on from there. -/
theorem run_bind_of_settles {σ ε α β : Type} {action : ExceptT ε (StateM σ) α} {state state' : σ}
    {answer : α} (settles : Settles action state answer state')
    (next : α → ExceptT ε (StateM σ) β) :
    (action >>= next).run.run state = (next answer).run.run state' := by
  rw [run_bind, settles]

/-- What follows an action that is given up is not done. -/
theorem run_bind_of_error {σ ε α β : Type} {action : ExceptT ε (StateM σ) α} {state : σ} {error : ε}
    (stopped : (action.run.run state).1 = .error error) (next : α → ExceptT ε (StateM σ) β) :
    ((action >>= next).run.run state).1 = .error error := by
  rw [run_bind]
  rcases ran : action.run.run state with ⟨_ | _, _⟩
  all_goals
    rw [ran] at stopped
    cases stopped
  rfl

/-- An action settles in one way. -/
theorem Settles.unique {σ ε α : Type} {action : ExceptT ε (StateM σ) α} {state state' state'' : σ}
    {answer answer' : α} (settles : Settles action state answer state')
    (settles' : Settles action state answer' state'') : answer = answer' ∧ state' = state'' := by
  cases settles.symm.trans settles'
  exact ⟨rfl, rfl⟩

theorem Settles.get {σ ε : Type} (state : σ) :
    Settles (MonadState.get : ExceptT ε (StateM σ) σ) state state state :=
  rfl

theorem Settles.set {σ ε : Type} (state state' : σ) :
    Settles (MonadStateOf.set state' : ExceptT ε (StateM σ) PUnit) state ⟨⟩ state' :=
  rfl

/-- What is done in the end is done whatever the action comes to. -/
theorem run_finally {σ ε α : Type} (action : ExceptT ε (StateM σ) α) (change : σ → σ) (state : σ) :
    (try action finally modify change : ExceptT ε (StateM σ) α).run.run state =
      ((action.run.run state).1, change (action.run.run state).2) := by
  rcases ran : action.run.run state with ⟨answer, state'⟩
  have ran' : action state = (answer, state') := ran
  simp only [tryFinally, tryFinally', ExceptT.run, ExceptT.mk, StateT.run, bind, StateT.bind,
    Functor.map, ExceptT.map, ran']
  cases answer <;> rfl

theorem run_attempt {α : Type} (call : Call α) (files : FileSystem) :
    (attempt call).run.run files =
      match call.run.run files with
      | (.ok answer, files') => (.ok (.ok answer), files')
      | (.error (.system error), files') => (.ok (.error error), files')
      | (.error .interrupt, files') => (.error .interrupted, files') := by
  have lifted : (liftM (call.run : StateM FileSystem (Except Fault α)) :
      Access (Except Fault α)).run.run files =
        (.ok (call.run.run files).1, (call.run.run files).2) :=
    rfl
  unfold attempt
  rw [run_bind, lifted]
  rcases call.run.run files with ⟨(_ | _) | _, _⟩ <;> rfl

/-- `files.Yields action post`: started on the file system in any state of wear, the action leaves
it in one, and an answer satisfies `post`. -/
def Yields {ε α : Type} (files : FileSystem) (action : ExceptT ε (StateM FileSystem) α)
    (post : α → Prop) : Prop :=
  ∀ files', files.Wears files' →
    files.Wears (action.run.run files').2 ∧ ∀ answer, (action.run.run files').1 = .ok answer →
      post answer

namespace Yields

variable {ε α β : Type} {files : FileSystem}

theorem pure {answer : α} {post : α → Prop} (holds : post answer) :
    files.Yields (Pure.pure answer : ExceptT ε (StateM FileSystem) α) post := by
  intro files' wears
  refine ⟨wears, fun other same => ?_⟩
  cases same
  exact holds

theorem throw {error : ε} {post : α → Prop} :
    files.Yields (MonadExcept.throw error : ExceptT ε (StateM FileSystem) α) post :=
  fun _ wears => ⟨wears, fun _ same => nomatch same⟩

theorem bind {action : ExceptT ε (StateM FileSystem) α}
    {next : α → ExceptT ε (StateM FileSystem) β} {post : α → Prop} {post' : β → Prop}
    (first : files.Yields action post)
    (second : ∀ answer, post answer → files.Yields (next answer) post') :
    files.Yields (action >>= next) post' := by
  intro files' wears
  obtain ⟨wears', holds⟩ := first files' wears
  rw [run_bind]
  cases result : action.run.run files' with
  | mk answer files'' =>
    rw [result] at wears' holds
    cases answer with
    | error error => exact ⟨wears', fun _ same => nomatch same⟩
    | ok answer => exact second answer (holds answer rfl) files'' wears'

theorem mono {action : ExceptT ε (StateM FileSystem) α} {post post' : α → Prop}
    (yields : files.Yields action post) (implies : ∀ answer, post answer → post' answer) :
    files.Yields action post' :=
  fun files' wears =>
    ⟨(yields files' wears).1, fun answer same =>
      implies answer ((yields files' wears).2 answer same)⟩

/-- An action may look at the file system: it sees the nodes that `files` has. -/
theorem get_bind {next : FileSystem → ExceptT ε (StateM FileSystem) β} {post : β → Prop}
    (second : ∀ seen, files.Wears seen → files.Yields (next seen) post) :
    files.Yields (MonadState.get >>= next) post :=
  fun files' wears => second files' wears files' wears

end Yields

/-- In a file system that does not change, an action that settles changes nothing. -/
theorem eq_of_settles {ε α : Type} {files files' : FileSystem}
    {action : ExceptT ε (StateM FileSystem) α} {post : α → Prop} {answer : α}
    (static : files.IsStatic) (yields : files.Yields action post)
    (settles : Settles action files answer files') : files' = files ∧ post answer := by
  obtain ⟨wears, holds⟩ := yields files .refl
  rw [settles] at wears holds
  exact ⟨wears.eq_of_isStatic static, holds answer rfl⟩

/-- In a file system that does not change, an action that answers settles. -/
theorem settles_of_answers {ε α : Type} {files : FileSystem}
    {action : ExceptT ε (StateM FileSystem) α} {post : α → Prop} {answer : α}
    (static : files.IsStatic) (yields : files.Yields action post)
    (answers : (action.run.run files).1 = .ok answer) : Settles action files answer files := by
  have same := (yields files .refl).1.eq_of_isStatic static
  rcases ran : action.run.run files with ⟨_, _⟩
  rw [ran] at answers same
  dsimp only at answers same
  subst answers same
  exact ran

/-- An attempt at a call that answers. -/
theorem Settles.attempt {α : Type} {call : Call α} {answer : α} {files files' : FileSystem}
    (settles : Settles call files answer files') :
    Settles (attempt call) files (.ok answer) files' := by
  rw [Settles, run_attempt, settles]

end FileSystem

open FileSystem

namespace Call

variable {files : FileSystem}

theorem run_consult (id : NodeId) (operation : Operation) (files : FileSystem) :
    (consult id operation).run.run files =
      (match ((files.node id).faults.schedule operation).now with
        | none => .ok ()
        | some fault => .error fault,
      files.worn id operation) := by
  unfold consult worn
  rw [run_get_bind]
  dsimp only
  cases ((files.node id).faults.schedule operation).later with
  | nil => cases ((files.node id).faults.schedule operation).now <;> rfl
  | cons now later => cases ((files.node id).faults.schedule operation).now <;> rfl

theorem yields_consult (id : NodeId) (operation : Operation) :
    files.Yields (consult id operation) fun _ => True := by
  intro files' wears
  rw [run_consult]
  exact ⟨wears.ask id operation, fun _ _ => trivial⟩

end Call
end DirList
