import DirList.Proofs.FileSystem.Agreement
import DirList.Proofs.Walk.Reading

/-!
# Walks where there are no links

In a file system without links, no path is diverted, so it makes no difference whether a link at its
end is gone through. A walk that follows links and one that does not make different calls: one asks
for the status behind an entry and, where that fails, for the status of the entry itself. But the
same comes of them, for a second call fails as the first did.

Results:
1. `agrees_resolve_linkless`, `agrees_status_linkless`: paths lead to the same nodes.
2. `agrees_withStatus_linkless`: entries get the same status.
3. `agrees_readRoots_linkless`, `agrees_readDirectory_linkless`: roots and the entries of a
   directory are read alike.
-/

namespace DirList

namespace FileSystem

/-- There are no links. -/
def IsLinkless (files : FileSystem) : Prop :=
  ∀ id, (files.node id).target? = none

variable {files : FileSystem}

/-- Only the nodes that there are can be links. -/
theorem isLinkless_of_nodes (plain : ∀ node ∈ files.nodes, node.target? = none) :
    files.IsLinkless := by
  intro id
  by_cases inside : id < files.nodes.size
  · refine plain _ ?_
    simp [FileSystem.node, inside]
  · have absent : files.node id = default := by
      simp [FileSystem.node, inside]
    rw [absent]
    rfl

/-- In a file system that does not change, an action agrees with itself. -/
theorem agrees_self {ε α : Type} {action : ExceptT ε (StateM FileSystem) α} {post : α → Prop}
    (static : files.IsStatic) (yields : files.Yields action post) :
    Agrees files files Eq action action := by
  have kept := (yields files .refl).1.eq_of_isStatic static
  refine ⟨?_, kept, kept⟩
  cases (action.run.run files).1 with
  | error error => exact .error error
  | ok answer => exact .ok rfl

/-- What is known besides of the answer is that the second action settles with it. -/
theorem Agrees.settled {ε α β : Type} {files' : FileSystem} {related : α → β → Prop}
    {action : ExceptT ε (StateM FileSystem) α} {action' : ExceptT ε (StateM FileSystem) β}
    (agrees : Agrees files files' related action action') :
    Agrees files files' (fun answer answer' =>
      related answer answer' ∧ Settles action' files' answer' files') action action' := by
  obtain ⟨answers, kept, kept'⟩ := agrees
  refine ⟨?_, kept, kept'⟩
  unfold Settles
  generalize (action.run.run files).1 = result at answers ⊢
  rcases ran : action'.run.run files' with ⟨result', _⟩
  rw [ran] at answers kept'
  dsimp only at answers kept'
  subst kept'
  cases answers with
  | error error => exact .error error
  | ok same => exact .ok ⟨same, rfl⟩

/-- An action that settles can be passed over. -/
theorem Agrees.of_settles {ε α β γ : Type} {files' : FileSystem} {related : α → β → Prop}
    {first : ExceptT ε (StateM FileSystem) γ} {answer : γ}
    {next : γ → ExceptT ε (StateM FileSystem) α} {action' : ExceptT ε (StateM FileSystem) β}
    (settles : Settles first files answer files)
    (agrees : Agrees files files' related (next answer) action') :
    Agrees files files' related (first >>= next) action' := by
  have same := run_bind_of_settles settles next
  obtain ⟨answers, kept, kept'⟩ := agrees
  exact ⟨same ▸ answers, same ▸ kept, kept'⟩

section Calls

variable (static : files.IsStatic) (linkless : files.IsLinkless)
include static linkless

theorem agrees_proceed_linkless (followLast followLast' : Bool) (stack : List NodeId)
    (names : List String) :
    Agrees files files Eq (Call.proceed followLast stack names)
      (Call.proceed followLast' stack names) := by
  induction names generalizing stack with
  | nil => exact .pure rfl
  | cons name rest ih =>
    rw [Call.proceed, Call.proceed]
    refine (agrees_self static (yields_entries _)).bind ?_
    rintro entries _ rfl
    refine (agrees_self static (Call.yields_consult _ _)).bind fun _ _ _ => ?_
    split
    · exact ih stack
    split
    · exact ih _
    cases entries.lookup name with
    | none => exact .throw _
    | some id =>
      refine .get_bind ?_
      rw [linkless id]
      exact ih _

theorem agrees_follow_linkless (followLast followLast' : Bool) (links : Nat) (stack : List NodeId)
    (names : List String) :
    Agrees files files Eq (Call.follow followLast links stack names)
      (Call.follow followLast' links stack names) := by
  induction links generalizing stack names with
  | zero =>
    unfold Call.follow
    refine (agrees_proceed_linkless static linkless _ _ _ _).bind ?_
    rintro progress _ rfl
    cases progress with
    | arrived => exact .pure rfl
    | diverted => exact .throw _
  | succ links ih =>
    unfold Call.follow
    refine (agrees_proceed_linkless static linkless _ _ _ _).bind ?_
    rintro progress _ rfl
    cases progress with
    | arrived => exact .pure rfl
    | diverted above target rest =>
      dsimp only
      split
      · exact .throw _
      · exact ih _ _

theorem agrees_resolve_linkless (followLast followLast' : Bool) (path : String) :
    Agrees files files Eq (Call.resolve followLast path) (Call.resolve followLast' path) := by
  have located : Agrees files files Eq
      (do
        let stack ← Call.locate followLast path (Path.components path)
        pure (stack.headD root) : Call NodeId)
      (do
        let stack ← Call.locate followLast' path (Path.components path)
        pure (stack.headD root)) := by
    refine (Agrees.get_bind ?_ : Agrees files files Eq (Call.locate _ _ _)
      (Call.locate _ _ _)).bind fun _ _ same => .pure (same ▸ rfl)
    exact agrees_follow_linkless static linkless _ _ _ _ _
  unfold Call.resolve
  dsimp only
  split
  · exact (Agrees.throw _ : Agrees files files Eq (Call.fail _) (Call.fail _)).bind
      fun _ _ _ => located
  · exact located

/-- It makes no difference to a status whether links are followed. -/
theorem agrees_status_linkless (followLast followLast' : Bool) (path : String) :
    Agrees files files Eq (Call.status followLast path) (Call.status followLast' path) := by
  unfold Call.status
  refine (agrees_resolve_linkless static linkless _ _ _).bind ?_
  rintro id _ rfl
  exact (agrees_self static (Call.yields_consult _ _)).bind fun _ _ _ => .get_bind (.pure rfl)

omit static in
theorem agrees_isDirectory_linkless (followLinks followLinks' : Bool) (scanned name : String)
    (id : NodeId) :
    Agrees files files Eq (Call.isDirectory followLinks scanned name id)
      (Call.isDirectory followLinks' scanned name id) := by
  have plain : (files.node id).isSymlink = false := by
    rw [Node.isSymlink, linkless id]
    rfl
  refine .get_bind ?_
  dsimp only
  rw [plain, Bool.and_false, Bool.and_false]
  exact .pure rfl

end Calls
end FileSystem

namespace Walk

open FileSystem

section Reading

variable {files : FileSystem} (static : files.IsStatic) (linkless : files.IsLinkless)
include static linkless

/-- An entry that is asked for what is behind it gets the status that it has itself. Where the first
call fails, the second is the call that a walk makes that does not follow links. -/
theorem agrees_withStatus_true (entry : Entry) :
    Agrees files files Eq (withStatus true entry) (withStatus false entry) := by
  refine (agrees_status_linkless static linkless true false entry.accessPath).attempt.settled.bind
    fun answer answer' both => ?_
  obtain ⟨same, settles⟩ := both
  cases same with
  | ok same =>
    cases same
    exact .pure rfl
  | error error =>
    dsimp only
    rw [if_pos rfl, if_neg Bool.false_ne_true]
    exact .of_settles settles (.pure rfl)

theorem agrees_withStatus_linkless (followLinks followLinks' : Bool) (entry : Entry) :
    Agrees files files Eq (withStatus followLinks entry) (withStatus followLinks' entry) := by
  have itself : ∀ followLinks, Agrees files files Eq (withStatus followLinks entry)
      (withStatus followLinks entry) :=
    fun followLinks => agrees_self static (yields_withStatus followLinks entry)
  have through := agrees_withStatus_true static linkless entry
  cases followLinks <;> cases followLinks'
  · exact itself false
  · exact ⟨through.answers.eq ▸ (itself true).answers, through.kept', through.kept⟩
  · exact through
  · exact itself true

theorem agrees_readRoots_linkless (followLinks followLinks' : Bool) (serial : Nat)
    (paths : List String) :
    Agrees files files Eq (readRoots followLinks serial paths)
      (readRoots followLinks' serial paths) := by
  induction paths generalizing serial with
  | nil => exact .pure rfl
  | cons path rest ih =>
    refine (agrees_withStatus_linkless static linkless _ _ _).bind ?_
    rintro root _ rfl
    refine (ih (serial + 1)).bind ?_
    rintro roots _ rfl
    exact .pure rfl

variable (options : WalkOptions) (physical : Bool) (namesOnly : Bool) (parent : Entry)

/-- An entry of a directory is read alike by a walk that follows links and one that does not. -/
theorem agrees_readChild_linkless (serial : Nat) (found : String × NodeId) :
    Agrees files files Eq (readChild options namesOnly parent serial found)
      (readChild { options with physical } namesOnly parent serial found) := by
  have known : ∀ isDirectory : Bool, Agrees files files Eq
      (if namesOnly || (options.skipStatus && !isDirectory) then
        pure { childEntry parent serial found.1 with listedAsDirectory := isDirectory }
      else withStatus options.logical
        { childEntry parent serial found.1 with listedAsDirectory := isDirectory })
      (if namesOnly || (options.skipStatus && !isDirectory) then
        pure { childEntry parent serial found.1 with listedAsDirectory := isDirectory }
      else withStatus (!physical)
        { childEntry parent serial found.1 with listedAsDirectory := isDirectory }) := by
    intro isDirectory
    split
    · exact .pure rfl
    · exact agrees_withStatus_linkless static linkless _ _ _
  refine (agrees_isDirectory_linkless linkless options.logical (!physical) _ _ _).attempt.bind
    fun answer answer' same => ?_
  cases same with
  | error error => exact known false
  | ok same =>
    cases same
    exact known _

theorem agrees_readChildren_linkless (serial : Nat) (found : Directory) :
    Agrees files files Eq (readChildren options namesOnly parent serial found)
      (readChildren { options with physical } namesOnly parent serial found) := by
  induction found generalizing serial with
  | nil => exact .pure rfl
  | cons first rest ih =>
    refine (agrees_readChild_linkless static linkless options physical namesOnly parent serial
      first).bind ?_
    rintro entry _ rfl
    refine (ih (serial + 1)).bind ?_
    rintro entries _ rfl
    exact .pure rfl

/-- The sorted entries of a directory are the same for a walk that follows links and one that does
not. -/
theorem agrees_readDirectory_linkless (comparator : Option Comparator) (serial : Nat) :
    Agrees files files Eq (readDirectory options comparator namesOnly parent serial)
      (readDirectory { options with physical } comparator namesOnly parent serial) := by
  refine (agrees_self static (yields_scan parent.accessPath)).attempt.bind fun _ _ same => ?_
  cases same with
  | error error => exact .pure rfl
  | ok same =>
    cases same
    refine (agrees_readChildren_linkless static linkless options physical namesOnly parent serial
      _).bind ?_
    rintro children _ rfl
    have dots : ∀ serial, Agrees files files Eq (readDots options namesOnly parent serial)
        (readDots { options with physical } namesOnly parent serial) :=
      fun serial => agrees_self static (yields_readDots options namesOnly parent serial true)
    refine (dots _).bind ?_
    rintro dots _ rfl
    exact .pure rfl

end Reading
end Walk
end DirList
