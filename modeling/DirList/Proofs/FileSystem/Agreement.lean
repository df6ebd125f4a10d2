import DirList.Proofs.FileSystem.Calm

/-!
# File systems in another order

Two file systems that do not change, and that differ in nothing but the order in which directories
list their entries, answer every call alike: paths lead to the same nodes, and scans give the same
entries in another order.

Results:
1. `Agrees.bind`: actions that agree, one after another.
2. `lookup_eq_of_perm`: where names are distinct, their order does not matter.
3. `agrees_proceed`, `agrees_resolve`: paths lead to the same nodes.
4. `agrees_status`, `agrees_scan`, `agrees_isDirectory`, `agrees_readLink`: calls agree.
-/

namespace DirList

/-- `Matches related result result'`: the same error, or answers that are related. -/
inductive Matches {ε α β : Type} (related : α → β → Prop) : Except ε α → Except ε β → Prop
  | error (error : ε) : Matches related (.error error) (.error error)
  | ok {answer : α} {answer' : β} : related answer answer' →
      Matches related (.ok answer) (.ok answer')

theorem Matches.mono {ε α β : Type} {related related' : α → β → Prop} {result : Except ε α}
    {result' : Except ε β} (same : Matches related result result')
    (weaker : ∀ answer answer', related answer answer' → related' answer answer') :
    Matches related' result result' := by
  cases same with
  | error error => exact .error error
  | ok same => exact .ok (weaker _ _ same)

theorem Matches.eq {ε α : Type} {result result' : Except ε α} (same : Matches Eq result result') :
    result' = result := by
  cases same with
  | error error => rfl
  | ok same => rw [same]

/-- The same content, but for the order of a directory. -/
inductive Content.Permutes : Content → Content → Prop
  | same (content : Content) : Permutes content content
  | directory {entries entries' : Directory} : entries.Perm entries' →
      Permutes (.directory entries) (.directory entries')

/-- The same node, but for the order of a directory. -/
structure Node.Permutes (node node' : Node) : Prop where
  content : node.content.Permutes node'.content
  status : node'.status = node.status
  faults : node'.faults = node.faults

namespace FileSystem

/-- The same file system, but for the order of directories. -/
structure Permutes (files files' : FileSystem) : Prop where
  home : files'.home = files.home
  nodes : List.Forall₂ Node.Permutes files.nodes.toList files'.nodes.toList

/-- The file system with every directory in the reverse order. -/
def reversed (files : FileSystem) : FileSystem :=
  { files with
    nodes := files.nodes.map fun node => { node with
      content := match node.content with
        | .directory entries => .directory entries.reverse
        | other => other } }

/-- Whether no directory lists a name twice. -/
def HasDistinctNames (files : FileSystem) : Prop :=
  ∀ node ∈ files.nodes, ((node.entries?.getD []).map Prod.fst).Nodup

instance (files : FileSystem) : Decidable files.HasDistinctNames :=
  inferInstanceAs (Decidable (∀ node ∈ files.nodes,
    ((node.entries?.getD []).map Prod.fst).Nodup))

/-- `Agrees files files' related action action'`: among `files` and among `files'` the actions come
to the same, and they change nothing. -/
structure Agrees {ε α β : Type} (files files' : FileSystem) (related : α → β → Prop)
    (action : ExceptT ε (StateM FileSystem) α) (action' : ExceptT ε (StateM FileSystem) β) :
    Prop where
  answers : Matches related (action.run.run files).1 (action'.run.run files').1
  kept : (action.run.run files).2 = files
  kept' : (action'.run.run files').2 = files'

variable {files files' : FileSystem}

namespace Agrees

variable {ε α α' β β' : Type} {related : α → β → Prop} {related' : α' → β' → Prop}

theorem pure {answer : α} {answer' : β} (same : related answer answer') :
    Agrees files files' related (Pure.pure answer : ExceptT ε (StateM FileSystem) α)
      (Pure.pure answer') :=
  ⟨.ok same, rfl, rfl⟩

theorem throw (error : ε) :
    Agrees files files' related (MonadExcept.throw error : ExceptT ε (StateM FileSystem) α)
      (MonadExcept.throw error) :=
  ⟨.error error, rfl, rfl⟩

theorem bind {action : ExceptT ε (StateM FileSystem) α} {action' : ExceptT ε (StateM FileSystem) β}
    {next : α → ExceptT ε (StateM FileSystem) α'} {next' : β → ExceptT ε (StateM FileSystem) β'}
    (first : Agrees files files' related action action')
    (second : ∀ answer answer', related answer answer' →
      Agrees files files' related' (next answer) (next' answer')) :
    Agrees files files' related' (action >>= next) (action' >>= next') := by
  obtain ⟨answers, kept, kept'⟩ := first
  rcases ran : action.run.run files with ⟨result, _⟩
  rcases ran' : action'.run.run files' with ⟨result', _⟩
  rw [ran] at answers kept
  rw [ran'] at answers kept'
  dsimp only at answers kept kept'
  subst kept kept'
  cases answers with
  | error error =>
    refine ⟨?_, ?_, ?_⟩
    all_goals simp only [run_bind, ran, ran']
    exact .error error
  | ok same =>
    have later := second _ _ same
    refine ⟨?_, ?_, ?_⟩
    all_goals simp only [run_bind, ran, ran']
    · exact later.answers
    · exact later.kept
    · exact later.kept'

theorem get_bind {next : FileSystem → ExceptT ε (StateM FileSystem) α}
    {next' : FileSystem → ExceptT ε (StateM FileSystem) β}
    (second : Agrees files files' related (next files) (next' files')) :
    Agrees files files' related (MonadState.get >>= next) (MonadState.get >>= next') :=
  ⟨second.answers, second.kept, second.kept'⟩

theorem mono {related' : α → β → Prop} {action : ExceptT ε (StateM FileSystem) α}
    {action' : ExceptT ε (StateM FileSystem) β}
    (agrees : Agrees files files' related action action')
    (weaker : ∀ answer answer', related answer answer' → related' answer answer') :
    Agrees files files' related' action action' :=
  ⟨agrees.answers.mono weaker, agrees.kept, agrees.kept'⟩

/-- What settles among `files` settles among `files'`. -/
theorem exists_settles {action : ExceptT ε (StateM FileSystem) α}
    {action' : ExceptT ε (StateM FileSystem) β}
    (agrees : Agrees files files' related action action')
    {answer : α} (settles : Settles action files answer files) :
    ∃ answer', Settles action' files' answer' files' ∧ related answer answer' := by
  obtain ⟨answers, -, kept'⟩ := agrees
  rw [settles] at answers
  rcases ran' : action'.run.run files' with ⟨result', _⟩
  rw [ran'] at answers kept'
  dsimp only at answers kept'
  subst kept'
  cases answers with
  | ok same => exact ⟨_, ran', same⟩

end Agrees

/-! ## Nodes -/

namespace Permutes

variable (permutes : files.Permutes files')
include permutes

theorem node (id : NodeId) : (files.node id).Permutes (files'.node id) := by
  have all : ∀ {nodes nodes' : List Node}, List.Forall₂ Node.Permutes nodes nodes' → ∀ id : NodeId,
      (nodes[id]?.getD default).Permutes (nodes'[id]?.getD default) := by
    intro nodes nodes' all
    induction all with
    | nil => exact fun _ => ⟨.same _, rfl, rfl⟩
    | cons first _ ih =>
      intro id
      cases id with
      | zero => exact first
      | succ id => exact ih id
  have here := all permutes.nodes id
  rwa [Array.getElem?_toList, Array.getElem?_toList, ← Array.getD_eq_getD_getElem?,
    ← Array.getD_eq_getD_getElem?] at here

theorem status (id : NodeId) : (files'.node id).status = (files.node id).status :=
  (permutes.node id).status

theorem target? (id : NodeId) : (files'.node id).target? = (files.node id).target? := by
  have content := (permutes.node id).content
  unfold Node.target?
  generalize (files.node id).content = here at content ⊢
  generalize (files'.node id).content = here' at content ⊢
  cases content <;> rfl

theorem entries? (id : NodeId) :
    (files.node id).entries? = none ∧ (files'.node id).entries? = none ∨
      ∃ entries entries', (files.node id).entries? = some entries ∧
        (files'.node id).entries? = some entries' ∧ entries.Perm entries' := by
  have content := (permutes.node id).content
  unfold Node.entries?
  generalize (files.node id).content = here at content ⊢
  generalize (files'.node id).content = here' at content ⊢
  cases content with
  | same =>
    cases here with
    | directory entries => exact .inr ⟨entries, entries, rfl, rfl, .refl _⟩
    | symlink | leaf => exact .inl ⟨rfl, rfl⟩
  | directory same => exact .inr ⟨_, _, rfl, rfl, same⟩

theorem isDirectory (id : NodeId) : (files'.node id).isDirectory = (files.node id).isDirectory := by
  unfold Node.isDirectory
  rcases permutes.entries? id with ⟨none, none'⟩ | ⟨_, _, some, some', -⟩
  · rw [none, none']
  · rw [some, some']
    rfl

/-- The nodes of both have the same faults. -/
theorem exists_same_faults {node' : Node} (member : node' ∈ files'.nodes) :
    ∃ node ∈ files.nodes, node'.faults = node.faults := by
  have all : ∀ {nodes nodes' : List Node}, List.Forall₂ Node.Permutes nodes nodes' →
      ∀ node' ∈ nodes', ∃ node ∈ nodes, node'.faults = node.faults := by
    intro nodes nodes' all
    induction all with
    | nil => exact List.forall_mem_nil _
    | cons first _ ih =>
      refine List.forall_mem_cons.mpr ⟨⟨_, List.mem_cons_self, first.faults⟩, ?_⟩
      intro node' inside
      obtain ⟨node, inside', same⟩ := ih node' inside
      exact ⟨node, List.mem_cons_of_mem _ inside', same⟩
  obtain ⟨node, inside, same⟩ := all permutes.nodes node' (Array.mem_toList_iff.mpr member)
  exact ⟨node, Array.mem_toList_iff.mp inside, same⟩

theorem isStatic (static : files.IsStatic) : files'.IsStatic := by
  intro node' member operation
  obtain ⟨node, inside, same⟩ := permutes.exists_same_faults member
  rw [same]
  exact static node inside operation

theorem isCalm (calm : files.IsCalm) : files'.IsCalm := by
  intro node' member operation
  obtain ⟨node, inside, same⟩ := permutes.exists_same_faults member
  rw [same]
  exact calm node inside operation

end Permutes

theorem permutes_reversed (files : FileSystem) : files.Permutes files.reversed where
  home := rfl
  nodes := by
    rw [reversed, Array.toList_map, List.forall₂_map_right_iff]
    refine List.forall₂_same.mpr fun node _ => ⟨?_, rfl, rfl⟩
    dsimp only
    split
    next entries same =>
      rw [same]
      exact .directory (List.reverse_perm _).symm
    next => exact .same _

theorem HasDistinctNames.nodup (distinct : files.HasDistinctNames) {id : NodeId}
    {entries : Directory} (listed : (files.node id).entries? = some entries) :
    (entries.map Prod.fst).Nodup := by
  cases entries with
  | nil => exact List.nodup_nil
  | cons entry rest =>
    have names := distinct _ (mem_nodes_of_entries? listed List.mem_cons_self)
    rwa [listed] at names

/-- Where names are distinct, a name stands for the same node in every order. -/
theorem lookup_eq_of_perm {entries entries' : Directory} (distinct : (entries.map Prod.fst).Nodup)
    (same : entries.Perm entries') (name : String) :
    entries'.lookup name = entries.lookup name := by
  induction same with
  | nil => rfl
  | cons entry _ ih =>
    rw [List.map_cons, List.nodup_cons] at distinct
    rw [List.lookup_cons, List.lookup_cons, ih distinct.2]
  | swap first second rest =>
    rw [List.map_cons, List.map_cons, List.nodup_cons] at distinct
    have differ : second.1 ≠ first.1 := fun no => distinct.1 (no ▸ List.mem_cons_self)
    obtain ⟨firstName, _⟩ := first
    obtain ⟨secondName, _⟩ := second
    simp only [List.lookup_cons]
    by_cases here : name = firstName
    · have other : (name == secondName) = false := by
        simpa [here] using differ.symm
      rw [other]
    · have other : (name == firstName) = false := by simpa using here
      rw [other]
  | trans first _ ih ih' => rw [ih' ((first.map _).nodup_iff.mp distinct), ih distinct]

/-! ## Calls -/

/-- Operations agree that fail alike, also on nodes in different places. -/
theorem agrees_consult_of_faults (static : files.IsStatic) (static' : files'.IsStatic)
    {id id' : NodeId} {operation : Operation}
    (same : (files'.node id').faults.schedule operation =
      (files.node id).faults.schedule operation) :
    Agrees files files' (fun _ _ => ((files.node id).faults.schedule operation).now = none)
      (Call.consult id operation) (Call.consult id' operation) := by
  have ran := Call.run_consult id operation files
  have ran' := Call.run_consult id' operation files'
  rw [worn_of_isStatic static] at ran
  rw [worn_of_isStatic static', same] at ran'
  refine ⟨?_, by rw [ran], by rw [ran']⟩
  rw [ran, ran']
  dsimp only
  cases now : ((files.node id).faults.schedule operation).now with
  | none => exact .ok rfl
  | some fault => exact .error fault

section Calls

variable (static : files.IsStatic) (permutes : files.Permutes files')
include static permutes

theorem agrees_consult (id : NodeId) (operation : Operation) :
    Agrees files files' Eq (Call.consult id operation) (Call.consult id operation) :=
  (agrees_consult_of_faults static (permutes.isStatic static)
    (congrArg (·.schedule operation) (permutes.node id).faults)).mono fun _ _ _ => rfl

omit static in
theorem agrees_entries (id : NodeId) :
    Agrees files files' (fun entries entries' =>
      entries.Perm entries' ∧ (files.node id).entries? = some entries)
      (Call.entries id) (Call.entries id) := by
  refine .get_bind ?_
  rcases permutes.entries? id with ⟨none, none'⟩ | ⟨_, _, some, some', same⟩
  · rw [none, none']
    exact .throw _
  · rw [some, some']
    exact .pure ⟨same, rfl⟩

variable (distinct : files.HasDistinctNames)
include distinct

theorem agrees_proceed (followLast : Bool) (stack : List NodeId) (names : List String) :
    Agrees files files' Eq (Call.proceed followLast stack names)
      (Call.proceed followLast stack names) := by
  induction names generalizing stack with
  | nil => exact .pure rfl
  | cons name rest ih =>
    rw [Call.proceed]
    refine (agrees_entries permutes _).bind ?_
    rintro entries entries' ⟨same, listed⟩
    refine (agrees_consult static permutes _ _).bind fun _ _ _ => ?_
    have found := lookup_eq_of_perm (distinct.nodup listed) same name
    split
    · exact ih stack
    split
    · exact ih _
    rw [found]
    cases entries.lookup name with
    | none => exact .throw _
    | some id =>
      refine .get_bind ?_
      rw [permutes.target? id]
      cases (files.node id).target? with
      | none => exact ih _
      | some target =>
        dsimp only
        split
        · exact .pure rfl
        · exact ih _

theorem agrees_follow (followLast : Bool) (links : Nat) (stack : List NodeId)
    (names : List String) :
    Agrees files files' Eq (Call.follow followLast links stack names)
      (Call.follow followLast links stack names) := by
  induction links generalizing stack names with
  | zero =>
    unfold Call.follow
    refine (agrees_proceed static permutes distinct _ _ _).bind ?_
    rintro progress _ rfl
    cases progress with
    | arrived => exact .pure rfl
    | diverted => exact .throw _
  | succ links ih =>
    unfold Call.follow
    refine (agrees_proceed static permutes distinct _ _ _).bind ?_
    rintro progress _ rfl
    cases progress with
    | arrived => exact .pure rfl
    | diverted above target rest =>
      dsimp only
      split
      · exact .throw _
      · exact ih _ _

/-- Paths lead to the same nodes. -/
theorem agrees_resolve (followLast : Bool) (path : String) :
    Agrees files files' Eq (Call.resolve followLast path) (Call.resolve followLast path) := by
  have located : Agrees files files' Eq
      (do
        let stack ← Call.locate followLast path (Path.components path)
        pure (stack.headD root) : Call NodeId)
      (do
        let stack ← Call.locate followLast path (Path.components path)
        pure (stack.headD root)) := by
    refine (Agrees.get_bind ?_ : Agrees files files' Eq (Call.locate _ _ _)
      (Call.locate _ _ _)).bind fun _ _ same => .pure (same ▸ rfl)
    rw [permutes.home]
    exact agrees_follow static permutes distinct _ _ _ _
  unfold Call.resolve
  dsimp only
  split
  · exact (Agrees.throw _ : Agrees files files' Eq (Call.fail _) (Call.fail _)).bind
      fun _ _ _ => located
  · exact located

theorem agrees_status (followLast : Bool) (path : String) :
    Agrees files files' Eq (Call.status followLast path) (Call.status followLast path) := by
  refine (agrees_resolve static permutes distinct _ _).bind ?_
  rintro id _ rfl
  refine (agrees_consult static permutes _ _).bind fun _ _ _ => .get_bind (.pure ?_)
  exact (permutes.status id).symm

/-- Scans give the same entries in some order. -/
theorem agrees_scan (path : String) :
    Agrees files files' (fun entries entries' =>
      entries.Perm entries' ∧ (entries.map Prod.fst).Nodup) (Call.scan path) (Call.scan path) := by
  refine (agrees_resolve static permutes distinct _ _).bind ?_
  rintro id _ rfl
  refine (agrees_entries permutes _).bind fun entries entries' ⟨same, listed⟩ => ?_
  exact (agrees_consult static permutes _ _).bind fun _ _ _ =>
    .pure ⟨same, distinct.nodup listed⟩

theorem agrees_readLink (path : String) :
    Agrees files files' Eq (Call.readLink path) (Call.readLink path) := by
  refine (agrees_resolve static permutes distinct _ _).bind ?_
  rintro id _ rfl
  refine .get_bind ?_
  rw [permutes.target? id]
  cases (files.node id).target? with
  | none => exact .throw _
  | some target => exact (agrees_consult static permutes _ _).bind fun _ _ _ => .pure rfl

theorem agrees_isDirectory (followLinks : Bool) (scanned name : String) (id : NodeId) :
    Agrees files files' Eq (Call.isDirectory followLinks scanned name id)
      (Call.isDirectory followLinks scanned name id) := by
  have link : (files'.node id).isSymlink = (files.node id).isSymlink := by
    rw [Node.isSymlink, permutes.target?, Node.isSymlink]
  refine .get_bind ?_
  dsimp only
  rw [link, permutes.isDirectory id]
  split
  · refine (agrees_resolve static permutes distinct _ _).bind ?_
    rintro id' _ rfl
    exact .get_bind (.pure (permutes.isDirectory id').symm)
  · exact .pure rfl

omit static permutes distinct in
/-- Attempts at calls that agree agree, also on the errors. -/
theorem Agrees.attempt {α β : Type} {related : α → β → Prop} {call : Call α} {call' : Call β}
    (agrees : Agrees files files' related call call') :
    Agrees files files' (Matches related) (attempt call) (attempt call') := by
  obtain ⟨answers, kept, kept'⟩ := agrees
  have ran := run_attempt call files
  have ran' := run_attempt call' files'
  generalize call.run.run files = result at answers kept ran
  generalize call'.run.run files' = result' at answers kept' ran'
  obtain ⟨result, _⟩ := result
  obtain ⟨result', _⟩ := result'
  dsimp only at answers kept kept'
  subst kept kept'
  cases answers with
  | error fault =>
    cases fault <;> refine ⟨?_, by rw [ran], by rw [ran']⟩ <;> rw [ran, ran']
    · exact .ok (.error _)
    · exact .error _
  | ok same =>
    refine ⟨?_, by rw [ran], by rw [ran']⟩
    rw [ran, ran']
    exact .ok (.ok same)

end Calls
end FileSystem
end DirList
