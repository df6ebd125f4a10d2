import DirList.Proofs.FileSystem.Agreement
import DirList.Proofs.FileSystem.Nesting

/-!
# File systems that differ out of sight

Two file systems that do not change may be the same but for what lies in some of their hidden
directories. A path that keeps clear of these directories, and of links, leads to nodes that stand
for each other, and calls at it agree. So do calls at the paths of what is listed there, whether it
is hidden or not.

Results:
1. `agrees_proceed_of_clear`: a path that keeps clear leads to nodes that stand for each other.
2. `agrees_proceed_child`: what is listed there has a counterpart.
3. `agrees_scan_of_clear`, `agrees_status_child`, `agrees_readLink_child`: calls agree.
-/

namespace DirList

open FileSystem

/-- Whether a name starts with a dot. -/
def Path.IsHidden (name : String) : Prop :=
  name.toList.head? = some '.'

instance (name : String) : Decidable (Path.IsHidden name) :=
  inferInstanceAs (Decidable (name.toList.head? = some '.'))

/-- What holds by where a name of a path leads: to the directory itself, to the one above, or to
what is listed. -/
def Path.ByName (name : String) (here above below : Prop) : Prop :=
  if name = "." then here else if name = ".." then above else below

namespace Path.ByName

variable {name : String} {here above below here' above' below' : Prop}

theorem iff_here (dot : name = ".") : ByName name here above below ↔ here := by
  rw [ByName, if_pos dot]

theorem iff_above (dots : name = "..") : ByName name here above below ↔ above := by
  rw [ByName, if_neg (by rw [dots]; decide), if_pos dots]

theorem iff_below (notDot : name ≠ ".") (notDots : name ≠ "..") :
    ByName name here above below ↔ below := by
  rw [ByName, if_neg notDot, if_neg notDots]

theorem imp (given : ByName name here above below) (first : name = "." → here → here')
    (second : name = ".." → above → above')
    (third : name ≠ "." → name ≠ ".." → below → below') : ByName name here' above' below' := by
  by_cases dot : name = "."
  · exact (iff_here dot).mpr (first dot ((iff_here dot).mp given))
  by_cases dots : name = ".."
  · exact (iff_above dots).mpr (second dots ((iff_above dots).mp given))
  · exact (iff_below dot dots).mpr (third dot dots ((iff_below dot dots).mp given))

end Path.ByName

namespace FileSystem

/-! ## Nodes that stand for each other -/

/-- Whether a node is in sight: there is one that stands for it. -/
def InSight (twin : NodeId → NodeId → Prop) (id : NodeId) : Prop :=
  ∃ other, twin id other

/-- `Counterpart files files' twin found found'`: the entries of two directories have one name.

* `seen`: they lead to nodes that stand for each other.
* `veiled`: the name is hidden, and they lead to directories out of sight. Taking their status comes
  to the same, but what lies in them is not known. -/
inductive Counterpart (files files' : FileSystem) (twin : NodeId → NodeId → Prop) :
    String × NodeId → String × NodeId → Prop
  | seen {name : String} {id id' : NodeId} : twin id id' →
      Counterpart files files' twin (name, id) (name, id')
  | veiled {name : String} {id id' : NodeId} : Path.IsHidden name → ¬InSight twin id →
      (files.node id).isDirectory = true → (files'.node id').isDirectory = true →
      (files'.node id').status = (files.node id).status →
      (files'.node id').faults.status = (files.node id).faults.status →
      Counterpart files files' twin (name, id) (name, id')

end FileSystem

/-- The contents of nodes that stand for each other. -/
inductive Content.Veils (counterpart : String × NodeId → String × NodeId → Prop) :
    Content → Content → Prop
  | leaf : Veils counterpart .leaf .leaf
  | symlink (target : String) : Veils counterpart (.symlink target) (.symlink target)
  | directory {entries entries' : Directory} : List.Forall₂ counterpart entries entries' →
      Veils counterpart (.directory entries) (.directory entries')

theorem Node.target?_of_isDirectory {node : Node} (directory : node.isDirectory = true) :
    node.target? = none := by
  unfold isDirectory entries? at directory
  unfold target?
  generalize node.content = content at directory ⊢
  cases content with
  | directory | leaf => rfl
  | symlink => cases directory

/-- Nodes that stand for each other. -/
structure Node.Veils (counterpart : String × NodeId → String × NodeId → Prop)
    (node node' : Node) : Prop where
  content : node.content.Veils counterpart node'.content
  status : node'.status = node.status
  faults : node'.faults = node.faults

namespace FileSystem

/-- `files.Veils twin files'`: the file systems are the same but for what lies in some hidden
directories, where `twin` says which nodes stand for each other. Relative paths start from nodes
that do, as far as they are in sight. -/
structure Veils (twin : NodeId → NodeId → Prop) (files files' : FileSystem) : Prop where
  root : twin root root
  home : List.Forall₂ (fun id id' => InSight twin id → twin id id') files.home files'.home
  nodes : ∀ id id', twin id id' →
    (files.node id).Veils (Counterpart files files' twin) (files'.node id')

/-- `files.KeepsClear seen stack names`: from the nodes `stack`, the nearest one first, the names
come to nodes that are seen, and to no link, as far as they lead. -/
def KeepsClear (files : FileSystem) (seen : NodeId → Prop) : List NodeId → List String → Prop
  | stack, [] => seen (stack.headD root) ∧ (files.node (stack.headD root)).target? = none
  | stack, name :: rest =>
    (seen (stack.headD root) ∧ (files.node (stack.headD root)).target? = none) ∧
      ∀ entries, (files.node (stack.headD root)).entries? = some entries →
        ((files.node (stack.headD root)).faults.schedule .lookup).now = none →
        Path.ByName name (KeepsClear files seen stack rest)
          (KeepsClear files seen (Call.parents stack) rest)
          (∀ id, entries.lookup name = some id → KeepsClear files seen (id :: stack) rest)

/-- `files.IsClear seen path`: resolving a path meets no link, and only nodes that are seen. -/
structure IsClear (files : FileSystem) (seen : NodeId → Prop) (path : String) : Prop where
  keeps : files.KeepsClear seen (origin path files.home) (Path.components path)

section Clear

variable {files : FileSystem} {seen : NodeId → Prop} {stack : List NodeId} {names : List String}

theorem KeepsClear.here (clear : files.KeepsClear seen stack names) :
    seen (stack.headD root) ∧ (files.node (stack.headD root)).target? = none := by
  cases names with
  | nil => exact clear
  | cons => exact clear.1

/-- The beginning of a path that keeps clear keeps clear. -/
theorem KeepsClear.of_append {later : List String}
    (clear : files.KeepsClear seen stack (names ++ later)) : files.KeepsClear seen stack names := by
  induction names generalizing stack with
  | nil => exact clear.here
  | cons name rest ih =>
    exact ⟨clear.1, fun entries listed free => (clear.2 entries listed free).imp (fun _ => ih)
      (fun _ => ih) fun _ _ onwards id named => ih (onwards id named)⟩

end Clear

/-- `Meets files files' twin name clear id id'`: two paths lead to nodes that directories list under
one name. If the one is in sight and no link, then `clear`. -/
structure Meets (files files' : FileSystem) (twin : NodeId → NodeId → Prop) (name : String)
    (clear : Prop) (id id' : NodeId) : Prop where
  both : Counterpart files files' twin (name, id) (name, id')
  clears : InSight twin id → (files.node id).target? = none → clear

/-- What is known of how far two paths lead that keep clear of links. -/
inductive Arrive (related : List NodeId → List NodeId → Prop) : Call.Progress → Call.Progress → Prop
  | arrived {found found' : List NodeId} : related found found' →
      Arrive related (.arrived found) (.arrived found')

theorem Arrive.mono {related related' : List NodeId → List NodeId → Prop}
    {progress progress' : Call.Progress} (arrive : Arrive related progress progress')
    (weaker : ∀ found found', related found found' → related' found found') :
    Arrive related' progress progress' := by
  cases arrive with
  | arrived same => exact .arrived (weaker _ _ same)

variable {files files' : FileSystem} {twin : NodeId → NodeId → Prop}

theorem Meets.mono {name : String} {clear clear' : Prop} {id id' : NodeId}
    (meets : Meets files files' twin name clear id id') (wider : clear → clear') :
    Meets files files' twin name clear' id id' :=
  ⟨meets.both, fun sight plain => wider (meets.clears sight plain)⟩

namespace Counterpart

variable {found found' : String × NodeId}

theorem name (same : Counterpart files files' twin found found') : found'.1 = found.1 := by
  cases same <;> rfl

theorem stands (same : Counterpart files files' twin found found') (sight : InSight twin found.2) :
    twin found.2 found'.2 := by
  cases same with
  | seen same => exact same
  | veiled _ hidden => exact absurd sight hidden

/-- A name stands for nodes that are counterparts. -/
theorem lookup {entries entries' : Directory}
    (same : List.Forall₂ (Counterpart files files' twin) entries entries') (name : String) :
    entries.lookup name = none ∧ entries'.lookup name = none ∨
      ∃ id id', entries.lookup name = some id ∧ entries'.lookup name = some id' ∧
        Counterpart files files' twin (name, id) (name, id') := by
  induction same with
  | nil => exact .inl ⟨rfl, rfl⟩
  | @cons found found' rest rest' first _ ih =>
    obtain ⟨other, id⟩ := found
    obtain ⟨other', id'⟩ := found'
    obtain rfl : other' = other := first.name
    rw [List.lookup_cons, List.lookup_cons]
    by_cases here : name = other'
    · subst here
      rw [beq_self_eq_true]
      exact .inr ⟨id, id', rfl, rfl, first⟩
    · rw [beq_false_of_ne here]
      exact ih

end Counterpart

/-! ## Counterparts -/

namespace Veils

variable (veils : files.Veils twin files') {id id' : NodeId} {stack stack' : List NodeId}
include veils

theorem target? (same : twin id id') : (files'.node id').target? = (files.node id).target? := by
  have content := (veils.nodes id id' same).content
  unfold Node.target?
  generalize (files.node id).content = here at content ⊢
  generalize (files'.node id').content = here' at content ⊢
  cases content <;> rfl

theorem entries? (same : twin id id') :
    (files.node id).entries? = none ∧ (files'.node id').entries? = none ∨
      ∃ entries entries', (files.node id).entries? = some entries ∧
        (files'.node id').entries? = some entries' ∧
        List.Forall₂ (Counterpart files files' twin) entries entries' := by
  have content := (veils.nodes id id' same).content
  unfold Node.entries?
  generalize (files.node id).content = here at content ⊢
  generalize (files'.node id').content = here' at content ⊢
  cases content with
  | leaf | symlink => exact .inl ⟨rfl, rfl⟩
  | directory same => exact .inr ⟨_, _, rfl, rfl, same⟩

theorem isDirectory (same : twin id id') :
    (files'.node id').isDirectory = (files.node id).isDirectory := by
  unfold Node.isDirectory
  rcases veils.entries? same with ⟨none, none'⟩ | ⟨_, _, some, some', -⟩
  · rw [none, none']
  · rw [some, some']
    rfl

/-- The nearest nodes of two stacks stand for each other, if the one is in sight. -/
theorem headD (same : List.Forall₂ (fun id id' => InSight twin id → twin id id') stack stack')
    (sight : InSight twin (stack.headD FileSystem.root)) :
    twin (stack.headD FileSystem.root) (stack'.headD FileSystem.root) := by
  cases same with
  | nil => exact veils.root
  | cons first _ => exact first sight

theorem origin (path : String) :
    List.Forall₂ (fun id id' => InSight twin id → twin id id')
      (FileSystem.origin path files.home) (FileSystem.origin path files'.home) := by
  unfold FileSystem.origin
  split
  · exact .cons (fun _ => veils.root) .nil
  · exact veils.home

omit veils in
theorem parents (same : List.Forall₂ (fun id id' => InSight twin id → twin id id') stack stack') :
    List.Forall₂ (fun id id' => InSight twin id → twin id id') (Call.parents stack)
      (Call.parents stack') := by
  cases same with
  | nil => exact .nil
  | cons first rest =>
    cases rest with
    | nil => exact .cons first .nil
    | cons second rest => exact .cons second rest

end Veils

/-- Seen from outside, nodes with one name in two directories are the same. -/
theorem Counterpart.outside {name : String} {id id' : NodeId} (veils : files.Veils twin files')
    (same : Counterpart files files' twin (name, id) (name, id')) :
    (files'.node id').status = (files.node id).status ∧
      (files'.node id').faults.status = (files.node id).faults.status ∧
      (files'.node id').isDirectory = (files.node id).isDirectory ∧
      (files'.node id').target? = (files.node id).target? ∧
      ((files.node id).target? ≠ none →
        (files'.node id').faults.readLink = (files.node id).faults.readLink) := by
  cases same with
  | seen same =>
    obtain ⟨-, status, faults⟩ := veils.nodes id id' same
    exact ⟨status, congrArg Faults.status faults, veils.isDirectory same, veils.target? same,
      fun _ => congrArg Faults.readLink faults⟩
  | veiled _ _ directory directory' status faults =>
    have plain := Node.target?_of_isDirectory directory
    refine ⟨status, faults, directory'.trans directory.symm, ?_, fun no => absurd plain no⟩
    rw [plain, Node.target?_of_isDirectory directory']

/-! ## Paths -/

section Calls

variable (static : files.IsStatic) (static' : files'.IsStatic) (veils : files.Veils twin files')
variable {stack stack' : List NodeId} {names : List String} {name path : String}
variable {related : List NodeId → List NodeId → Prop}
include static static' veils

omit static static' in
theorem agrees_entries_of_twin {id id' : NodeId} (same : twin id id') :
    Agrees files files' (fun entries entries' => (files.node id).entries? = some entries ∧
        List.Forall₂ (Counterpart files files' twin) entries entries')
      (Call.entries id) (Call.entries id') := by
  refine .get_bind ?_
  rcases veils.entries? same with ⟨none, none'⟩ | ⟨_, _, some, some', same⟩
  · rw [none, none']
    exact .throw _
  · rw [some, some']
    exact .pure ⟨rfl, same⟩

/-- A path that goes on from nodes that stand for each other leads to what the rest leads to. -/
theorem agrees_proceed_cons {followLast : Bool}
    (here : twin (stack.headD root) (stack'.headD root))
    (onwards : ∀ entries, (files.node (stack.headD root)).entries? = some entries →
      ((files.node (stack.headD root)).faults.schedule .lookup).now = none →
      Path.ByName name
        (Agrees files files' (Arrive related) (Call.proceed followLast stack names)
          (Call.proceed followLast stack' names))
        (Agrees files files' (Arrive related)
          (Call.proceed followLast (Call.parents stack) names)
          (Call.proceed followLast (Call.parents stack') names))
        (∀ id id', entries.lookup name = some id →
          Counterpart files files' twin (name, id) (name, id') →
          ((files.node id).target? = none ∨ followLast = false ∧ names = []) ∧
          Agrees files files' (Arrive related) (Call.proceed followLast (id :: stack) names)
            (Call.proceed followLast (id' :: stack') names))) :
    Agrees files files' (Arrive related) (Call.proceed followLast stack (name :: names))
      (Call.proceed followLast stack' (name :: names)) := by
  rw [Call.proceed, Call.proceed]
  refine (agrees_entries_of_twin veils here).bind fun entries entries' both => ?_
  obtain ⟨listed, same⟩ := both
  refine (agrees_consult_of_faults static static'
    (congrArg (·.schedule .lookup) (veils.nodes _ _ here).faults)).bind fun _ _ free => ?_
  have onwards := onwards entries listed free
  split
  next dot => exact (Path.ByName.iff_here dot).mp onwards
  next notDot =>
    split
    next dots => exact (Path.ByName.iff_above dots).mp onwards
    next notDots =>
      have onwards := (Path.ByName.iff_below notDot notDots).mp onwards
      rcases Counterpart.lookup same name with ⟨none, none'⟩ | ⟨id, id', named, named', both⟩
      · rw [none, none']
        exact .throw _
      · rw [named, named']
        obtain ⟨ends, onwards⟩ := onwards id id' named both
        refine .get_bind ?_
        rw [(both.outside veils).2.2.2.1]
        cases linked : (files.node id).target? with
        | none => exact onwards
        | some target =>
          have plain : (files.node id).target? ≠ none := linked ▸ Option.some_ne_none target
          obtain ⟨rfl, rfl⟩ := ends.resolve_left plain
          exact onwards

/-- A path that keeps clear leads to nodes that stand for each other. -/
theorem agrees_proceed_of_clear (followLast : Bool)
    (clear : files.KeepsClear (InSight twin) stack names)
    (stands : List.Forall₂ (fun id id' => InSight twin id → twin id id') stack stack') :
    Agrees files files'
      (Arrive fun found found' => twin (found.headD root) (found'.headD root) ∧
        (files.node (found.headD root)).target? = none)
      (Call.proceed followLast stack names) (Call.proceed followLast stack' names) := by
  induction names generalizing stack stack' with
  | nil =>
    obtain ⟨sight, plain⟩ := clear.here
    exact .pure (.arrived ⟨veils.headD stands sight, plain⟩)
  | cons name rest ih =>
    refine agrees_proceed_cons static static' veils (veils.headD stands clear.here.1)
      fun entries listed free => ?_
    refine (clear.2 entries listed free).imp (fun _ onwards => ih onwards stands)
      (fun _ onwards => ih onwards (Veils.parents stands)) ?_
    intro _ _ onwards id id' named both
    have clear' := onwards id named
    exact ⟨.inl clear'.here.2, ih clear' (.cons both.stands stands)⟩

/-- From where a path keeps clear to, a name leads to counterparts. If the one is in sight and no
link, the path keeps clear to it. -/
theorem agrees_proceed_child (isName : Path.IsName name)
    (clear : files.KeepsClear (InSight twin) stack names)
    (stands : List.Forall₂ (fun id id' => InSight twin id → twin id id') stack stack') :
    Agrees files files'
      (Arrive fun found found' => Meets files files' twin name
        (files.KeepsClear (InSight twin) stack (names ++ [name]))
        (found.headD root) (found'.headD root))
      (Call.proceed false stack (names ++ [name]))
      (Call.proceed false stack' (names ++ [name])) := by
  induction names generalizing stack stack' with
  | nil =>
    refine agrees_proceed_cons static static' veils (veils.headD stands clear.here.1)
      fun entries listed free => ?_
    refine (Path.ByName.iff_below isName.notDot isName.notDots).mpr fun id id' named both => ?_
    refine ⟨.inr ⟨rfl, rfl⟩, .pure (.arrived ⟨both, fun sight plain => ?_⟩)⟩
    refine ⟨clear.here, fun entries' listed' _ => ?_⟩
    refine (Path.ByName.iff_below isName.notDot isName.notDots).mpr fun id₁ named₁ => ?_
    cases listed.symm.trans listed'
    cases named.symm.trans named₁
    exact ⟨sight, plain⟩
  | cons first rest ih =>
    refine agrees_proceed_cons static static' veils (veils.headD stands clear.here.1)
      fun entries listed free => ?_
    have extend : Path.ByName first (files.KeepsClear (InSight twin) stack (rest ++ [name]))
          (files.KeepsClear (InSight twin) (Call.parents stack) (rest ++ [name]))
          (∀ id, entries.lookup first = some id →
            files.KeepsClear (InSight twin) (id :: stack) (rest ++ [name])) →
        files.KeepsClear (InSight twin) stack (first :: (rest ++ [name])) := by
      refine fun onwards => ⟨clear.here, fun entries' listed' _ => ?_⟩
      cases listed.symm.trans listed'
      exact onwards
    refine (clear.2 entries listed free).imp (fun dot onwards => ?_) (fun dots onwards => ?_) ?_
    · exact (ih onwards stands).mono fun _ _ arrive => arrive.mono fun _ _ meets =>
        meets.mono fun further => extend ((Path.ByName.iff_here dot).mpr further)
    · exact (ih onwards (Veils.parents stands)).mono fun _ _ arrive => arrive.mono fun _ _ meets =>
        meets.mono fun further => extend ((Path.ByName.iff_above dots).mpr further)
    · intro notDot notDots onwards id id' named both
      have clear' := onwards id named
      refine ⟨.inl clear'.here.2, (ih clear' (.cons both.stands stands)).mono fun _ _ arrive =>
        arrive.mono fun _ _ meets => meets.mono fun further => extend ?_⟩
      refine (Path.ByName.iff_below notDot notDots).mpr fun id₁ named₁ => ?_
      cases named.symm.trans named₁
      exact further

omit static static' veils in
theorem agrees_follow_of_proceed {followLast : Bool}
    (proceeds : Agrees files files' (Arrive related) (Call.proceed followLast stack names)
      (Call.proceed followLast stack' names)) (links : Nat) :
    Agrees files files' related (Call.follow followLast links stack names)
      (Call.follow followLast links stack' names) := by
  cases links <;> unfold Call.follow <;> refine proceeds.bind fun _ _ arrive => ?_ <;>
    cases arrive with
    | arrived same => exact .pure same

omit static static' veils in
/-- A path that does not come to a link is resolved where it arrives. -/
theorem agrees_resolve_of_proceed {followLast : Bool}
    (proceeds : Agrees files files' (Arrive related)
      (Call.proceed followLast (origin path files.home) (Path.components path))
      (Call.proceed followLast (origin path files'.home) (Path.components path))) :
    Agrees files files' (fun id id' => path ≠ "" ∧ ∃ found found', related found found' ∧
        id = found.headD root ∧ id' = found'.headD root)
      (Call.resolve followLast path) (Call.resolve followLast path) := by
  unfold Call.resolve
  dsimp only
  split
  · exact (Agrees.throw _ : Agrees files files' (fun _ _ => False) (Call.fail _)
      (Call.fail _)).bind fun _ _ no => no.elim
  next some =>
    have nonempty : path ≠ "" := by
      rintro rfl
      exact some rfl
    exact (Agrees.get_bind (agrees_follow_of_proceed proceeds Call.maxLinks) :
      Agrees files files' related (Call.locate _ _ _) (Call.locate _ _ _)).bind
      fun found found' same => .pure ⟨nonempty, found, found', same, rfl, rfl⟩

/-- A path that keeps clear is resolved to nodes that stand for each other. -/
theorem agrees_resolve_of_clear (followLast : Bool) (clear : files.IsClear (InSight twin) path) :
    Agrees files files' (fun id id' => path ≠ "" ∧ twin id id' ∧ (files.node id).target? = none)
      (Call.resolve followLast path) (Call.resolve followLast path) := by
  refine (agrees_resolve_of_proceed (agrees_proceed_of_clear static static' veils followLast
    clear.keeps (veils.origin path))).mono ?_
  rintro _ _ ⟨nonempty, found, found', both, rfl, rfl⟩
  exact ⟨nonempty, both⟩

/-- The path of what is listed at a path that keeps clear is resolved to counterparts. -/
theorem agrees_resolve_child (clear : files.IsClear (InSight twin) path) (nonempty : path ≠ "")
    (isName : Path.IsName name) :
    Agrees files files'
      (Meets files files' twin name (files.IsClear (InSight twin) (Path.join path name)))
      (Call.resolve false (Path.join path name)) (Call.resolve false (Path.join path name)) := by
  have start : ∀ stack, origin (Path.join path name) stack = origin path stack := by
    intro stack
    rw [origin, origin, Path.isAbsolute_join nonempty]
  have proceeds := agrees_proceed_child static static' veils isName clear.keeps.of_append
    (veils.origin path)
  rw [← Path.components_join isName, ← start, ← start] at proceeds
  refine (agrees_resolve_of_proceed proceeds).mono ?_
  rintro _ _ ⟨-, found, found', meets, rfl, rfl⟩
  exact meets.mono .mk

/-! ## Calls -/

omit veils in
theorem agrees_status_of_resolve {followLast : Bool} {reached : NodeId → NodeId → Prop}
    (resolves : Agrees files files' reached (Call.resolve followLast path)
      (Call.resolve followLast path))
    (same : ∀ id id', reached id id' → (files'.node id').status = (files.node id).status ∧
      (files'.node id').faults.schedule .status = (files.node id).faults.schedule .status) :
    Agrees files files' (fun status status' => status' = status ∧
        ∃ id id', reached id id' ∧ status = (files.node id).status)
      (Call.status followLast path) (Call.status followLast path) := by
  refine resolves.bind fun id id' both => ?_
  obtain ⟨status, faults⟩ := same id id' both
  refine (agrees_consult_of_faults static static' faults).bind fun _ _ _ => .get_bind (.pure ?_)
  exact ⟨status, id, id', both, rfl⟩

omit veils in
theorem agrees_readLink_of_resolve {reached : NodeId → NodeId → Prop}
    (resolves : Agrees files files' reached (Call.resolve false path) (Call.resolve false path))
    (same : ∀ id id', reached id id' → (files'.node id').target? = (files.node id).target? ∧
      ((files.node id).target? ≠ none →
        (files'.node id').faults.schedule .readLink = (files.node id).faults.schedule .readLink)) :
    Agrees files files' Eq (Call.readLink path) (Call.readLink path) := by
  refine resolves.bind fun id id' both => .get_bind ?_
  obtain ⟨target, faults⟩ := same id id' both
  rw [target]
  cases linked : (files.node id).target? with
  | none => exact .throw _
  | some target =>
    exact (agrees_consult_of_faults static static' (faults (by rw [linked]; exact nofun))).bind
      fun _ _ _ => .pure rfl

theorem agrees_status_of_clear (followLast : Bool) (clear : files.IsClear (InSight twin) path) :
    Agrees files files' Eq (Call.status followLast path) (Call.status followLast path) := by
  refine (agrees_status_of_resolve static static'
    (agrees_resolve_of_clear static static' veils followLast clear) fun _ _ both => ?_).mono
    fun _ _ same => same.1.symm
  obtain ⟨-, status, faults⟩ := veils.nodes _ _ both.2.1
  exact ⟨status, congrArg Faults.status faults⟩

theorem agrees_readLink_of_clear (clear : files.IsClear (InSight twin) path) :
    Agrees files files' Eq (Call.readLink path) (Call.readLink path) :=
  agrees_readLink_of_resolve static static'
    (agrees_resolve_of_clear static static' veils false clear) fun _ _ both =>
      ⟨veils.target? both.2.1, fun linked => absurd both.2.2 linked⟩

/-- Scans at a path that keeps clear list counterparts. -/
theorem agrees_scan_of_clear (clear : files.IsClear (InSight twin) path) :
    Agrees files files' (fun entries entries' => path ≠ "" ∧
        (∃ id, (files.node id).entries? = some entries) ∧
        List.Forall₂ (Counterpart files files' twin) entries entries')
      (Call.scan path) (Call.scan path) := by
  refine (agrees_resolve_of_clear static static' veils true clear).bind
    fun id id' reached => ?_
  obtain ⟨nonempty, both, -⟩ := reached
  refine (agrees_entries_of_twin veils both).bind fun entries entries' lists => ?_
  obtain ⟨listed, same⟩ := lists
  refine (agrees_consult_of_faults static static'
    (congrArg (·.schedule .scan) (veils.nodes _ _ both).faults)).bind fun _ _ _ => ?_
  exact .pure ⟨nonempty, ⟨id, listed⟩, same⟩

/-- What is listed at a path that keeps clear has one status. If that is the status of a directory
and the name is not hidden, the path of the directory keeps clear. -/
theorem agrees_status_child
    (typed : ∀ id, (files.node id).status.fileType = .directory → (files.node id).target? = none)
    (clear : files.IsClear (InSight twin) path) (nonempty : path ≠ "")
    (isName : Path.IsName name) :
    Agrees files files' (fun status status' => status' = status ∧
        (status.fileType = .directory → ¬Path.IsHidden name →
          files.IsClear (InSight twin) (Path.join path name)))
      (Call.status false (Path.join path name)) (Call.status false (Path.join path name)) := by
  refine (agrees_status_of_resolve static static'
    (agrees_resolve_child static static' veils clear nonempty isName) fun _ _ both => ?_).mono ?_
  · obtain ⟨status, faults, -⟩ := both.1.outside veils
    exact ⟨status, faults⟩
  · rintro status _ ⟨rfl, id, id', ⟨both, clears⟩, rfl⟩
    refine ⟨rfl, fun directory shown => clears ?_ (typed id directory)⟩
    cases both with
    | seen same => exact ⟨id', same⟩
    | veiled hidden => exact absurd hidden shown

theorem agrees_readLink_child (clear : files.IsClear (InSight twin) path) (nonempty : path ≠ "")
    (isName : Path.IsName name) :
    Agrees files files' Eq (Call.readLink (Path.join path name))
      (Call.readLink (Path.join path name)) :=
  agrees_readLink_of_resolve static static'
    (agrees_resolve_child static static' veils clear nonempty isName) fun _ _ both =>
      (both.1.outside veils).2.2.2

omit static static' in
theorem agrees_isDirectory_child (path : String) {id id' : NodeId}
    (both : Counterpart files files' twin (name, id) (name, id')) :
    Agrees files files' Eq (Call.isDirectory false path name id)
      (Call.isDirectory false path name id') := by
  refine .get_bind ?_
  dsimp only
  rw [Bool.false_and, Bool.false_and]
  exact .pure (both.outside veils).2.2.1.symm

end Calls

end FileSystem
end DirList
