import DirList.Proofs.FileSystem.Wear
import Mathlib.Data.Finset.Card
import Mathlib.Data.Finset.Dedup

/-!
# Where paths lead

A path leads through the directories of a file system to a node, or fails on the way. `Leads` is
what remains of this when failures and the limit on links are left out: where the path leads if it
leads anywhere. Calls agree with it, so that two calls that answer agree with each other, however
the failures change between them.

Results:
1. `Leads.unique`: a path leads to one place at most.
2. `yields_resolve`: a path that is resolved leads there.
3. `Leads.mem_places`: paths lead to nodes that some directory lists, or to where they start.
4. `yields_status`, `yields_scan`, `yields_isDirectory`: what the answers of calls are.
-/

namespace DirList

namespace FileSystem

/-- The nodes from which a path starts that is found in a directory or in a link there. -/
def origin (path : String) (stack : List NodeId) : List NodeId :=
  if Path.isAbsolute path then [root] else stack

/-- `Leads files followLast stack names found`: from the nodes `stack`, the nearest one first, the
names lead to the nodes `found`.

* `stay` and `ascend`: the names `.` and `..` in a directory.
* `enter`: a listed name. It is no link, or it is a link at the end of the path that is to be found
  itself.
* `divert`: a listed name that is a link to be followed. Its target is put in front of the rest. -/
inductive Leads (files : FileSystem) (followLast : Bool) :
    List NodeId → List String → List NodeId → Prop
  | arrive {stack : List NodeId} : Leads files followLast stack [] stack
  | stay {stack found : List NodeId} {name : String} {rest : List String} {entries : Directory} :
      name = "." → (files.node (stack.headD root)).entries? = some entries →
      Leads files followLast stack rest found → Leads files followLast stack (name :: rest) found
  | ascend {stack found : List NodeId} {name : String} {rest : List String}
      {entries : Directory} :
      name = ".." → (files.node (stack.headD root)).entries? = some entries →
      Leads files followLast (Call.parents stack) rest found →
      Leads files followLast stack (name :: rest) found
  | enter {stack found : List NodeId} {name : String} {rest : List String} {entries : Directory}
      {id : NodeId} :
      name ≠ "." → name ≠ ".." → (files.node (stack.headD root)).entries? = some entries →
      entries.lookup name = some id →
      (files.node id).target? = none ∨ followLast = false ∧ rest = [] →
      Leads files followLast (id :: stack) rest found →
      Leads files followLast stack (name :: rest) found
  | divert {stack found : List NodeId} {name : String} {rest : List String} {entries : Directory}
      {id : NodeId} {target : String} :
      name ≠ "." → name ≠ ".." → (files.node (stack.headD root)).entries? = some entries →
      entries.lookup name = some id → (files.node id).target? = some target →
      followLast = true ∨ rest ≠ [] →
      Leads files followLast (origin target stack) (Path.components target ++ rest) found →
      Leads files followLast stack (name :: rest) found

/-- A path leads to one place at most. -/
theorem Leads.unique {files : FileSystem} {followLast : Bool} {stack found found' : List NodeId}
    {names : List String} (leads : files.Leads followLast stack names found)
    (leads' : files.Leads followLast stack names found') : found = found' := by
  -- A link is entered or diverted by, but not both.
  have apart : ∀ {id : NodeId} {target : String} {rest : List String},
      (files.node id).target? = none ∨ followLast = false ∧ rest = [] →
      (files.node id).target? = some target → ¬(followLast = true ∨ rest ≠ []) := by
    rintro id target rest (none | ⟨no, last⟩) linked (yes | more)
    · cases none.symm.trans linked
    · cases none.symm.trans linked
    · cases no.symm.trans yes
    · exact more last
  induction leads with
  | arrive =>
    cases leads'
    rfl
  | stay dot _ _ ih =>
    cases leads' with
    | stay _ _ leads' => exact ih leads'
    | ascend dots => exact absurd (dot.symm.trans dots) (by decide)
    | enter no => exact absurd dot no
    | divert no => exact absurd dot no
  | ascend dots _ _ ih =>
    cases leads' with
    | stay dot => exact absurd (dot.symm.trans dots) (by decide)
    | ascend _ _ leads' => exact ih leads'
    | enter _ no => exact absurd dots no
    | divert _ no => exact absurd dots no
  | enter noDot noDots listed named ends _ ih =>
    cases leads' with
    | stay dot => exact absurd dot noDot
    | ascend dots => exact absurd dots noDots
    | enter _ _ listed' named' _ leads' =>
      cases listed.symm.trans listed'
      cases named.symm.trans named'
      exact ih leads'
    | divert _ _ listed' named' linked goes leads' =>
      cases listed.symm.trans listed'
      cases named.symm.trans named'
      exact absurd goes (apart ends linked)
  | divert noDot noDots listed named linked goes _ ih =>
    cases leads' with
    | stay dot => exact absurd dot noDot
    | ascend dots => exact absurd dots noDots
    | enter _ _ listed' named' ends leads' =>
      cases listed.symm.trans listed'
      cases named.symm.trans named'
      exact absurd goes (apart ends linked)
    | divert _ _ listed' named' linked' _ leads' =>
      cases listed.symm.trans listed'
      cases named.symm.trans named'
      cases linked.symm.trans linked'
      exact ih leads'

/-! ## Calls -/

variable {files : FileSystem}

/-- What is known of a path that was followed up to a link or to its end. -/
def Arrives (files : FileSystem) (followLast : Bool) (stack : List NodeId) (names : List String) :
    Call.Progress → Prop
  | .arrived found => files.Leads followLast stack names found
  | .diverted above target rest => ∀ found,
      files.Leads followLast (origin target above) (Path.components target ++ rest) found →
      files.Leads followLast stack names found

theorem yields_entries (id : NodeId) :
    files.Yields (Call.entries id) fun entries => (files.node id).entries? = some entries := by
  refine Yields.get_bind fun seen wears => ?_
  have same := wears.entries? id
  cases listed : (seen.node id).entries? with
  | none => exact Yields.throw
  | some entries => exact Yields.pure (same.symm.trans listed)

theorem yields_proceed (followLast : Bool) (stack : List NodeId) (names : List String) :
    files.Yields (Call.proceed followLast stack names) (files.Arrives followLast stack names) := by
  induction names generalizing stack with
  | nil => exact Yields.pure .arrive
  | cons name rest ih =>
    rw [Call.proceed]
    refine (yields_entries _).bind fun entries listed => ?_
    refine (Call.yields_consult _ _).bind fun _ _ => ?_
    -- Most names are steps of which the rest of the path is followed in the same way.
    have onwards : ∀ (stack' : List NodeId),
        (∀ found, files.Leads followLast stack' rest found →
          files.Leads followLast stack (name :: rest) found) →
        files.Yields (Call.proceed followLast stack' rest)
          (files.Arrives followLast stack (name :: rest)) := by
      intro stack' step
      refine (ih stack').mono fun progress arrives => ?_
      cases progress with
      | arrived found => exact step found arrives
      | diverted above target rest' => exact fun found leads => step found (arrives found leads)
    split
    next dot => exact onwards stack fun _ leads => .stay dot listed leads
    next noDot =>
      split
      next dots => exact onwards _ fun _ leads => .ascend dots listed leads
      next noDots =>
        split
        · exact Yields.throw
        next id named =>
          refine Yields.get_bind fun seen wears => ?_
          have same := wears.target? id
          split
          next plain =>
            exact onwards _ fun _ leads =>
              .enter noDot noDots listed named (.inl (same.symm.trans plain)) leads
          next target linked =>
            split
            next goes =>
              refine Yields.pure fun found leads => ?_
              have goes' : followLast = true ∨ rest ≠ [] := by
                simpa using goes
              exact .divert noDot noDots listed named (same.symm.trans linked) goes' leads
            next ends =>
              have ends' : followLast = false ∧ rest = [] := by
                simpa using ends
              exact onwards _ fun _ leads =>
                .enter noDot noDots listed named (.inr ends') leads

theorem yields_follow (followLast : Bool) (links : Nat) (stack : List NodeId)
    (names : List String) :
    files.Yields (Call.follow followLast links stack names)
      (files.Leads followLast stack names) := by
  induction links generalizing stack names with
  | zero =>
    unfold Call.follow
    refine (yields_proceed followLast stack names).bind fun progress arrives => ?_
    cases progress with
    | arrived found => exact Yields.pure arrives
    | diverted above target rest => exact Yields.throw
  | succ links ih =>
    unfold Call.follow
    refine (yields_proceed followLast stack names).bind fun progress arrives => ?_
    cases progress with
    | arrived found => exact Yields.pure arrives
    | diverted above target rest =>
      dsimp only
      split
      · exact Yields.throw
      · exact (ih _ _).mono arrives

/-- What a path leads to: a stack of nodes from where the path starts. -/
def LeadsTo (files : FileSystem) (followLast : Bool) (path : String) (found : List NodeId) : Prop :=
  files.Leads followLast (origin path files.home) (Path.components path) found

theorem yields_resolve (followLast : Bool) (path : String) :
    files.Yields (Call.resolve followLast path) fun id =>
      ∃ found, files.LeadsTo followLast path found ∧ id = found.headD root := by
  have located : files.Yields
      (do
        let stack ← Call.locate followLast path (Path.components path)
        pure (stack.headD root) : Call NodeId)
      fun id => ∃ found, files.LeadsTo followLast path found ∧ id = found.headD root := by
    refine (Yields.get_bind fun seen wears => ?_ : files.Yields (Call.locate _ _ _)
      (files.LeadsTo followLast path)).bind fun found leads => Yields.pure ⟨found, leads, rfl⟩
    rw [wears.home]
    exact yields_follow _ _ _ _
  unfold Call.resolve
  dsimp only
  split
  · exact (Yields.throw : files.Yields (Call.fail _) fun _ => False).bind fun _ no => no.elim
  · exact located

theorem yields_status (followLast : Bool) (path : String) :
    files.Yields (Call.status followLast path) fun status =>
      ∃ found, files.LeadsTo followLast path found ∧
        status = (files.node (found.headD root)).status := by
  refine (yields_resolve followLast path).bind fun id ⟨found, leads, here⟩ => ?_
  refine (Call.yields_consult _ _).bind fun _ _ => ?_
  refine Yields.get_bind fun seen wears => Yields.pure ⟨found, leads, ?_⟩
  rw [← here, wears.status]

theorem yields_scan (path : String) :
    files.Yields (Call.scan path) fun entries =>
      ∃ found, files.LeadsTo true path found ∧
        (files.node (found.headD root)).entries? = some entries := by
  refine (yields_resolve true path).bind fun id ⟨found, leads, here⟩ => ?_
  refine (yields_entries id).bind fun entries listed => ?_
  refine (Call.yields_consult _ _).bind fun _ _ => Yields.pure ⟨found, leads, ?_⟩
  rw [← here, listed]

theorem yields_readLink (path : String) : files.Yields (Call.readLink path) fun _ => True := by
  refine (yields_resolve false path).bind fun id _ => Yields.get_bind fun seen _ => ?_
  split
  · exact Yields.throw
  · exact (Call.yields_consult _ _).bind fun _ _ => Yields.pure trivial

theorem yields_isDirectory (followLinks : Bool) (scanned name : String) (id : NodeId) :
    files.Yields (Call.isDirectory followLinks scanned name id) fun _ => True := by
  refine Yields.get_bind fun seen _ => ?_
  dsimp only
  split
  · exact (yields_resolve true _).bind fun _ _ => Yields.get_bind fun _ _ => Yields.pure trivial
  · exact Yields.pure trivial

theorem yields_attempt {α : Type} {call : Call α} {post : α → Prop}
    (yields : files.Yields call post) :
    files.Yields (attempt call) fun answer => ∀ value, answer = .ok value → post value := by
  intro files' wears
  obtain ⟨wears', holds⟩ := yields files' wears
  rw [run_attempt]
  cases result : call.run.run files' with
  | mk answer files'' =>
    rw [result] at wears' holds
    cases answer with
    | ok value =>
      refine ⟨wears', fun answer same value' same' => ?_⟩
      cases same
      cases same'
      exact holds value rfl
    | error fault =>
      cases fault with
      | system error =>
        refine ⟨wears', fun answer same value' same' => ?_⟩
        cases same
        cases same'
      | interrupt => exact ⟨wears', fun answer same => nomatch same⟩

/-! ## Places -/

/-- The nodes that paths can lead to: the directory `/`, the one that relative paths start from with
those above it, and every node that a directory lists. -/
def places (files : FileSystem) : List NodeId :=
  root :: files.home ++ files.nodes.toList.flatMap fun node =>
    (node.entries?.getD []).map Prod.snd

/-- The pairs of device and number that nodes have. -/
def fileIds (files : FileSystem) : Finset FileId :=
  (files.places.map fun id => (files.node id).status.fileId).toFinset

theorem mem_nodes_of_entries? {id : NodeId} {entries : Directory} {found : String × NodeId}
    (listed : (files.node id).entries? = some entries) (member : found ∈ entries) :
    files.node id ∈ files.nodes := by
  by_cases inside : id < files.nodes.size
  · simp [FileSystem.node, inside]
  · have absent : files.node id = default := by
      simp [FileSystem.node, inside]
    rw [absent] at listed
    cases listed
    cases member

theorem mem_of_lookup {α β : Type} [BEq α] [LawfulBEq α] {entries : List (α × β)} {name : α}
    {id : β} (named : entries.lookup name = some id) : (name, id) ∈ entries := by
  obtain ⟨before, after, split, _⟩ := List.lookup_eq_some_iff.mp named
  rw [split]
  exact List.mem_append_right _ List.mem_cons_self

theorem mem_places_of_entries? {id : NodeId} {entries : Directory} {found : String × NodeId}
    (listed : (files.node id).entries? = some entries) (member : found ∈ entries) :
    found.2 ∈ files.places := by
  refine List.mem_append_right _ (List.mem_flatMap.mpr ⟨files.node id, ?_, ?_⟩)
  · exact Array.mem_toList_iff.mpr (mem_nodes_of_entries? listed member)
  · rw [listed]
    exact List.mem_map_of_mem member

theorem root_mem_places : root ∈ files.places :=
  List.mem_append_left _ List.mem_cons_self

theorem home_subset_places : ∀ id ∈ files.home, id ∈ files.places :=
  fun _ member => List.mem_append_left _ (List.mem_cons_of_mem _ member)

theorem Leads.mem_places {followLast : Bool} {stack found : List NodeId} {names : List String}
    (leads : files.Leads followLast stack names found) :
    (∀ id ∈ stack, id ∈ files.places) → ∀ id ∈ found, id ∈ files.places := by
  induction leads with
  | arrive => exact id
  | stay _ _ _ ih => exact ih
  | ascend _ _ _ ih =>
    refine fun within => ih fun id member => within id ?_
    revert member
    unfold Call.parents
    split
    · exact List.mem_cons_of_mem _
    · exact fun member => member
  | enter _ _ listed named _ _ ih =>
    refine fun within => ih fun id member => ?_
    rcases List.mem_cons.mp member with rfl | above
    · exact mem_places_of_entries? listed (mem_of_lookup named)
    · exact within id above
  | divert _ _ _ _ _ _ _ ih =>
    refine fun within => ih fun id member => ?_
    unfold origin at member
    split at member
    · rcases List.mem_singleton.mp member with rfl
      exact root_mem_places
    · exact within id member

theorem LeadsTo.headD_mem_places {followLast : Bool} {path : String} {found : List NodeId}
    (leads : files.LeadsTo followLast path found) : found.headD root ∈ files.places := by
  have within := Leads.mem_places leads (by
    unfold origin
    split
    · simp [root_mem_places]
    · exact home_subset_places)
  cases found with
  | nil => exact root_mem_places
  | cons id above => exact within id List.mem_cons_self

theorem LeadsTo.fileId_mem {followLast : Bool} {path : String} {found : List NodeId}
    (leads : files.LeadsTo followLast path found) :
    (files.node (found.headD root)).status.fileId ∈ files.fileIds :=
  List.mem_toFinset.mpr
    (List.mem_map_of_mem (f := fun id => (files.node id).status.fileId) leads.headD_mem_places)

theorem length_le_entryCount {id : NodeId} {entries : Directory}
    (listed : (files.node id).entries? = some entries) : entries.length ≤ files.entryCount := by
  cases entries with
  | nil => exact Nat.zero_le _
  | cons found rest =>
    have member := mem_nodes_of_entries? listed List.mem_cons_self
    have bound : ∀ nodes : List Node, files.node id ∈ nodes →
        (found :: rest).length ≤
          nodes.foldr (fun node count => (node.entries?.getD []).length + count) 0 := by
      intro nodes
      induction nodes with
      | nil => exact fun no => nomatch no
      | cons node nodes ih =>
        intro member
        rw [List.foldr_cons]
        rcases List.mem_cons.mp member with same | later
        · rw [← same, listed]
          exact Nat.le_add_right _ _
        · exact Nat.le_trans (ih later) (Nat.le_add_left _ _)
    exact bound _ (Array.mem_toList_iff.mpr member)

/-- There are at most as many pairs as nodes, and one for places outside the table. -/
theorem card_fileIds_le : files.fileIds.card ≤ files.nodes.size + 1 := by
  have covered : files.fileIds ⊆
      ((default :: files.nodes.toList).map fun node : Node => node.status.fileId).toFinset := by
    intro fileId member
    obtain ⟨id, _, rfl⟩ := List.mem_map.mp (List.mem_toFinset.mp member)
    refine List.mem_toFinset.mpr
      (List.mem_map_of_mem (f := fun node : Node => node.status.fileId) ?_)
    by_cases inside : id < files.nodes.size
    · refine List.mem_cons_of_mem _ (Array.mem_toList_iff.mpr ?_)
      simp [FileSystem.node, inside]
    · have absent : files.node id = default := by
        simp [FileSystem.node, inside]
      rw [absent]
      exact List.mem_cons_self
  refine (Finset.card_le_card covered).trans ((List.toFinset_card_le _).trans ?_)
  simp

end FileSystem
end DirList
