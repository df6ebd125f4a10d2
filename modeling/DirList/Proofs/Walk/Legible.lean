import DirList.Proofs.FileSystem.Nesting
import DirList.Proofs.Walk.Completeness
import DirList.Proofs.Walk.Description

/-!
# Legible file systems

In a legible file system everything that a directory lists can be looked at. Then the status of an
entry agrees with what the listing of its directory says of it.

Results:
1. `status_through`: what is no link has one status, whether or not links are followed.
2. `exists_status_child`: the status of an entry is the status of the node that is listed.
3. `exists_withStatus_child`: an entry that is not listed as a directory is none.
-/

namespace DirList

instance (name : String) : Decidable (Path.IsName name) :=
  decidable_of_iff (name ≠ "" ∧ '/' ∉ name.toList ∧ name ≠ "." ∧ name ≠ "..")
    ⟨fun ⟨nonempty, plain, notDot, notDots⟩ => ⟨nonempty, plain, notDot, notDots⟩,
      fun isName => ⟨isName.nonempty, isName.plain, isName.notDot, isName.notDots⟩⟩

namespace FileSystem

variable {files : FileSystem}

/-! ## Paths that are resolved -/

/-- An empty path is not resolved. -/
theorem nonempty_of_resolve {followLast : Bool} {path : String} {id : NodeId}
    {files' : FileSystem} (settles : Settles (Call.resolve followLast path) files id files') :
    path ≠ "" := by
  rintro rfl
  unfold Call.resolve at settles
  dsimp only at settles
  rw [if_pos (by rfl)] at settles
  obtain ⟨_, _, fails, -⟩ := Settles.of_bind settles
  cases fails

theorem resolve_eq {path : String} (nonempty : path ≠ "") (followLast : Bool) :
    Call.resolve followLast path =
      (do
        let stack ← Call.locate followLast path (Path.components path)
        pure (stack.headD root) : Call NodeId) := by
  unfold Call.resolve
  dsimp only
  rw [if_neg (by simpa using nonempty)]

/-! ## Following links to what is none -/

section Through

variable (static : files.IsStatic)
include static

theorem proceed_through {stack : List NodeId} {names : List String} {progress : Call.Progress}
    (settles : Settles (Call.proceed false stack names) files progress files)
    (plain : ∀ found, progress = .arrived found → (files.node (found.headD root)).target? = none) :
    Settles (Call.proceed true stack names) files progress files := by
  induction names generalizing stack with
  | nil => exact settles
  | cons name rest ih =>
    rw [Call.proceed] at settles ⊢
    obtain ⟨entries, _, listed, settles⟩ := Settles.of_bind settles
    cases (eq_of_settles static (yields_entries _) listed).1
    obtain ⟨_, _, consulted, settles⟩ := Settles.of_bind settles
    cases (eq_of_settles static (Call.yields_consult _ _) consulted).1
    refine listed.bind (consulted.bind ?_)
    split at settles
    next dot => rw [if_pos dot]; exact ih settles
    next noDot =>
      rw [if_neg noDot]
      split at settles
      next dots => rw [if_pos dots]; exact ih settles
      next noDots =>
        rw [if_neg noDots]
        cases named : entries.lookup name with
        | none =>
          rw [named] at settles
          cases settles
        | some id =>
          rw [named] at settles
          obtain ⟨_, _, looks, settles⟩ := Settles.of_bind settles
          cases looks
          refine (Settles.get files).bind ?_
          cases linked : (files.node id).target? with
          | none =>
            rw [linked] at settles
            exact ih settles
          | some target =>
            rw [linked] at settles
            dsimp only at settles ⊢
            cases rest with
            | nil =>
              -- The path would end at a link.
              rw [if_neg (by decide), Call.proceed] at settles
              have same := (settles.unique (.pure _ _)).1
              have no := plain _ same
              rw [List.headD_cons, linked] at no
              cases no
            | cons =>
              rw [if_pos (by rfl)] at settles ⊢
              exact settles

theorem follow_through {links : Nat} {stack found : List NodeId} {names : List String}
    (settles : Settles (Call.follow false links stack names) files found files)
    (plain : (files.node (found.headD root)).target? = none) :
    Settles (Call.follow true links stack names) files found files := by
  induction links generalizing stack names with
  | zero =>
    unfold Call.follow at settles ⊢
    obtain ⟨progress, _, proceeds, settles⟩ := Settles.of_bind settles
    cases (eq_of_settles static (yields_proceed _ _ _) proceeds).1
    cases progress with
    | arrived found' =>
      cases settles
      exact (proceed_through static proceeds fun _ same => by cases same; exact plain).bind rfl
    | diverted => cases settles
  | succ links ih =>
    unfold Call.follow at settles ⊢
    obtain ⟨progress, _, proceeds, settles⟩ := Settles.of_bind settles
    cases (eq_of_settles static (yields_proceed _ _ _) proceeds).1
    cases progress with
    | arrived found' =>
      cases settles
      exact (proceed_through static proceeds fun _ same => by cases same; exact plain).bind rfl
    | diverted above target rest =>
      refine (proceed_through static proceeds fun _ no => by cases no).bind ?_
      dsimp only at settles ⊢
      split at settles
      · cases settles
      next some =>
        rw [if_neg some]
        exact ih settles

theorem resolve_through {path : String} {id : NodeId}
    (settles : Settles (Call.resolve false path) files id files)
    (plain : (files.node id).target? = none) :
    Settles (Call.resolve true path) files id files := by
  have nonempty := nonempty_of_resolve settles
  rw [resolve_eq nonempty] at settles ⊢
  obtain ⟨found, _, locates, rest⟩ := Settles.of_bind settles
  have same := (rest.unique (.pure _ _)).1
  rw [same] at plain
  unfold Call.locate at locates ⊢
  obtain ⟨_, _, looks, follows⟩ := Settles.of_bind locates
  cases (looks.unique (.get _)).1
  cases (looks.unique (.get _)).2
  cases (eq_of_settles static (yields_follow _ _ _ _) follows).1
  exact ((Settles.get files).bind (follow_through static follows plain)).bind rest

/-- What is no link has one status, whether or not links are followed. -/
theorem status_through {path : String} {status : Status} {found : List NodeId}
    (settles : Settles (Call.status false path) files status files)
    (leads : files.LeadsTo false path found)
    (plain : (files.node (found.headD root)).target? = none) :
    Settles (Call.status true path) files status files := by
  unfold Call.status at settles ⊢
  obtain ⟨id, _, resolves, rest⟩ := Settles.of_bind settles
  obtain ⟨same, found', leads', here⟩ := eq_of_settles static (yields_resolve _ _) resolves
  cases same
  cases leads.unique leads'
  rw [← here] at plain
  exact (resolve_through static resolves plain).bind rest

end Through

/-! ## Legible file systems -/

/-- `files.Below paths path`: the path is one of `paths`, or that of an entry below them. -/
inductive Below (files : FileSystem) (paths : List String) : String → Prop
  | root {path : String} : path ∈ paths → Below files paths path
  | entry {path name : String} {found : Directory} : Below files paths path →
      ((Call.scan path).run.run files).1 = .ok found → name ∈ found.map Prod.fst →
      Below files paths (Path.join path name)

/-- `files.IsLegible paths`: all that is listed below the paths can be looked at.

* `named`: directories list names that paths can hold, each of them once.
* `typed`: the status of a node agrees with what the node is.
* `listed`: what a directory lists has a status, where links are not followed.
* `dotted`: so have the entries `.` and `..` of a directory that is listed. -/
structure IsLegible (files : FileSystem) (paths : List String) : Prop where
  named : ∀ id ∈ files.places, ∀ entries, (files.node id).entries? = some entries →
    (∀ entry ∈ entries, Path.IsName entry.1) ∧ (entries.map Prod.fst).Nodup
  typed : ∀ id ∈ files.places,
    ((files.node id).status.fileType = .directory ↔ (files.node id).isDirectory = true) ∧
      ((files.node id).status.fileType = .symlink ↔ (files.node id).isSymlink = true)
  listed : ∀ path found, files.Below paths path → ((Call.scan path).run.run files).1 = .ok found →
    ∀ entry ∈ found, ∃ status,
      ((Call.status false (Path.join path entry.1)).run.run files).1 = .ok status
  dotted : ∀ path found, files.Below paths path → ((Call.scan path).run.run files).1 = .ok found →
    ∀ name ∈ [".", ".."], ∃ status,
      ((Call.status true (Path.join path name)).run.run files).1 = .ok status

/-- Whether all that is listed in some places can be looked at and is again one of them, and whether
all nodes are as systems keep them. -/
def checksLegible (files : FileSystem) (within : List String) : Bool :=
  (within.all fun path =>
    match ((Call.scan path).run.run files).1 with
    | .error _ => true
    | .ok found =>
      (found.all fun entry =>
        within.contains (Path.join path entry.1) &&
          ((Call.status false (Path.join path entry.1)).run.run files).1.isOk) &&
      [".", ".."].all fun name =>
        ((Call.status true (Path.join path name)).run.run files).1.isOk) &&
  files.places.all fun id =>
    ((files.node id).entries?.all fun entries =>
      entries.all (fun entry => decide (Path.IsName entry.1)) &&
        decide (entries.map Prod.fst).Nodup) &&
    decide (((files.node id).status.fileType = .directory ↔ (files.node id).isDirectory = true) ∧
      ((files.node id).status.fileType = .symlink ↔ (files.node id).isSymlink = true))

/-- A file system is legible if all paths below the given ones were checked. -/
theorem isLegible_of_checks {paths within : List String}
    (checks : files.checksLegible within = true) (roots : ∀ path ∈ paths, path ∈ within) :
    files.IsLegible paths := by
  obtain ⟨scans, nodes⟩ := Bool.and_eq_true_iff.mp checks
  rw [List.all_eq_true] at scans nodes
  have scanned : ∀ {path found}, path ∈ within → ((Call.scan path).run.run files).1 = .ok found →
      (∀ entry ∈ found, Path.join path entry.1 ∈ within ∧
        ((Call.status false (Path.join path entry.1)).run.run files).1.isOk = true) ∧
      ∀ name ∈ [".", ".."],
        ((Call.status true (Path.join path name)).run.run files).1.isOk = true := by
    intro path found inside given
    have here := scans path inside
    rw [given] at here
    simpa only [Bool.and_eq_true, List.all_eq_true, List.contains_iff_mem] using here
  have inside : ∀ {path}, files.Below paths path → path ∈ within := by
    intro path below
    induction below with
    | root member => exact roots _ member
    | entry _ given listed ih =>
      obtain ⟨entry, member, rfl⟩ := List.mem_map.mp listed
      exact ((scanned ih given).1 entry member).1
  have answers : ∀ {α : Type} {result : Except Fault α}, result.isOk = true →
      ∃ answer, result = .ok answer := by
    intro α result ok
    cases result with
    | error => cases ok
    | ok answer => exact ⟨answer, rfl⟩
  refine ⟨fun id member entries listed => ?_, fun id member => ?_,
    fun path found below given entry member =>
      answers ((scanned (inside below) given).1 entry member).2,
    fun path found below given name member =>
      answers ((scanned (inside below) given).2 name member)⟩
  · have node := (Bool.and_eq_true_iff.mp (nodes id member)).1
    rw [listed] at node
    simpa using node
  · exact of_decide_eq_true (Bool.and_eq_true_iff.mp (nodes id member)).2

theorem nonempty_of_scan {path : String} {found : Directory} {files' : FileSystem}
    (settles : Settles (Call.scan path) files found files') : path ≠ "" := by
  obtain ⟨_, _, resolves, -⟩ := Settles.of_bind settles
  exact nonempty_of_resolve resolves

/-! ## Entries of legible directories -/

section Children

variable {paths : List String} {path name : String} {id : NodeId} {found : Directory}
variable (static : files.IsStatic) (legible : files.IsLegible paths)
variable (below : files.Below paths path) (scans : Settles (Call.scan path) files found files)
variable (member : (name, id) ∈ found)
include static legible below scans member

/-- The status of an entry is the status of the node that is listed. -/
theorem exists_status_child :
    ∃ stack, files.LeadsTo false (Path.join path name) stack ∧ stack.headD root = id ∧
      Settles (Call.status false (Path.join path name)) files (files.node id).status files := by
  obtain ⟨status, answers⟩ := legible.listed path found below (congrArg Prod.fst scans) _ member
  have settles := settles_of_answers static (yields_status _ _) answers
  obtain ⟨-, stack, leads, rfl⟩ := eq_of_settles static (yields_status _ _) settles
  obtain ⟨-, above, leadsAbove, listed⟩ := eq_of_settles static (yields_scan _) scans
  obtain ⟨isName, once⟩ := legible.named _ leadsAbove.headD_mem_places _ listed
  obtain ⟨entries, id', listed', member', here⟩ :=
    leadsAbove.child (nonempty_of_scan scans) (isName _ member) leads
  cases listed.symm.trans listed'
  have same : (name, id') = (name, id) :=
    List.inj_on_of_nodup_map once member' member rfl
  cases same
  exact ⟨stack, leads, here, here ▸ settles⟩

/-- A listing says of an entry whether its status is that of a directory. -/
theorem settles_isDirectory {followLinks : Bool} {status : Status} {stack : List NodeId}
    (settles : Settles (Call.status followLinks (Path.join path name)) files status files)
    (leads : files.LeadsTo followLinks (Path.join path name) stack) :
    Settles (Call.isDirectory followLinks path name id) files
      (files.node (stack.headD root)).isDirectory files := by
  obtain ⟨stack', leads', rfl, -⟩ := exists_status_child static legible below scans member
  unfold Call.isDirectory
  refine (Settles.get files).bind ?_
  dsimp only
  split
  next through =>
    obtain ⟨rfl, -⟩ := Bool.and_eq_true_iff.mp through
    obtain ⟨_, _, resolves, -⟩ := Settles.of_bind settles
    obtain ⟨same, stack'', leads'', rfl⟩ := eq_of_settles static (yields_resolve _ _) resolves
    cases same
    cases leads.unique leads''
    exact resolves.bind ((Settles.get files).bind (.pure _ _))
  next direct =>
    have same : stack = stack' := by
      cases followLinks with
      | false => exact leads.unique leads'
      | true =>
        have plain : (files.node (stack'.headD root)).target? = none := by
          simpa [Node.isSymlink] using direct
        exact leads.unique (leads'.through plain)
    rw [same]
    exact .pure _ _

/-- What has no status where links are followed is a link: otherwise it would have that of the node
that is listed. -/
theorem link_of_refused {followLinks : Bool}
    (refused : ¬Settles (Call.status followLinks (Path.join path name)) files
      (files.node id).status files) :
    (files.node id).status.fileType = .symlink ∧ followLinks = true := by
  obtain ⟨stack, leads, last, settles⟩ := exists_status_child static legible below scans member
  cases followLinks with
  | false => exact absurd settles refused
  | true =>
    refine ⟨(legible.typed id (last ▸ leads.headD_mem_places)).2.mpr ?_, rfl⟩
    unfold Node.isSymlink
    refine Option.isSome_iff_ne_none.mpr fun plain => refused ?_
    exact status_through static settles leads (last ▸ plain)

end Children
end FileSystem

namespace Walk

open FileSystem

/-- An entry of a legible directory gets a status. If it is not listed as a directory, it is
none. -/
theorem exists_withStatus_child {files : FileSystem} {paths : List String} {path name : String}
    {id : NodeId} {found : Directory} (static : files.IsStatic) (calm : files.IsCalm)
    (legible : files.IsLegible paths) (below : files.Below paths path)
    (scans : Settles (Call.scan path) files found files) (member : (name, id) ∈ found)
    (followLinks : Bool) :
    ∃ answer, Settles (attempt (Call.isDirectory followLinks path name id)) files answer files ∧
      ∀ entry : Entry, entry.accessPath = Path.join path name → ∃ kind status,
        Settles (withStatus followLinks entry) files { entry with kind, status } files ∧
        kind ≠ .error ∧ kind ≠ .noStatus ∧
        (answer ≠ .ok true → kind ≠ .directory ∧ kind ≠ .cycle) := by
  obtain ⟨answer, asked, holds⟩ := settles_of_calm static
    (yields_attempt (yields_status followLinks (Path.join path name)))
    (spares_attempt (spares_status calm _ _))
  cases answer with
  | ok status =>
    obtain ⟨stack', leads', rfl⟩ := holds status rfl
    have sees : Settles (Call.status followLinks (Path.join path name)) files
        (files.node (stack'.headD root)).status files :=
      settles_attempt asked
    refine ⟨_, (settles_isDirectory static legible below scans member sees leads').attempt,
      fun entry here => ?_⟩
    rw [← here] at asked
    refine ⟨_, _, asked.bind (.pure _ _), kindOf_ne (by decide), kindOf_ne (by decide),
      fun no => ?_⟩
    have plain : (files.node (stack'.headD root)).status.fileType ≠ .directory :=
      fun directory => no (congrArg _ ((legible.typed _ leads'.headD_mem_places).1.mp directory))
    exact ⟨fun same => plain (kindOf_eq_directory.mp same).1,
      fun same => plain (kindOf_eq_cycle.mp same).1⟩
  | error error =>
    obtain ⟨answer, listed, -⟩ := settles_of_calm static
      (yields_attempt (yields_isDirectory followLinks path name id))
      (spares_attempt (spares_isDirectory calm _ _ _ _))
    obtain ⟨link, rfl⟩ := link_of_refused static legible below scans member
      fun sees => nomatch (asked.unique sees.attempt).1
    obtain ⟨stack, -, -, settles⟩ := exists_status_child static legible below scans member
    refine ⟨answer, listed, fun entry here => ?_⟩
    rw [← here] at asked settles
    refine ⟨.dangling, some (files.node id).status, asked.bind ?_, nofun, nofun,
      fun _ => ⟨nofun, nofun⟩⟩
    dsimp only
    rw [if_pos rfl]
    refine settles.attempt.bind ?_
    dsimp only
    rw [if_pos link]
    exact .pure _ _

end Walk
end DirList
