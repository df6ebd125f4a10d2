import DirList.Proofs.FileSystem.Veiling
import DirList.Proofs.Walk.Agreement

/-!
# Reading what is in sight

In file systems that are the same but for what lies in some hidden directories, a walk that follows
no links reads the same entries at paths that keep clear of these directories. Each of the entries
is hidden, or its path keeps clear again if it is a directory.

Results:
1. `agrees_readRoots`: the roots are read alike.
2. `agrees_readChild_of_counterpart`: so is one entry of a directory.
3. `agrees_readDirectory`: and so are the entries of a directory.
-/

namespace DirList

open FileSystem

/-- `entry.InView files files' twin`: the entry can be gone into, and looked at, in the one file
system as in the other.

* `clear`: the path of a directory keeps clear, unless it is one that is passed over.
* `link`: a link that may be there reads alike. -/
structure Entry.InView (files files' : FileSystem) (twin : NodeId → NodeId → Prop)
    (entry : Entry) : Prop where
  clear : entry.kind = .directory → entry.isHidden = false ∨ entry.isRoot = true →
    files.IsClear (InSight twin) entry.accessPath
  link : Agrees files files' Eq (Call.readLink entry.accessPath) (Call.readLink entry.accessPath)

namespace Walk

section Reading

variable {files files' : FileSystem} {twin : NodeId → NodeId → Prop}

variable (static : files.IsStatic) (static' : files'.IsStatic) (veils : files.Veils twin files')
include static static' veils

/-- A root at a path that keeps clear. -/
theorem agrees_readRoot {path : String} (clear : files.IsClear (InSight twin) path)
    (followLinks : Bool) (serial : Nat) :
    Agrees files files' (fun read read' => read' = read ∧ read.InView files files' twin)
      (withStatus followLinks (rootEntry serial path))
      (withStatus followLinks (rootEntry serial path)) := by
  have asks : ∀ followLast, Agrees files files' Eq
      (Call.status followLast (rootEntry serial path).accessPath)
      (Call.status followLast (rootEntry serial path).accessPath) :=
    fun followLast => agrees_status_of_clear static static' veils followLast clear
  refine (agrees_withStatus_of_calls asks).mono ?_
  rintro _ _ ⟨rfl, kind, status, code, rfl⟩
  exact ⟨rfl, fun _ _ => clear, agrees_readLink_of_clear static static' veils clear⟩

/-- The roots at paths that keep clear. -/
theorem agrees_readRoots {paths : List String}
    (clear : ∀ path ∈ paths, files.IsClear (InSight twin) path) (followLinks : Bool)
    (serial : Nat) :
    Agrees files files' (fun read read' => read' = read ∧
        ∀ entry ∈ read, entry.InView files files' twin)
      (readRoots followLinks serial paths) (readRoots followLinks serial paths) := by
  induction paths generalizing serial with
  | nil => exact .pure ⟨rfl, List.forall_mem_nil _⟩
  | cons path rest ih =>
    obtain ⟨first, others⟩ := List.forall_mem_cons.mp clear
    refine (agrees_readRoot static static' veils first followLinks serial).bind ?_
    rintro root _ ⟨rfl, inView⟩
    refine (ih others (serial + 1)).bind ?_
    rintro roots _ ⟨rfl, inView'⟩
    exact .pure ⟨rfl, List.forall_mem_cons.mpr ⟨inView, inView'⟩⟩

section Directory

variable {options : WalkOptions} {parent : Entry}
variable (typed : ∀ id, (files.node id).status.fileType = .directory →
  (files.node id).target? = none)
variable (physical : options.logical = false)
variable (clear : files.IsClear (InSight twin) parent.accessPath) (named : parent.accessPath ≠ "")
variable (deep : parent.level + 1 ≠ 0)
include typed clear named deep

/-- A child gets the same status, and the path of a directory keeps clear. -/
theorem agrees_withStatus_child {entry : Entry} {name : String} (isName : Path.IsName name)
    (path : entry.accessPath = Path.join parent.accessPath name) (called : entry.name = name)
    (level : entry.level = parent.level + 1) :
    Agrees files files' (fun read read' => read' = read ∧ read.InView files files' twin)
      (withStatus false entry) (withStatus false entry) := by
  have link := agrees_readLink_child static static' veils clear named isName
  have status := agrees_status_child static static' veils typed clear named isName
  rw [← path] at link status
  have asks : ∀ followLast, (followLast = true → false = true) → Agrees files files'
      (fun status status' => status' = status ∧
        (status.fileType = .directory → ¬Path.IsHidden name →
          files.IsClear (InSight twin) entry.accessPath))
      (Call.status followLast entry.accessPath) (Call.status followLast entry.accessPath) := by
    intro followLast follows
    cases followLast with
    | true => cases follows rfl
    | false => exact status
  refine (agrees_withStatus_of_status asks).mono ?_
  rintro _ _ ⟨rfl, kind, status, code, rfl, directory⟩
  refine ⟨rfl, fun same shown => ?_, link⟩
  obtain ⟨_, clears, type⟩ := directory same
  refine clears type fun hidden => ?_
  rcases shown with plain | root
  · rw [← called] at hidden
    exact of_decide_eq_false plain hidden
  · have root : decide (entry.level = 0) = true := root
    rw [level, decide_eq_false deep] at root
    cases root

include physical

/-- One entry of a directory whose path keeps clear. -/
theorem agrees_readChild_of_counterpart (namesOnly : Bool) (serial : Nat) {name : String}
    {id id' : NodeId} (isName : Path.IsName name)
    (both : Counterpart files files' twin (name, id) (name, id')) :
    Agrees files files' (fun read read' => read' = read ∧ read.InView files files' twin)
      (readChild options namesOnly parent serial (name, id))
      (readChild options namesOnly parent serial (name, id')) := by
  have lists := agrees_isDirectory_child veils parent.accessPath both
  rw [← physical] at lists
  refine agrees_readChild_of_calls lists (fun _ => ?_) fun _ => ?_
  · refine ⟨rfl, ?_, ?_⟩
    · intro kind
      cases kind
    · exact agrees_readLink_child static static' veils clear named isName
  · rw [physical]
    exact agrees_withStatus_child static static' veils typed clear named deep isName rfl rfl rfl

/-- The entries of a directory whose path keeps clear, one by one. -/
theorem agrees_readChildren_of_counterparts (namesOnly : Bool) {found found' : Directory}
    (both : List.Forall₂ (Counterpart files files' twin) found found')
    (names : ∀ entry ∈ found, Path.IsName entry.1) (serial : Nat) :
    Agrees files files' (fun read read' => read' = read ∧
        ∀ entry ∈ read, entry.InView files files' twin)
      (readChildren options namesOnly parent serial found)
      (readChildren options namesOnly parent serial found') := by
  induction both generalizing serial with
  | nil => exact .pure ⟨rfl, List.forall_mem_nil _⟩
  | @cons first first' rest rest' both _ ih =>
    obtain ⟨name, id⟩ := first
    obtain ⟨name', id'⟩ := first'
    obtain rfl : name' = name := both.name
    obtain ⟨isName, names⟩ := List.forall_mem_cons.mp names
    refine (agrees_readChild_of_counterpart static static' veils typed physical clear named deep
      namesOnly serial isName both).bind ?_
    rintro entry _ ⟨rfl, inView⟩
    refine (ih names (serial + 1)).bind ?_
    rintro entries _ ⟨rfl, inView'⟩
    exact .pure ⟨rfl, List.forall_mem_cons.mpr ⟨inView, inView'⟩⟩

omit named in
/-- The entries of a directory whose path keeps clear, sorted. -/
theorem agrees_readDirectory (names : ∀ id entries, (files.node id).entries? = some entries →
      ∀ found ∈ entries, Path.IsName found.1) (undotted : options.withDots = false)
    (comparator : Option Comparator) (namesOnly : Bool) (serial : Nat) :
    Agrees files files' (fun answer answer' => answer' = answer ∧
        ∀ entries, answer = .ok entries → ∀ entry ∈ entries, entry.InView files files' twin)
      (readDirectory options comparator namesOnly parent serial)
      (readDirectory options comparator namesOnly parent serial) := by
  refine (agrees_scan_of_clear static static' veils clear).attempt.bind fun _ _ same => ?_
  cases same with
  | error error => exact .pure ⟨rfl, nofun⟩
  | @ok found found' both =>
    obtain ⟨nonempty, ⟨id, listed⟩, both⟩ := both
    refine (agrees_readChildren_of_counterparts static static' veils typed physical clear nonempty
      deep namesOnly both (names id found listed) serial).bind ?_
    rintro children _ ⟨rfl, inView⟩
    have none : ∀ serial, readDots options namesOnly parent serial = pure [] := by
      intro serial
      rw [readDots, undotted, if_neg Bool.false_ne_true]
    rw [none, none, pure_bind]
    refine .pure ⟨rfl, fun entries sorted entry member => inView entry ?_⟩
    exact (sortEntries_perm sorted).mem_iff.mp member

end Directory
end Reading
end Walk
end DirList
