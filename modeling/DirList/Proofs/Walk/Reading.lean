import DirList.Proofs.FileSystem.Resolution
import DirList.Proofs.Sorting.Permutation
import DirList.Walk.Basic

/-!
# What reading gives

The entries that reading a directory gives are entries of that directory, each with what could be
found out of its node.

Results:
1. `yields_withStatus`: an entry whose status was asked for is one of four things.
2. `yields_readDirectory`: the sorted entries of a directory are its children, numbered without
   gaps.
3. `Found.directory`, `Found.repeated`: a directory differs from those above it; one that does not
   is a cycle.
-/

namespace DirList

open FileSystem

namespace Entry

/-- One entry is listed in the directory of another. -/
structure IsChildOf (parent child : Entry) : Prop where
  ancestors : child.ancestors = parent.lineage
  level : child.level = parent.level + 1
  path : child.path = Path.join parent.path child.name
  accessPath : child.accessPath = Path.join parent.accessPath child.name

/-- `Found files followLinks entry`: what became of an entry that was read.

* `unasked`: its status was not to be taken.
* `lost`: its status could not be had.
* `dangling`: it is a link that leads nowhere.
* `dot`: it is one of the entries `.` and `..`.
* `classified`: its path leads to a node, and the status of the node says what it is. -/
inductive Found (files : FileSystem) (followLinks : Bool) (entry : Entry) : Prop
  | unasked : entry.kind = .unasked → entry.status = none → Found files followLinks entry
  | lost : entry.kind = .noStatus → entry.status = none → Found files followLinks entry
  | dangling {status : Status} : entry.kind = .dangling → entry.status = some status →
      status.fileType = .symlink → Found files followLinks entry
  | dot : entry.kind = .dot → entry.name = "." ∨ entry.name = ".." →
      Found files followLinks entry
  | classified {status : Status} {found : List NodeId} :
      entry.kind = Walk.kindOf entry.ancestors status → entry.status = some status →
      files.LeadsTo followLinks entry.accessPath found →
      status = (files.node (found.headD root)).status → Found files followLinks entry

end Entry

namespace Walk

variable {files : FileSystem}

/-! ## Kinds -/

theorem kindOf_eq_directory {ancestors : List Ancestor} {status : Status} :
    kindOf ancestors status = .directory ↔
      status.fileType = .directory ∧ ∀ above ∈ ancestors, above.fileId ≠ some status.fileId := by
  unfold kindOf
  split
  next directory =>
    split
    next above => simpa [directory] using above
    next above => simpa [directory] using above
  all_goals
    constructor
    · intro no
      cases no
    · rintro ⟨directory, -⟩
      simp_all

theorem kindOf_eq_cycle {ancestors : List Ancestor} {status : Status} :
    kindOf ancestors status = .cycle ↔
      status.fileType = .directory ∧ ∃ above ∈ ancestors, above.fileId = some status.fileId := by
  unfold kindOf
  split
  next directory =>
    split
    next above => simpa [directory] using above
    next above => simpa [directory] using above
  all_goals
    constructor
    · intro no
      cases no
    · rintro ⟨directory, -⟩
      simp_all

/-- The kinds that a status can make. -/
def classes : List Kind := [.directory, .cycle, .symlink, .file, .other]

theorem kindOf_mem_classes (ancestors : List Ancestor) (status : Status) :
    kindOf ancestors status ∈ classes := by
  unfold kindOf
  split
  · split <;> decide
  all_goals decide

theorem kindOf_ne {ancestors : List Ancestor} {status : Status} {kind : Kind}
    (other : kind ∉ classes) : kindOf ancestors status ≠ kind :=
  fun same => other (same ▸ kindOf_mem_classes ancestors status)

end Walk

namespace Entry.Found

variable {files : FileSystem} {followLinks : Bool} {entry : Entry}

/-- What is read as a directory has the status of a directory, unlike all directories above it. -/
theorem directory (found : Found files followLinks entry) (here : entry.kind = .directory) :
    ∃ status, entry.status = some status ∧ status.fileType = .directory ∧
      status.fileId ∈ files.fileIds ∧
      ∀ above ∈ entry.ancestors, above.fileId ≠ some status.fileId := by
  cases found with
  | unasked kind | lost kind | dangling kind | dot kind => cases here.symm.trans kind
  | @classified status found kind known leads same =>
    obtain ⟨directory, differs⟩ := Walk.kindOf_eq_directory.mp (kind.symm.trans here)
    refine ⟨status, known, directory, ?_, differs⟩
    rw [same]
    exact leads.fileId_mem

/-- A directory that is one of those above it is read as a cycle, or as `.` or `..`. -/
theorem repeated (found : Found files followLinks entry) {status : Status}
    (known : entry.status = some status) (directory : status.fileType = .directory)
    (above : ∃ above ∈ entry.ancestors, above.fileId = some status.fileId) :
    entry.kind = .cycle ∨ entry.kind = .dot ∧ (entry.name = "." ∨ entry.name = "..") := by
  cases found with
  | unasked _ unknown | lost _ unknown => cases known.symm.trans unknown
  | dangling _ known' link =>
    cases known.symm.trans known'
    cases directory.symm.trans link
  | dot kind name => exact .inr ⟨kind, name⟩
  | classified kind known' =>
    cases known.symm.trans known'
    exact .inl (kind.trans (Walk.kindOf_eq_cycle.mpr ⟨directory, above⟩))

/-- Nothing is read as finished, unreadable or an error. -/
theorem kind_ne (found : Found files followLinks entry) :
    entry.kind ≠ .finished ∧ entry.kind ≠ .unreadable ∧ entry.kind ≠ .error := by
  cases found with
  | unasked kind | lost kind | dangling kind | dot kind => simp [kind]
  | classified kind =>
    rw [kind]
    exact ⟨Walk.kindOf_ne (by decide), Walk.kindOf_ne (by decide), Walk.kindOf_ne (by decide)⟩

end Entry.Found

namespace Walk

variable {files : FileSystem}

/-! ## Entries -/

/-- An entry of which a kind, a status and the number of an error were found out. -/
def informed (entry : Entry) (kind : Kind) (status : Option Status) (code : Int) : Entry :=
  { entry with kind, status, errorCode := code }

theorem yields_withStatus (followLinks : Bool) (entry : Entry) :
    files.Yields (withStatus followLinks entry) fun result =>
      result.Found files followLinks ∧
        ∃ kind status code, result = informed entry kind status code := by
  refine (yields_attempt (yields_status followLinks entry.accessPath)).bind fun answer holds => ?_
  cases answer with
  | ok status =>
    obtain ⟨found, leads, same⟩ := holds status rfl
    exact Yields.pure ⟨.classified rfl rfl leads same, _, _, _, rfl⟩
  | error error =>
    have lost : Entry.Found files followLinks
        { entry with status := none, kind := .noStatus, errorCode := error.codeOrZero } :=
      .lost rfl rfl
    dsimp only
    split
    · refine (yields_attempt (yields_status false entry.accessPath)).bind fun answer _ => ?_
      cases answer with
      | ok status =>
        dsimp only
        split
        next link => exact Yields.pure ⟨.dangling rfl rfl link, _, _, _, rfl⟩
        next => exact Yields.pure ⟨lost, _, _, _, rfl⟩
      | error _ => exact Yields.pure ⟨lost, _, _, _, rfl⟩
    · exact Yields.pure ⟨lost, _, _, _, rfl⟩

/-- An entry that was read at the place `serial` among the entries of `parent`. -/
structure ReadAt (files : FileSystem) (followLinks : Bool) (parent : Entry) (serial : Nat)
    (name : String) (entry : Entry) : Prop where
  child : parent.IsChildOf entry
  found : entry.Found files followLinks
  serial : entry.serial = serial
  name : entry.name = name

theorem yields_readChild (options : WalkOptions) (namesOnly : Bool) (parent : Entry) (serial : Nat)
    (found : String × NodeId) :
    files.Yields (readChild options namesOnly parent serial found)
      (ReadAt files options.logical parent serial found.1) := by
  have known : ∀ isDirectory : Bool, files.Yields
      (if namesOnly || (options.skipStatus && !isDirectory) then
        pure { childEntry parent serial found.1 with listedAsDirectory := isDirectory }
      else withStatus options.logical
        { childEntry parent serial found.1 with listedAsDirectory := isDirectory })
      (ReadAt files options.logical parent serial found.1) := by
    intro isDirectory
    split
    · exact Yields.pure ⟨⟨rfl, rfl, rfl, rfl⟩, .unasked rfl rfl, rfl, rfl⟩
    · refine (yields_withStatus _ _).mono ?_
      rintro _ ⟨found, kind, status, code, rfl⟩
      exact ⟨⟨rfl, rfl, rfl, rfl⟩, found, rfl, rfl⟩
  exact (yields_attempt (yields_isDirectory _ _ _ _)).bind fun _ _ => known _

/-- Entries that were read one after another, from the place `serial` on. -/
inductive ReadFrom (files : FileSystem) (followLinks : Bool) (parent : Entry) :
    Nat → List String → List Entry → Prop
  | nil {serial : Nat} : ReadFrom files followLinks parent serial [] []
  | cons {serial : Nat} {name : String} {names : List String} {entry : Entry}
      {entries : List Entry} :
      ReadAt files followLinks parent serial name entry →
      ReadFrom files followLinks parent (serial + 1) names entries →
      ReadFrom files followLinks parent serial (name :: names) (entry :: entries)

theorem yields_readChildren (options : WalkOptions) (namesOnly : Bool) (parent : Entry)
    (serial : Nat) (found : Directory) :
    files.Yields (readChildren options namesOnly parent serial found)
      (ReadFrom files options.logical parent serial (found.map Prod.fst)) := by
  induction found generalizing serial with
  | nil => exact Yields.pure .nil
  | cons head rest ih =>
    refine (yields_readChild _ _ _ _ _).bind fun entry readAt => ?_
    refine (ih (serial + 1)).bind fun entries readFrom => ?_
    exact Yields.pure (.cons readAt readFrom)

theorem yields_readDot (namesOnly : Bool) (parent : Entry) (serial : Nat) {name : String}
    (dot : name = "." ∨ name = "..") (followLinks : Bool) :
    files.Yields (readDot namesOnly parent serial name) fun entry =>
      ReadAt files followLinks parent serial name entry ∧ entry.kind ≠ .directory ∧
        entry.kind ≠ .cycle := by
  unfold readDot
  dsimp only
  split
  · exact Yields.pure ⟨⟨⟨rfl, rfl, rfl, rfl⟩, .unasked rfl rfl, rfl, rfl⟩, nofun, nofun⟩
  · refine (yields_withStatus _ _).bind ?_
    rintro _ ⟨found, kind, status, code, rfl⟩
    refine Yields.pure ?_
    split
    next lost =>
      have kept : (informed { childEntry parent serial name with listedAsDirectory := true }
          kind status code).Found files followLinks := by
        cases found with
        | unasked no | dangling no | dot no => cases lost.symm.trans no
        | lost _ unknown => exact .lost lost unknown
        | classified no => exact absurd (no.symm.trans lost) (kindOf_ne (by decide))
      refine ⟨⟨⟨rfl, rfl, rfl, rfl⟩, kept, rfl, rfl⟩, ?_, ?_⟩
      · simp [lost]
      · simp [lost]
    next => exact ⟨⟨⟨rfl, rfl, rfl, rfl⟩, .dot rfl dot, rfl, rfl⟩, nofun, nofun⟩

/-- `Listing files followLinks parent serial entries`: the entries were read from the directory
`parent`, numbered from `serial` on, and sorted.

* `numbered`: no number is used twice and none is left out.
* `bounded`: there are no more of them than listed names, `.` and `..`.
* `listed`: a directory or a cycle among them is listed in the directory that `parent` leads to. -/
structure Listing (files : FileSystem) (followLinks : Bool) (parent : Entry) (serial : Nat)
    (entries : List Entry) : Prop where
  child : ∀ entry ∈ entries, parent.IsChildOf entry
  found : ∀ entry ∈ entries, entry.Found files followLinks
  numbered : (entries.map Entry.serial).Perm (List.range' serial entries.length)
  bounded : entries.length ≤ files.entryCount + 2
  listed : ∀ entry ∈ entries, entry.kind = .directory ∨ entry.kind = .cycle →
    ∃ found names, files.LeadsTo true parent.accessPath found ∧
      (files.node (found.headD root)).entries? = some names ∧
      entry.name ∈ names.map Prod.fst

namespace ReadFrom

variable {followLinks : Bool} {parent : Entry} {serial : Nat} {names : List String}
  {entries : List Entry}

theorem length_eq (read : ReadFrom files followLinks parent serial names entries) :
    entries.length = names.length := by
  induction read with
  | nil => rfl
  | cons _ _ ih => rw [List.length_cons, List.length_cons, ih]

theorem serials (read : ReadFrom files followLinks parent serial names entries) :
    entries.map Entry.serial = List.range' serial entries.length := by
  induction read with
  | nil => rfl
  | cons readAt _ ih => rw [List.map_cons, List.length_cons, List.range'_succ, readAt.serial, ih]

theorem forall_mem (read : ReadFrom files followLinks parent serial names entries) :
    ∀ entry ∈ entries, parent.IsChildOf entry ∧ entry.Found files followLinks ∧
      entry.name ∈ names := by
  induction read with
  | nil => exact fun _ no => nomatch no
  | cons readAt _ ih =>
    intro entry member
    rcases List.mem_cons.mp member with rfl | later
    · exact ⟨readAt.child, readAt.found, readAt.name ▸ List.mem_cons_self⟩
    · obtain ⟨child, found, named⟩ := ih entry later
      exact ⟨child, found, List.mem_cons_of_mem _ named⟩

end ReadFrom

theorem yields_readDots (options : WalkOptions) (namesOnly : Bool) (parent : Entry)
    (serial : Nat) (followLinks : Bool) :
    files.Yields (readDots options namesOnly parent serial) fun entries =>
      ∃ names, ReadFrom files followLinks parent serial names entries ∧ entries.length ≤ 2 ∧
        ∀ entry ∈ entries, entry.kind ≠ .directory ∧ entry.kind ≠ .cycle := by
  unfold readDots
  split
  · refine (yields_readDot _ _ _ (.inl rfl) followLinks).bind fun self ⟨first, notFirst⟩ => ?_
    refine (yields_readDot _ _ _ (.inr rfl) followLinks).bind fun above ⟨second, notSecond⟩ => ?_
    refine Yields.pure ⟨_, .cons first (.cons second .nil), Nat.le_refl _, ?_⟩
    intro entry member
    rcases List.mem_cons.mp member with rfl | member
    · exact notFirst
    · rcases List.mem_singleton.mp member with rfl
      exact notSecond
  · exact Yields.pure ⟨[], .nil, Nat.zero_le _, fun _ no => nomatch no⟩

/-- The sorted entries of a directory are its children. -/
theorem yields_readDirectory (options : WalkOptions) (comparator : Option Comparator)
    (namesOnly : Bool) (parent : Entry) (serial : Nat) :
    files.Yields (readDirectory options comparator namesOnly parent serial) fun answer =>
      ∀ entries, answer = .ok entries → Listing files options.logical parent serial entries := by
  refine (yields_attempt (yields_scan parent.accessPath)).bind fun answer holds => ?_
  cases answer with
  | error error => exact Yields.pure fun _ no => nomatch no
  | ok directory =>
    obtain ⟨found, leads, listed⟩ := holds directory rfl
    refine (yields_readChildren _ _ _ _ _).bind fun children read => ?_
    refine (yields_readDots _ _ _ _ options.logical).bind
      fun dots ⟨names, readDots, few, plain⟩ => ?_
    refine Yields.pure fun entries success => ?_
    -- Sorting changes the order only, so that everything is known from before.
    have rearranged : entries.Perm (dots ++ children) := sortEntries_perm success
    have count : children.length = directory.length := by
      rw [read.length_eq, List.length_map]
    have known : ∀ entry ∈ entries, (parent.IsChildOf entry ∧ entry.Found files options.logical) ∧
        (entry ∈ dots ∨ entry.name ∈ directory.map Prod.fst) := by
      intro entry member
      rcases List.mem_append.mp (rearranged.mem_iff.mp member) with dot | child
      · obtain ⟨child, found, _⟩ := readDots.forall_mem entry dot
        exact ⟨⟨child, found⟩, .inl dot⟩
      · obtain ⟨child, found, named⟩ := read.forall_mem entry child
        exact ⟨⟨child, found⟩, .inr named⟩
    refine ⟨fun entry member => (known entry member).1.1,
      fun entry member => (known entry member).1.2, ?_, ?_, ?_⟩
    · refine (rearranged.map _).trans ?_
      rw [List.map_append, readDots.serials, read.serials, rearranged.length_eq,
        List.length_append, Nat.add_comm dots.length, ← List.range'_append_1, count]
      exact List.perm_append_comm
    · rw [rearranged.length_eq, List.length_append, count]
      have := length_le_entryCount listed
      omega
    · intro entry member kind
      rcases (known entry member).2 with dot | named
      · exact (kind.elim (plain entry dot).1 (plain entry dot).2).elim
      · exact ⟨found, directory, leads, listed, named⟩

/-! ## Roots -/

/-- Roots that were read from paths, numbered from `serial` on. -/
structure Roots (files : FileSystem) (followLinks : Bool) (serial : Nat) (paths : List String)
    (entries : List Entry) : Prop where
  level : ∀ entry ∈ entries, entry.level = 0
  ancestors : ∀ entry ∈ entries, entry.ancestors = []
  path : ∀ entry ∈ entries, entry.accessPath ∈ paths
  found : ∀ entry ∈ entries, entry.Found files followLinks
  numbered : (entries.map Entry.serial).Perm (List.range' serial paths.length)

theorem yields_readRoots (followLinks : Bool) (serial : Nat) (paths : List String) :
    files.Yields (readRoots followLinks serial paths) fun entries =>
      entries.map Entry.serial = List.range' serial paths.length ∧
        ∀ entry ∈ entries, entry.level = 0 ∧ entry.ancestors = [] ∧ entry.accessPath ∈ paths ∧
          entry.Found files followLinks := by
  induction paths generalizing serial with
  | nil => exact Yields.pure ⟨rfl, fun _ no => nomatch no⟩
  | cons path rest ih =>
    refine (yields_withStatus _ _).bind ?_
    rintro _ ⟨found, kind, status, code, rfl⟩
    refine (ih (serial + 1)).bind fun entries ⟨serials, known⟩ => Yields.pure ⟨?_, ?_⟩
    · rw [List.map_cons, List.length_cons, List.range'_succ, serials]
      rfl
    · intro entry member
      rcases List.mem_cons.mp member with rfl | later
      · exact ⟨rfl, rfl, List.mem_cons_self, found⟩
      · obtain ⟨level, ancestors, path, found⟩ := known entry later
        exact ⟨level, ancestors, List.mem_cons_of_mem _ path, found⟩

/-- A walk at its start. -/
structure Starts (files : FileSystem) (serial : Nat) (paths : List String) (options : WalkOptions)
    (comparator : Option Comparator) (walk : Walk) : Prop where
  roots : Roots files (options.followRoots || options.logical) serial paths walk.roots
  nonempty : ∀ path ∈ paths, path ≠ ""
  fresh : walk = {
    options, comparator
    roots := walk.roots
    pending := walk.roots
    frames := []
    current := none
    started := false
    closed := false
    listed := none
    skipped := []
    nextSerial := serial + paths.length }

/-- Over some paths of which none is empty, a walk can be opened unless one has a null character. -/
theorem unfit_of_named {paths : List String} (some : paths ≠ []) (named : "" ∉ paths) :
    unfit paths = if paths.any Path.hasNull then Option.some .nullPath else none := by
  have nonempty : paths.isEmpty = false := by simpa using some
  have filled : paths.any String.isEmpty = false := List.any_eq_false.mpr fun path member empty =>
    named (String.isEmpty_iff.mp empty ▸ member)
  rw [unfit, nonempty, filled, if_neg Bool.false_ne_true, if_neg Bool.false_ne_true]

/-- A walk can be opened over some paths of which none is empty or has a null character. -/
theorem unfit_eq_none {paths : List String} :
    unfit paths = none ↔ paths ≠ [] ∧ "" ∉ paths ∧ ∀ path ∈ paths, Path.hasNull path = false := by
  have named : paths.any String.isEmpty = true ↔ "" ∈ paths := by
    simp [List.any_eq_true]
  have clear : paths.any Path.hasNull = false ↔ ∀ path ∈ paths, Path.hasNull path = false := by
    simp [List.any_eq_false]
  unfold unfit
  rw [← named, ← clear]
  split_ifs with none empty null
  all_goals simp_all

/-- Whether a walk can be opened over paths does not depend on their order. -/
theorem unfit_eq_of_perm {paths paths' : List String} (same : paths.Perm paths') :
    unfit paths = unfit paths' := by
  unfold unfit
  rw [same.isEmpty_eq, same.any_eq, same.any_eq]

theorem yields_start (serial : Nat) (paths : List String) (options : WalkOptions)
    (comparator : Option Comparator) :
    files.Yields (start serial paths options comparator) fun answer =>
      ∀ walk, answer = .ok walk → Starts files serial paths options comparator walk := by
  unfold start
  split
  · exact (yields_readRoots _ _ _).bind fun _ _ => Yields.pure fun _ no => nomatch no
  · exact Yields.pure fun _ no => nomatch no
  next fit =>
    have nonempty : ∀ path ∈ paths, path ≠ "" := fun path member empty =>
      (unfit_eq_none.mp fit).2.1 (empty ▸ member)
    refine (yields_readRoots _ _ _).bind fun entries ⟨serials, known⟩ => ?_
    split
    · exact Yields.pure fun _ no => nomatch no
    next roots sorted =>
      have rearranged : roots.Perm entries := sortEntries_perm sorted
      refine Yields.pure fun walk same => ?_
      cases same
      refine ⟨⟨fun entry member => ?_, fun entry member => ?_, fun entry member => ?_,
        fun entry member => ?_, ?_⟩, nonempty, rfl⟩
      · exact (known entry (rearranged.mem_iff.mp member)).1
      · exact (known entry (rearranged.mem_iff.mp member)).2.1
      · exact (known entry (rearranged.mem_iff.mp member)).2.2.1
      · exact (known entry (rearranged.mem_iff.mp member)).2.2.2
      · exact (rearranged.map _).trans (.of_eq serials)

end Walk
end DirList
