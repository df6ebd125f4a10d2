import DirList.Proofs.Sorting.Siblings
import DirList.Proofs.Walk.Legible

/-!
# Entries without their status

A walk can do without the status of what its listing does not call a directory, or of everything
where names are all that is wanted. In a legible file system the status is all that is missing then:
the entries are the same, none of them stands for an error, and directories are still directories.

Results:
1. `exists_spared_readChild`: an entry that is read without its status.
2. `exists_spared_readDots`: the entries `.` and `..` that are.
3. `exists_spared_readDirectory`: the sorted entries of a directory.
-/

namespace DirList

open FileSystem

/-- The options of a walk that takes the status of every entry. -/
def WalkOptions.asking (options : WalkOptions) : WalkOptions :=
  { options with skipStatus := false }

namespace Entry

/-- The entry without its status. -/
def sketch (entry : Entry) : Entry :=
  { entry with kind := .unasked, status := none }

/-- `Spared namesOnly spared entry`: of an entry whose status can be had, it is `entry` that is
read, or it is `spared`. A directory is spared its status only where names are all that is
wanted. -/
structure Spared (namesOnly : Bool) (spared entry : Entry) : Prop where
  known : entry.IsKnown
  same : spared = entry ∨
    spared = entry.sketch ∧ (namesOnly = false → entry.kind ≠ .directory ∧ entry.kind ≠ .cycle)

namespace Spared

variable {namesOnly : Bool} {spared entry : Entry} (spares : Spared namesOnly spared entry)
include spares

theorem name : spared.name = entry.name := by
  rcases spares.same with rfl | ⟨rfl, -⟩ <;> rfl

theorem level : spared.level = entry.level := by
  rcases spares.same with rfl | ⟨rfl, -⟩ <;> rfl

theorem spared_known : spared.IsKnown := by
  rcases spares.same with rfl | ⟨rfl, -⟩
  · exact spares.known
  · exact ⟨nofun, nofun⟩

theorem unnumbered : Spared namesOnly spared.unnumbered entry.unnumbered := by
  refine ⟨spares.known, ?_⟩
  rcases spares.same with rfl | ⟨rfl, plain⟩
  · exact .inl rfl
  · exact .inr ⟨rfl, plain⟩

end Spared

/-- An entry of a directory that is spared its status or not. A directory can be listed in its
turn. -/
structure SparedIn (files : FileSystem) (paths : List String) (namesOnly : Bool)
    (parent spared entry : Entry) : Prop where
  spares : Spared namesOnly spared entry
  level : entry.level = parent.level + 1
  below : entry.kind = .directory → files.Below paths entry.accessPath

end Entry

namespace Walk

variable {files : FileSystem} {paths : List String} {options : WalkOptions} {parent : Entry}
variable (static : files.IsStatic) (calm : files.IsCalm) (legible : files.IsLegible paths)
variable (skips : options.skipStatus = true) (below : files.Below paths parent.accessPath)
variable {scanned : Directory} (scans : Settles (Call.scan parent.accessPath) files scanned files)

section Entries

/-- How an entry is read once the listing has said whether it is a directory. -/
theorem exists_readChild {logical : Bool} (serial : Nat) {found : String × NodeId}
    {answer : Except SystemError Bool}
    (listed : Settles (attempt (Call.isDirectory logical parent.accessPath found.1 found.2)) files
      answer files) :
    ∃ isDirectory, (isDirectory = false → answer ≠ .ok true) ∧
      ∀ (options : WalkOptions) (namesOnly : Bool) (entry : Entry), options.logical = logical →
        Settles (if namesOnly || (options.skipStatus && !isDirectory) then
            pure { childEntry parent serial found.1 with listedAsDirectory := isDirectory }
          else withStatus logical
            { childEntry parent serial found.1 with listedAsDirectory := isDirectory }) files entry
          files →
        Settles (readChild options namesOnly parent serial found) files entry files := by
  cases answer with
  | ok isDirectory =>
    refine ⟨isDirectory, fun plain same => ?_, ?_⟩
    · cases plain.symm.trans (Except.ok.inj same)
    · rintro options namesOnly entry rfl settles
      exact listed.bind settles
  | error error =>
    refine ⟨false, fun _ => nofun, ?_⟩
    rintro options namesOnly entry rfl settles
    exact listed.bind settles

include static legible below scans

include calm skips in
/-- An entry that is read without its status. -/
theorem exists_spared_readChild (namesOnly : Bool) (serial : Nat) {found : String × NodeId}
    (member : found ∈ scanned) :
    ∃ spared entry,
      Settles (readChild options namesOnly parent serial found) files spared files ∧
      Settles (readChild options.asking false parent serial found) files entry files ∧
      parent.SparedIn files paths namesOnly spared entry := by
  obtain ⟨answer, listed, known⟩ :=
    exists_withStatus_child static calm legible below scans member options.logical
  have inside : found.1 ∈ scanned.map Prod.fst := List.mem_map_of_mem member
  obtain ⟨isDirectory, negative, read⟩ := exists_readChild serial listed
  obtain ⟨kind, status, settles, notError, notLost, plain⟩ :=
    known { childEntry parent serial found.1 with listedAsDirectory := isDirectory } rfl
  have whole := read options.asking false _ rfl settles
  have deep : ∀ spared : Entry,
      spared.Spared namesOnly { childEntry parent serial found.1 with
        listedAsDirectory := isDirectory, kind, status } →
      parent.SparedIn files paths namesOnly spared { childEntry parent serial found.1 with
        listedAsDirectory := isDirectory, kind, status } :=
    fun spared spares => ⟨spares, rfl, fun _ => .entry below (congrArg Prod.fst scans) inside⟩
  by_cases spare : (namesOnly || (options.skipStatus && !isDirectory)) = true
  · refine ⟨_, _, read options namesOnly _ rfl ?_, whole,
      deep _ ⟨⟨notError, notLost⟩, .inr ⟨rfl, ?_⟩⟩⟩
    · rw [if_pos spare]
      exact .pure _ _
    · rintro rfl
      exact plain (negative (by simpa [skips] using spare))
  · refine ⟨_, _, read options namesOnly _ rfl ?_, whole, deep _ ⟨⟨notError, notLost⟩, .inl rfl⟩⟩
    rw [if_neg spare]
    exact settles

include calm skips in
theorem exists_spared_readChildren (namesOnly : Bool) (serial : Nat) {listed : Directory}
    (members : ∀ found ∈ listed, found ∈ scanned) :
    ∃ spared entries,
      Settles (readChildren options namesOnly parent serial listed) files spared files ∧
      Settles (readChildren options.asking false parent serial listed) files entries files ∧
      List.Forall₂ (Entry.SparedIn files paths namesOnly parent) spared entries := by
  induction listed generalizing serial with
  | nil => exact ⟨[], [], .pure _ _, .pure _ _, .nil⟩
  | cons found rest ih =>
    obtain ⟨first, others⟩ := List.forall_mem_cons.mp members
    obtain ⟨spared, entry, settles, settles', spares⟩ :=
      exists_spared_readChild static calm legible skips below scans namesOnly serial first
    obtain ⟨spareds, entries, rest, rest', related⟩ := ih (serial + 1) others
    exact ⟨_, _, settles.bind (rest.bind (.pure _ _)), settles'.bind (rest'.bind (.pure _ _)),
      .cons spares related⟩

/-- One of the entries `.` and `..` that is read without its status. -/
theorem exists_spared_readDot (namesOnly : Bool) (serial : Nat) {name : String}
    (dot : name ∈ [".", ".."]) :
    ∃ spared entry,
      Settles (readDot namesOnly parent serial name) files spared files ∧
      Settles (readDot false parent serial name) files entry files ∧
      parent.SparedIn files paths namesOnly spared entry := by
  obtain ⟨status, answers⟩ := legible.dotted _ _ below (congrArg Prod.fst scans) name dot
  have settles := settles_of_answers static (yields_status _ _) answers
  have whole : Settles (readDot false parent serial name) files
      { childEntry parent serial name with
        listedAsDirectory := true, status := some status, kind := .dot } files := by
    unfold readDot
    dsimp only
    rw [if_neg Bool.false_ne_true]
    refine Settles.bind (settles.attempt.bind (.pure _ _)) ?_
    dsimp only
    rw [if_neg (kindOf_ne (by decide))]
    exact .pure _ _
  cases namesOnly with
  | false => exact ⟨_, _, whole, whole, ⟨⟨⟨nofun, nofun⟩, .inl rfl⟩, rfl, nofun⟩⟩
  | true =>
    refine ⟨_, _, ?_, whole, ⟨⟨⟨nofun, nofun⟩, .inr ⟨rfl, nofun⟩⟩, rfl, nofun⟩⟩
    unfold readDot
    dsimp only
    rw [if_pos rfl]
    exact .pure _ _

/-- The entries `.` and `..` that are read without their status. -/
theorem exists_spared_readDots (options : WalkOptions) (namesOnly : Bool) (serial : Nat) :
    ∃ spared entries,
      Settles (readDots options namesOnly parent serial) files spared files ∧
      Settles (readDots options.asking false parent serial) files entries files ∧
      List.Forall₂ (Entry.SparedIn files paths namesOnly parent) spared entries := by
  have same : options.asking.withDots = options.withDots := rfl
  unfold readDots
  rw [same]
  split
  · obtain ⟨_, _, self, self', spares⟩ := exists_spared_readDot static legible below scans
      namesOnly serial (List.mem_cons_self : "." ∈ [".", ".."])
    obtain ⟨_, _, above, above', spares'⟩ := exists_spared_readDot static legible below scans
      namesOnly (serial + 1) (List.mem_cons_of_mem _ List.mem_cons_self : ".." ∈ [".", ".."])
    exact ⟨_, _, self.bind (above.bind (.pure _ _)), self'.bind (above'.bind (.pure _ _)),
      .cons spares (.cons spares' .nil)⟩
  · exact ⟨[], [], .pure _ _, .pure _ _, .nil⟩

end Entries

/-- The entries of a directory that are sorted by name come in the same order without their
status. -/
theorem exists_spared_sortEntries {namesOnly : Bool} {order : Option ListingOrder}
    (byName : ∀ listing ∈ order, listing.field.key = .name) (deep : parent.level + 1 ≠ 0)
    {spared entries : List Entry}
    (related : List.Forall₂ (Entry.SparedIn files paths namesOnly parent) spared entries) :
    ∃ spared' entries', sortEntries (order.map .listing) spared = .ok spared' ∧
      sortEntries (order.map .listing) entries = .ok entries' ∧
      List.Forall₂ (Entry.SparedIn files paths namesOnly parent) spared' entries' := by
  cases order with
  | none => exact ⟨_, _, rfl, rfl, related⟩
  | some listing =>
    refine ⟨_, _, rfl, rfl, sortBy_forall₂ ?_ related⟩
    intro a b a' b' first second
    have inside : ∀ {spared entry : Entry}, parent.SparedIn files paths namesOnly spared entry →
        entry.isRoot = false ∧ spared.isRoot = false := by
      intro spared entry spares
      have level := spares.level
      have level' := spares.spares.level
      simp only [Entry.isRoot, level', level, deep, decide_false, and_self]
    have names : listing.field.order a' b' = listing.field.order a b := by
      have key := byName listing rfl
      unfold FieldOrder.order FieldOrder.forward
      rw [key]
      dsimp only
      rw [first.spares.name, second.spares.name]
    rw [listing.order_of_known first.spares.known second.spares.known (inside first).1,
      listing.order_of_known first.spares.spared_known second.spares.spared_known (inside first).2,
      names]

include static calm legible skips below in
/-- The sorted entries of a directory without their status are those with their status. -/
theorem exists_spared_readDirectory {order : Option ListingOrder}
    (byName : ∀ listing ∈ order, listing.field.key = .name) (deep : parent.level + 1 ≠ 0)
    (namesOnly : Bool) (serial : Nat) :
    (∃ error,
      Settles (readDirectory options (order.map .listing) namesOnly parent serial) files
        (.error error) files ∧
      Settles (readDirectory options.asking (order.map .listing) false parent serial) files
        (.error error) files) ∨
    ∃ spared entries,
      Settles (readDirectory options (order.map .listing) namesOnly parent serial) files
        (.ok spared) files ∧
      Settles (readDirectory options.asking (order.map .listing) false parent serial) files
        (.ok entries) files ∧
      List.Forall₂ (Entry.SparedIn files paths namesOnly parent) spared entries := by
  obtain ⟨answer, scanned, -⟩ := settles_of_calm static (yields_attempt (yields_scan _))
    (spares_attempt (spares_scan calm parent.accessPath))
  cases answer with
  | error error => exact .inl ⟨error, scanned.bind (.pure _ _), scanned.bind (.pure _ _)⟩
  | ok found =>
    have scans : Settles (Call.scan parent.accessPath) files found files := settles_attempt scanned
    obtain ⟨_, _, children, children', related⟩ := exists_spared_readChildren static calm legible
      skips below scans namesOnly serial fun _ member => member
    obtain ⟨_, _, dots, dots', related'⟩ := exists_spared_readDots static legible below
      scans options namesOnly (serial + found.length)
    obtain ⟨spared, entries, sorted, sorted', related⟩ :=
      exists_spared_sortEntries byName deep (List.rel_append related' related)
    refine .inr ⟨spared, entries, scanned.bind (children.bind (dots.bind ?_)),
      scanned.bind (children'.bind (dots'.bind ?_)), related⟩
    · rw [sorted]
      exact .pure _ _
    · rw [sorted']
      exact .pure _ _

end Walk
end DirList
