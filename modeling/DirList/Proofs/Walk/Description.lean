import DirList.Proofs.Walk.Uninterrupted

/-!
# What is known of entries

An entry whose status was asked for has one, or it stands for the error. Where nothing changes and
nothing is interrupted, a directory that is listed by name is the one that is listed with statuses.

Results:
1. `yields_described_readDirectory`, `yields_described_readRoots`: entries with their status.
2. `settles_of_calm`: an action that is not interrupted settles.
3. `exists_readDirectory`: listings of one directory fail together and have the same length.
-/

namespace DirList

open FileSystem

/-- The entry has a status, or stands for the error. -/
def Entry.Described (entry : Entry) : Prop :=
  entry.kind = .noStatus ∨ entry.status.isSome = true

/-- In a static file system without interrupts an action gives an answer and changes nothing. -/
theorem FileSystem.settles_of_calm {files : FileSystem} {α : Type} {action : Access α}
    {post : α → Prop} (static : files.IsStatic) (yields : files.Yields action post)
    (spares : files.Spares action .interrupted) :
    ∃ answer, Settles action files answer files ∧ post answer := by
  obtain ⟨wears, holds⟩ := yields files .refl
  have spared := spares files .refl
  rcases ran : action.run.run files with ⟨_ | answer, files'⟩
  · rw [ran] at spared
    exact absurd rfl spared
  · rw [ran] at wears holds
    cases wears.eq_of_isStatic static
    exact ⟨answer, ran, holds answer rfl⟩

namespace Walk

variable {files : FileSystem}

/-! ## Entries with their status -/

theorem yields_described_withStatus (followLinks : Bool) (entry : Entry) :
    files.Yields (withStatus followLinks entry) Entry.Described := by
  refine (yields_attempt (yields_status followLinks entry.accessPath)).bind fun answer _ => ?_
  cases answer with
  | ok status => exact Yields.pure (.inr rfl)
  | error error =>
    dsimp only
    split
    · refine (yields_attempt (yields_status false entry.accessPath)).bind fun answer _ => ?_
      cases answer with
      | ok status =>
        dsimp only
        split
        · exact Yields.pure (.inr rfl)
        · exact Yields.pure (.inl rfl)
      | error _ => exact Yields.pure (.inl rfl)
    · exact Yields.pure (.inl rfl)

section Asked

variable {options : WalkOptions} (asked : options.skipStatus = false)

include asked

theorem yields_described_readChild (parent : Entry) (serial : Nat) (found : String × NodeId) :
    files.Yields (readChild options false parent serial found) Entry.Described := by
  have known : ∀ isDirectory : Bool, files.Yields
      (if false || (options.skipStatus && !isDirectory) then
        pure { childEntry parent serial found.1 with listedAsDirectory := isDirectory }
      else withStatus options.logical
        { childEntry parent serial found.1 with listedAsDirectory := isDirectory })
      Entry.Described := by
    intro isDirectory
    rw [asked]
    exact yields_described_withStatus _ _
  exact (yields_attempt (yields_isDirectory _ _ _ _)).bind fun _ _ => known _

theorem yields_described_readChildren (parent : Entry) (serial : Nat) (found : Directory) :
    files.Yields (readChildren options false parent serial found)
      fun entries => ∀ entry ∈ entries, entry.Described := by
  induction found generalizing serial with
  | nil => exact Yields.pure fun _ no => nomatch no
  | cons head rest ih =>
    refine (yields_described_readChild asked _ _ _).bind fun entry first => ?_
    refine (ih (serial + 1)).bind fun entries others => Yields.pure ?_
    exact List.forall_mem_cons.mpr ⟨first, others⟩

omit asked in
theorem yields_described_readDot (parent : Entry) (serial : Nat) (name : String) :
    files.Yields (readDot false parent serial name) Entry.Described := by
  refine (yields_described_withStatus _ _).bind fun entry described => Yields.pure ?_
  split
  next lost => exact .inl lost
  next known => exact .inr (described.resolve_left known)

omit asked in
theorem yields_described_readDots (parent : Entry) (serial : Nat) :
    files.Yields (readDots options false parent serial)
      fun entries => ∀ entry ∈ entries, entry.Described := by
  unfold readDots
  split
  · refine (yields_described_readDot _ _ _).bind fun self first => ?_
    refine (yields_described_readDot _ _ _).bind fun above second => Yields.pure ?_
    exact List.forall_mem_cons.mpr ⟨first, List.forall_mem_singleton.mpr second⟩
  · exact Yields.pure fun _ no => nomatch no

/-- The entries of a directory have a status unless they stand for errors. -/
theorem yields_described_readDirectory (comparator : Option Comparator) (parent : Entry)
    (serial : Nat) :
    files.Yields (readDirectory options comparator false parent serial)
      fun answer => ∀ entries, answer = .ok entries → ∀ entry ∈ entries, entry.Described := by
  refine (yields_attempt (yields_scan parent.accessPath)).bind fun answer _ => ?_
  cases answer with
  | error error => exact Yields.pure fun _ no => nomatch no
  | ok directory =>
    refine (yields_described_readChildren asked _ _ _).bind fun children read => ?_
    refine (yields_described_readDots _ _).bind fun dots readDots => ?_
    refine Yields.pure fun entries success entry member => ?_
    rcases List.mem_append.mp ((sortEntries_perm success).mem_iff.mp member) with dot | child
    · exact readDots entry dot
    · exact read entry child

end Asked

/-- Roots have a status unless they stand for errors. -/
theorem yields_described_readRoots (followLinks : Bool) (serial : Nat) (paths : List String) :
    files.Yields (readRoots followLinks serial paths)
      fun entries => ∀ entry ∈ entries, entry.Described := by
  induction paths generalizing serial with
  | nil => exact Yields.pure fun _ no => nomatch no
  | cons path rest ih =>
    refine (yields_described_withStatus _ _).bind fun entry first => ?_
    refine (ih (serial + 1)).bind fun entries others => Yields.pure ?_
    exact List.forall_mem_cons.mpr ⟨first, others⟩

/-- The roots of a walk have a status unless they stand for errors. -/
theorem yields_described_start (serial : Nat) (paths : List String) (options : WalkOptions)
    (comparator : Option Comparator) :
    files.Yields (start serial paths options comparator) fun answer =>
      ∀ walk, answer = .ok walk → ∀ entry ∈ walk.roots, entry.Described := by
  unfold start
  split
  · exact (yields_readRoots _ _ _).bind fun _ _ => Yields.pure fun _ no => nomatch no
  · exact Yields.pure fun _ no => nomatch no
  refine (yields_described_readRoots _ serial paths).bind fun found described => ?_
  split
  · exact Yields.pure fun _ no => nomatch no
  next roots sorted =>
    refine Yields.pure fun walk same entry member => ?_
    cases same
    exact described entry ((sortEntries_perm sorted).mem_iff.mp member)

/-! ## Listings of one directory -/

/-- A directory is scanned, or it is not; what is read of it then is as much for all listings. -/
theorem exists_readDirectory (static : files.IsStatic) (calm : files.IsCalm)
    (options : WalkOptions) (comparator : Option Comparator) (parent : Entry) :
    (∃ error, ∀ namesOnly serial,
      Settles (readDirectory options comparator namesOnly parent serial) files (.error error)
        files) ∨
    ∃ count, ∀ namesOnly serial, ∃ entries, entries.length = count ∧
      Settles (readDirectory options comparator namesOnly parent serial) files
        (sortEntries comparator entries) files := by
  obtain ⟨answer, scanned, -⟩ := settles_of_calm static (yields_attempt (yields_scan _))
    (spares_attempt (spares_scan calm parent.accessPath))
  cases answer with
  | error error => exact .inl ⟨error, fun _ _ => scanned.bind (.pure _ _)⟩
  | ok found =>
    refine .inr ⟨(if options.withDots then 2 else 0) + found.length, fun namesOnly serial => ?_⟩
    obtain ⟨children, readChildren, read⟩ := settles_of_calm static
      (yields_readChildren options namesOnly parent serial found)
      (spares_readChildren calm _ _ _ _ _)
    have dotted : files.Yields (readDots options namesOnly parent (serial + found.length))
        fun dots => dots.length = if options.withDots then 2 else 0 := by
      unfold readDots
      split
      · refine (yields_readDot _ _ _ (.inl rfl) false).bind fun self _ => ?_
        exact (yields_readDot _ _ _ (.inr rfl) false).bind fun above _ => Yields.pure rfl
      · exact Yields.pure rfl
    obtain ⟨dots, readDots, count⟩ :=
      settles_of_calm static dotted (spares_readDots calm _ _ _ _)
    refine ⟨dots ++ children, ?_, ?_⟩
    · rw [List.length_append, count, read.length_eq, List.length_map]
    · exact scanned.bind (readChildren.bind (readDots.bind (.pure _ _)))

end Walk
end DirList
