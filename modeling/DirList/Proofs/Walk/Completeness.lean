import DirList.Proofs.Walk.Step

/-!
# Complete listings

A listing of a directory has one entry for each name that the directory holds, whether or not the
status of the entry could be had. Whether there is a listing at all depends on the scan of the
directory alone, and a scan that fails now may succeed later.

Results:
1. `listing_complete`: a listing has the names of its directory.
2. `Complete.length_eq`: so all listings of one directory are equally long.
3. `scan_of_listing`, `scan_of_unlisted`: a directory can be listed if it can be scanned.
-/

namespace DirList

namespace FileSystem

variable {files files' : FileSystem} {α : Type}

/-- An attempt that is not interrupted answers what the call answers. -/
theorem settles_attempt {call : Call α} {answer : Except SystemError α}
    (settles : Settles (attempt call) files answer files') :
    call.run.run files = (answer.mapError Fault.system, files') := by
  unfold Settles at settles
  rw [run_attempt] at settles
  rcases ran : call.run.run files with ⟨(_ | _) | _, _⟩
  all_goals
    rw [ran] at settles
    cases settles
  all_goals rfl

/-- `files.Recovers path`: a directory cannot be scanned in one state of wear, and can be in a later
one. -/
def Recovers (files : FileSystem) (path : String) : Prop :=
  ∃ early late error found, files.Wears early ∧ early.Wears late ∧
    ((Call.scan path).run.run early).1 = .error (.system error) ∧
    ((Call.scan path).run.run late).1 = .ok found

/-- In a file system that does not change, nothing recovers. -/
theorem IsStatic.not_recovers (static : files.IsStatic) (path : String) : ¬files.Recovers path := by
  rintro ⟨early, late, error, found, wears, later, fails, succeeds⟩
  have same := wears.eq_of_isStatic static
  have same' := (wears.trans later).eq_of_isStatic static
  rw [same] at fails
  rw [same', fails] at succeeds
  cases succeeds

end FileSystem

namespace Walk

open FileSystem

/-- `Complete files options directory entries`: the entries have the names that the directory holds,
and `.` and `..` where they are wanted. -/
def Complete (files : FileSystem) (options : WalkOptions) (directory : Entry)
    (entries : List Entry) : Prop :=
  ∃ found names, files.LeadsTo true directory.accessPath found ∧
    (files.node (found.headD root)).entries? = some names ∧
    (entries.map Entry.name).Perm
      ((if options.withDots then [".", ".."] else []) ++ names.map Prod.fst)

variable {files files' : FileSystem} {options : WalkOptions} {directory : Entry}

/-- All complete listings of one directory are equally long. -/
theorem Complete.length_eq {entries entries' : List Entry}
    (complete : Complete files options directory entries)
    (complete' : Complete files options directory entries') :
    entries.length = entries'.length := by
  obtain ⟨found, names, leads, listed, same⟩ := complete
  obtain ⟨found', names', leads', listed', same'⟩ := complete'
  cases leads.unique leads'
  cases listed.symm.trans listed'
  have length := (same.trans same'.symm).length_eq
  rwa [List.length_map, List.length_map] at length

theorem ReadFrom.names {followLinks : Bool} {parent : Entry} {serial : Nat} {names : List String}
    {entries : List Entry} (read : ReadFrom files followLinks parent serial names entries) :
    entries.map Entry.name = names := by
  induction read with
  | nil => rfl
  | cons readAt _ ih => rw [List.map_cons, readAt.name, ih]

theorem yields_names_readDots (options : WalkOptions) (namesOnly : Bool) (parent : Entry)
    (serial : Nat) :
    files.Yields (readDots options namesOnly parent serial) fun dots =>
      dots.map Entry.name = if options.withDots then [".", ".."] else [] := by
  unfold readDots
  split
  · refine (yields_readDot _ _ _ (.inl rfl) options.logical).bind fun self ⟨first, _⟩ => ?_
    refine (yields_readDot _ _ _ (.inr rfl) options.logical).bind fun above ⟨second, _⟩ => ?_
    refine Yields.pure ?_
    rw [List.map_cons, List.map_singleton, first.name, second.name]
  · exact Yields.pure rfl

theorem yields_complete_readDirectory (options : WalkOptions) (comparator : Option Comparator)
    (namesOnly : Bool) (directory : Entry) (serial : Nat) :
    files.Yields (readDirectory options comparator namesOnly directory serial) fun answer =>
      ∀ entries, answer = .ok entries → Complete files options directory entries := by
  refine (yields_attempt (yields_scan directory.accessPath)).bind fun answer holds => ?_
  cases answer with
  | error error => exact Yields.pure fun _ no => nomatch no
  | ok names =>
    obtain ⟨found, leads, listed⟩ := holds names rfl
    refine (yields_readChildren _ _ _ _ _).bind fun children read => ?_
    refine (yields_names_readDots _ _ _ _).bind fun dots dotted => ?_
    refine Yields.pure fun entries success => ⟨found, names, leads, listed, ?_⟩
    rw [← dotted, ← read.names, ← List.map_append]
    exact (sortEntries_perm success).map _

section Listings

variable {base : FileSystem} {walk : Walk} {namesOnly : Bool}

/-- A listing has the names of its directory. -/
theorem listing_complete {entries : List Entry} (wears : base.Wears files)
    (given : walk.listing namesOnly directory files = (.ok (.ok entries), files')) :
    Complete base walk.options directory entries := by
  have spec := (yields_complete_readDirectory walk.options walk.comparator namesOnly directory
    walk.nextSerial files wears).2
  exact spec _ (congrArg Prod.fst given) entries rfl

/-- A directory that was listed was scanned. -/
theorem scan_of_listing {entries : List Entry}
    (given : walk.listing namesOnly directory files = (.ok (.ok entries), files')) :
    ∃ found, ((Call.scan directory.accessPath).run.run files).1 = .ok found := by
  obtain ⟨answer, _, scans, rest⟩ := Settles.of_bind given
  have ran := settles_attempt scans
  cases answer with
  | error error => cases rest
  | ok found => exact ⟨found, congrArg Prod.fst ran⟩

/-- A directory that could not be listed could not be scanned, where entries can be sorted. -/
theorem scan_of_unlisted {error : SystemError}
    (sorts : ∀ entries, ∃ sorted, sortEntries walk.comparator entries = .ok sorted)
    (given : walk.listing namesOnly directory files = (.ok (.error error), files')) :
    ((Call.scan directory.accessPath).run.run files).1 = .error (.system error) := by
  obtain ⟨answer, _, scans, rest⟩ := Settles.of_bind given
  have ran := settles_attempt scans
  cases answer with
  | error error' =>
    cases rest
    exact congrArg Prod.fst ran
  | ok found =>
    obtain ⟨children, _, -, rest⟩ := Settles.of_bind rest
    obtain ⟨dots, _, -, rest⟩ := Settles.of_bind rest
    obtain ⟨sorted, success⟩ := sorts (dots ++ children)
    rw [success] at rest
    cases rest

end Listings
end Walk
end DirList
