import DirList.Proofs.Walk.Reading

/-!
# Entries have names

Systems list no empty names, and a walk is not started over an empty path. So every entry that a
walk reads has a name.

Results:
1. `yields_named_readDirectory`: the entries of a directory are named.
2. `yields_named_start`: so are the roots.
-/

namespace DirList

open FileSystem

/-- No directory lists an empty name. -/
def FileSystem.IsNamed (files : FileSystem) : Prop :=
  ∀ id entries, (files.node id).entries? = some entries → ∀ found ∈ entries, found.1 ≠ ""

/-- Only the nodes that there are list names. -/
theorem FileSystem.isNamed_of_nodes {files : FileSystem}
    (full : ∀ node ∈ files.nodes, ∀ found ∈ node.entries?.getD [], found.1 ≠ "") :
    files.IsNamed := by
  intro id entries listed found member
  by_cases inside : id < files.nodes.size
  · have there : files.node id ∈ files.nodes := by
      simp [FileSystem.node, inside]
    exact full _ there found (by rwa [listed])
  · have absent : files.node id = default := by
      simp [FileSystem.node, inside]
    rw [absent] at listed
    cases listed
    cases member

namespace Walk

variable {files : FileSystem}

/-- The entries of a directory are named. -/
theorem yields_named_readDirectory (named : files.IsNamed) (options : WalkOptions)
    (comparator : Option Comparator) (namesOnly : Bool) (parent : Entry) (serial : Nat) :
    files.Yields (readDirectory options comparator namesOnly parent serial)
      fun answer => ∀ entries, answer = .ok entries → ∀ entry ∈ entries, entry.name ≠ "" := by
  refine (yields_attempt (yields_scan parent.accessPath)).bind fun answer holds => ?_
  cases answer with
  | error error => exact Yields.pure fun _ no => nomatch no
  | ok directory =>
    obtain ⟨found, -, listed⟩ := holds directory rfl
    have full := named _ directory listed
    refine (yields_readChildren options namesOnly parent serial directory).bind
      fun children read => ?_
    have dotted : files.Yields (readDots options namesOnly parent (serial + directory.length))
        fun dots => ∀ entry ∈ dots, entry.name ≠ "" := by
      unfold readDots
      split
      · refine (yields_readDot _ _ _ (.inl rfl) false).bind fun self first => ?_
        refine (yields_readDot _ _ _ (.inr rfl) false).bind fun above second => Yields.pure ?_
        refine List.forall_mem_cons.mpr ⟨?_, List.forall_mem_singleton.mpr ?_⟩
        · rw [first.1.name]
          decide
        · rw [second.1.name]
          decide
      · exact Yields.pure (List.forall_mem_nil _)
    refine dotted.bind fun dots readDots => ?_
    refine Yields.pure fun entries success entry member => ?_
    rcases List.mem_append.mp ((sortEntries_perm success).mem_iff.mp member) with dot | child
    · exact readDots entry dot
    · obtain ⟨found, inside, same⟩ := List.mem_map.mp (read.forall_mem entry child).2.2
      rw [← same]
      exact full found inside

/-- Roots have the names of their paths. -/
theorem yields_named_readRoots (followLinks : Bool) (serial : Nat) {paths : List String}
    (full : ∀ path ∈ paths, path ≠ "") :
    files.Yields (readRoots followLinks serial paths) fun entries =>
      ∀ entry ∈ entries, entry.name ≠ "" := by
  induction paths generalizing serial with
  | nil => exact Yields.pure (List.forall_mem_nil _)
  | cons path rest ih =>
    obtain ⟨first, others⟩ := List.forall_mem_cons.mp full
    refine (yields_withStatus _ _).bind ?_
    rintro _ ⟨-, kind, status, code, rfl⟩
    refine (ih (serial + 1) others).bind fun entries known => Yields.pure ?_
    exact List.forall_mem_cons.mpr ⟨first, known⟩

/-- The roots of a walk are named. -/
theorem yields_named_start (serial : Nat) (paths : List String) (options : WalkOptions)
    (comparator : Option Comparator) :
    files.Yields (start serial paths options comparator) fun answer =>
      ∀ walk, answer = .ok walk → ∀ entry ∈ walk.roots, entry.name ≠ "" := by
  unfold start
  split
  · exact (yields_readRoots _ _ _).bind fun _ _ => Yields.pure fun _ no => nomatch no
  · exact Yields.pure fun _ no => nomatch no
  next fit =>
    have full : ∀ path ∈ paths, path ≠ "" := fun path member empty =>
      (unfit_eq_none.mp fit).2.1 (empty ▸ member)
    refine (yields_named_readRoots _ serial full).bind fun found named => ?_
    split
    · exact Yields.pure fun _ no => nomatch no
    next roots sorted =>
      refine Yields.pure fun walk same entry member => ?_
      cases same
      exact named entry ((sortEntries_perm sorted).mem_iff.mp member)

end Walk
end DirList
