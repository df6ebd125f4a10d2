import DirList.Proofs.Sorting.Siblings
import DirList.Proofs.Walk.Agreement
import DirList.Proofs.Walk.Description
import DirList.Proofs.Walk.Numbering

/-!
# Reading in another order

In file systems that differ in the order of directories, the same entries are read but for their
numbers.

Results:
1. `agrees_withStatus`, `agrees_readChild`, `agrees_readDots`: entries are read alike.
2. `map_unnumbered_readChildren_eq`: entries of a directory are read one by one.
3. `map_unnumbered_readRoots_eq`: and so are roots.
-/

namespace DirList.Walk

open FileSystem

/-! ## Reading alike -/

section Agreeing

variable {files files' : FileSystem} (static : files.IsStatic) (permutes : files.Permutes files')
variable (distinct : files.HasDistinctNames)
include static permutes distinct

theorem agrees_withStatus (followLinks : Bool) (entry : Entry) :
    Agrees files files' Eq (withStatus followLinks entry) (withStatus followLinks entry) := by
  exact (agrees_withStatus_of_calls fun followLast =>
    agrees_status static permutes distinct followLast entry.accessPath).mono
      fun _ _ same => same.1.symm

theorem agrees_readChild (options : WalkOptions) (namesOnly : Bool) (parent : Entry) (serial : Nat)
    (found : String × NodeId) :
    Agrees files files' Eq (readChild options namesOnly parent serial found)
      (readChild options namesOnly parent serial found) := by
  exact agrees_readChild_of_calls (agrees_isDirectory static permutes distinct _ _ _ _)
    (fun _ => rfl) fun _ => agrees_withStatus static permutes distinct _ _

theorem agrees_readDot (namesOnly : Bool) (parent : Entry) (serial : Nat) (name : String) :
    Agrees files files' Eq (readDot namesOnly parent serial name)
      (readDot namesOnly parent serial name) := by
  unfold readDot
  dsimp only
  split
  · exact .pure rfl
  · exact (agrees_withStatus static permutes distinct _ _).bind fun _ _ same => .pure (same ▸ rfl)

theorem agrees_readDots (options : WalkOptions) (namesOnly : Bool) (parent : Entry)
    (serial : Nat) :
    Agrees files files' Eq (readDots options namesOnly parent serial)
      (readDots options namesOnly parent serial) := by
  unfold readDots
  split
  · refine (agrees_readDot static permutes distinct _ _ _ _).bind ?_
    rintro self _ rfl
    refine (agrees_readDot static permutes distinct _ _ _ _).bind ?_
    rintro above _ rfl
    exact .pure rfl
  · exact .pure rfl

end Agreeing

/-! ## Reading one by one -/

/-- What an action on a file system answers. -/
def answerOf {ε α : Type} [Inhabited α] (files : FileSystem)
    (action : ExceptT ε (StateM FileSystem) α) : α :=
  match (action.run.run files).1 with
  | .ok answer => answer
  | .error _ => default

theorem answerOf_of_settles {ε α : Type} [Inhabited α] {files files' : FileSystem}
    {action : ExceptT ε (StateM FileSystem) α} {answer : α}
    (settles : Settles action files answer files') : answerOf files action = answer := by
  rw [answerOf, settles]

theorem answerOf_eq {ε α : Type} [Inhabited α] {files files' : FileSystem}
    {action : ExceptT ε (StateM FileSystem) α} (agrees : Agrees files files' Eq action action) :
    answerOf files' action = answerOf files action := by
  rw [answerOf, answerOf, agrees.answers.eq]

/-- An entry of a directory as it is read, without its number. -/
def childAs (files : FileSystem) (options : WalkOptions) (namesOnly : Bool) (parent : Entry)
    (found : String × NodeId) : Entry :=
  answerOf files (Entry.unnumbered <$> readChild options namesOnly parent 0 found)

/-- A root as it is read, without its number. -/
def rootAs (files : FileSystem) (followLinks : Bool) (path : String) : Entry :=
  answerOf files (withStatus followLinks (rootEntry 0 path))

section Reading

variable {files : FileSystem} (static : files.IsStatic)

theorem settles_map {ε α β : Type} {files' : FileSystem} (f : α → β)
    {action : ExceptT ε (StateM FileSystem) α} {answer : α}
    (settles : Settles action files answer files') :
    Settles (f <$> action) files (f answer) files' := by
  rw [Settles, run_map, settles]
  rfl

theorem unnumbered_of_readChild {options : WalkOptions} {namesOnly : Bool} {parent entry : Entry}
    {serial : Nat} {found : String × NodeId} {files' : FileSystem}
    (settles : Settles (readChild options namesOnly parent serial found) files entry files') :
    entry.unnumbered = childAs files options namesOnly parent found := by
  have mapped := settles_map Entry.unnumbered settles
  rw [map_unnumbered_readChild rfl options namesOnly serial 0 found] at mapped
  exact (answerOf_of_settles mapped).symm

theorem unnumbered_of_readRoot {followLinks : Bool} {entry : Entry} {serial : Nat} {path : String}
    {files' : FileSystem}
    (settles : Settles (withStatus followLinks (rootEntry serial path)) files entry files') :
    entry.unnumbered = rootAs files followLinks path := by
  have mapped := settles_map Entry.unnumbered settles
  rw [map_unnumbered_withStatus] at mapped
  exact (answerOf_of_settles mapped).symm

include static

/-- The entries of a directory are read one by one. -/
theorem map_unnumbered_readChildren_eq {options : WalkOptions} {namesOnly : Bool} {parent : Entry}
    {serial : Nat} {found : Directory} {entries : List Entry}
    (settles : Settles (readChildren options namesOnly parent serial found) files entries files) :
    entries.map Entry.unnumbered = found.map (childAs files options namesOnly parent) := by
  induction found generalizing serial entries with
  | nil =>
    cases (settles.unique (.pure _ _)).1
    rfl
  | cons head rest ih =>
    obtain ⟨entry, _, first, settles⟩ := Settles.of_bind settles
    cases (eq_of_settles static (yields_readChild _ _ _ _ _) first).1
    obtain ⟨others, _, later, settles⟩ := Settles.of_bind settles
    cases (eq_of_settles static (yields_readChildren _ _ _ _ _) later).1
    cases (settles.unique (.pure _ _)).1
    rw [List.map_cons, List.map_cons, unnumbered_of_readChild first, ih later]

/-- Roots are read one by one. -/
theorem map_unnumbered_readRoots_eq {followLinks : Bool} {serial : Nat} {paths : List String}
    {entries : List Entry}
    (settles : Settles (readRoots followLinks serial paths) files entries files) :
    entries.map Entry.unnumbered = paths.map (rootAs files followLinks) := by
  induction paths generalizing serial entries with
  | nil =>
    cases (settles.unique (.pure _ _)).1
    rfl
  | cons path rest ih =>
    obtain ⟨entry, _, first, settles⟩ := Settles.of_bind settles
    cases (eq_of_settles static (yields_withStatus _ _) first).1
    obtain ⟨others, _, later, settles⟩ := Settles.of_bind settles
    cases (eq_of_settles static (yields_readRoots _ _ _) later).1
    cases (settles.unique (.pure _ _)).1
    rw [List.map_cons, List.map_cons, unnumbered_of_readRoot first, ih later]

variable (calm : files.IsCalm)
include calm

/-- An entry of a directory has its name and is below the directory. -/
theorem childAs_facts (options : WalkOptions) (namesOnly : Bool) (parent : Entry)
    (found : String × NodeId) :
    (childAs files options namesOnly parent found).name = found.1 ∧
      (childAs files options namesOnly parent found).level = parent.level + 1 ∧
      (childAs files options namesOnly parent found).kind ≠ .error := by
  obtain ⟨entry, settles, read⟩ := settles_of_calm static
    (yields_readChild options namesOnly parent 0 found) (spares_readChild calm _ _ _ _ _)
  rw [← unnumbered_of_readChild settles]
  exact ⟨read.name, read.child.level, read.found.kind_ne.2.2⟩

theorem rootAs_facts (followLinks : Bool) (path : String) :
    (rootAs files followLinks path).name = path ∧ (rootAs files followLinks path).level = 0 ∧
      (rootAs files followLinks path).kind ≠ .error := by
  obtain ⟨entry, settles, found, kind, status, code, rfl⟩ := settles_of_calm static
    (yields_withStatus followLinks (rootEntry 0 path)) (spares_withStatus calm _ _)
  rw [← unnumbered_of_readRoot settles]
  exact ⟨rfl, rfl, found.kind_ne.2.2⟩

end Reading

section Same

variable {files files' : FileSystem} (static : files.IsStatic) (permutes : files.Permutes files')
variable (distinct : files.HasDistinctNames)
include static permutes distinct

theorem childAs_eq (options : WalkOptions) (namesOnly : Bool) (parent : Entry) :
    childAs files' options namesOnly parent = childAs files options namesOnly parent := by
  funext found
  refine answerOf_eq ?_
  rw [map_eq_pure_bind]
  exact (agrees_readChild static permutes distinct _ _ _ _ _).bind fun _ _ same =>
    .pure (congrArg _ same)

theorem rootAs_eq (followLinks : Bool) : rootAs files' followLinks = rootAs files followLinks := by
  funext path
  exact answerOf_eq (agrees_withStatus static permutes distinct _ _)

end Same
end DirList.Walk
