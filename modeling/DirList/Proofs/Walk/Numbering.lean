import DirList.Proofs.Sorting.Mapping
import DirList.Proofs.Walk.Uninterrupted

/-!
# Numbers do not matter

What is read of a directory does not depend on how entries are numbered. Two entries that differ in
their numbers only have, in the same file system, the same entries but for the numbers.

Results:
1. `map_unnumbered_withStatus`, `map_unnumbered_readRoots`, `map_unnumbered_readChildren`: reading
   without numbers.
2. `map_unnumbered_readDirectory`: directories that differ in numbers only have entries that do.
3. `map_unnumbered_listing`: so do the answers to two walks in one state of the file system.
-/

namespace DirList

open FileSystem

namespace Walk

/-! ## Reading without numbers -/

theorem kindOf_unnumbered (ancestors : List Ancestor) (status : Status) :
    kindOf (ancestors.map fun above => { above with serial := 0 }) status =
      kindOf ancestors status := by
  unfold kindOf
  rw [List.any_map]
  rfl

/-- The status of an entry does not depend on numbers. -/
theorem map_unnumbered_withStatus (followLinks : Bool) (entry : Entry) :
    Entry.unnumbered <$> withStatus followLinks entry =
      withStatus followLinks entry.unnumbered := by
  unfold withStatus
  rw [map_bind]
  refine bind_congr fun answer => ?_
  cases answer with
  | ok status =>
    simp only [map_pure, Entry.unnumbered, kindOf_unnumbered]
  | error error =>
    dsimp only
    split
    · rw [map_bind]
      refine bind_congr fun answer => ?_
      cases answer with
      | ok status =>
        dsimp only
        split
        · rw [map_pure]
          rfl
        · rw [map_pure]
          rfl
      | error _ =>
        rw [map_pure]
        rfl
    · rw [map_pure]
      rfl

/-- Roots are read alike from wherever they are counted. -/
theorem map_unnumbered_readRoots (followLinks : Bool) (serial serial' : Nat)
    (paths : List String) :
    List.map Entry.unnumbered <$> readRoots followLinks serial paths =
      List.map Entry.unnumbered <$> readRoots followLinks serial' paths := by
  have split : ∀ (serial : Nat) (path : String) (rest : List String),
      List.map Entry.unnumbered <$> readRoots followLinks serial (path :: rest) =
        (Entry.unnumbered <$> withStatus followLinks (rootEntry serial path)) >>= fun root =>
          (List.map Entry.unnumbered <$> readRoots followLinks (serial + 1) rest) >>= fun roots =>
            pure (root :: roots) := by
    intro serial path rest
    simp only [readRoots, map_bind, map_pure, bind_map_left, List.map_cons]
  induction paths generalizing serial serial' with
  | nil => rfl
  | cons path rest ih =>
    have root : (rootEntry serial path).unnumbered = (rootEntry serial' path).unnumbered := rfl
    rw [split, split, map_unnumbered_withStatus, map_unnumbered_withStatus, root,
      ih (serial + 1) (serial' + 1)]

section Children

variable {parent parent' : Entry}

theorem unnumbered_childEntry (alike : parent.unnumbered = parent'.unnumbered)
    (serial serial' : Nat) (name : String) :
    (childEntry parent serial name).unnumbered = (childEntry parent' serial' name).unnumbered := by
  simp only [Entry.unnumbered, Entry.mk.injEq] at alike
  obtain ⟨-, path, accessPath, level, -, status, -, ancestors, -, -⟩ := alike
  simp only [childEntry, Entry.unnumbered, Entry.lineage, Entry.asAncestor, List.map_cons, path,
    accessPath, level, status, ancestors]

theorem accessPath_eq (alike : parent.unnumbered = parent'.unnumbered) :
    parent.accessPath = parent'.accessPath := by
  have same := congrArg Entry.accessPath alike
  exact same

theorem map_unnumbered_readChild (alike : parent.unnumbered = parent'.unnumbered)
    (options : WalkOptions) (namesOnly : Bool) (serial serial' : Nat) (found : String × NodeId) :
    Entry.unnumbered <$> readChild options namesOnly parent serial found =
      Entry.unnumbered <$> readChild options namesOnly parent' serial' found := by
  have known : ∀ isDirectory : Bool,
      (Entry.unnumbered <$> if namesOnly || (options.skipStatus && !isDirectory) then
        pure { childEntry parent serial found.1 with listedAsDirectory := isDirectory }
      else withStatus options.logical
        { childEntry parent serial found.1 with listedAsDirectory := isDirectory }) =
      (Entry.unnumbered <$> if namesOnly || (options.skipStatus && !isDirectory) then
        pure { childEntry parent' serial' found.1 with listedAsDirectory := isDirectory }
      else withStatus options.logical
        { childEntry parent' serial' found.1 with listedAsDirectory := isDirectory }) := by
    intro isDirectory
    have child := unnumbered_childEntry alike serial serial' found.1
    have same : Entry.unnumbered
        { childEntry parent serial found.1 with listedAsDirectory := isDirectory } =
        Entry.unnumbered
        { childEntry parent' serial' found.1 with listedAsDirectory := isDirectory } :=
      congrArg (fun entry : Entry => { entry with listedAsDirectory := isDirectory }) child
    split
    · rw [map_pure, map_pure, same]
    · rw [map_unnumbered_withStatus, map_unnumbered_withStatus, same]
  unfold readChild
  rw [map_bind, map_bind, accessPath_eq alike]
  exact bind_congr fun answer => known _

theorem map_unnumbered_readChildren (alike : parent.unnumbered = parent'.unnumbered)
    (options : WalkOptions) (namesOnly : Bool) (serial serial' : Nat) (found : Directory) :
    List.map Entry.unnumbered <$> readChildren options namesOnly parent serial found =
      List.map Entry.unnumbered <$> readChildren options namesOnly parent' serial' found := by
  have split : ∀ (parent : Entry) (serial : Nat) (head : String × NodeId) (rest : Directory),
      List.map Entry.unnumbered <$> readChildren options namesOnly parent serial (head :: rest) =
        (Entry.unnumbered <$> readChild options namesOnly parent serial head) >>= fun entry =>
          (List.map Entry.unnumbered <$>
            readChildren options namesOnly parent (serial + 1) rest) >>= fun entries =>
              pure (entry :: entries) := by
    intro parent serial head rest
    simp only [readChildren, map_bind, map_pure, bind_map_left, List.map_cons]
  induction found generalizing serial serial' with
  | nil => rfl
  | cons head rest ih =>
    rw [split, split, map_unnumbered_readChild alike options namesOnly serial serial' head,
      ih (serial + 1) (serial' + 1)]

theorem map_unnumbered_readDot (alike : parent.unnumbered = parent'.unnumbered)
    (namesOnly : Bool) (serial serial' : Nat) (name : String) :
    Entry.unnumbered <$> readDot namesOnly parent serial name =
      Entry.unnumbered <$> readDot namesOnly parent' serial' name := by
  have same : Entry.unnumbered { childEntry parent serial name with listedAsDirectory := true } =
      Entry.unnumbered { childEntry parent' serial' name with listedAsDirectory := true } := by
    have child := unnumbered_childEntry alike serial serial' name
    exact congrArg (fun entry : Entry => { entry with listedAsDirectory := true }) child
  have dotted : ∀ entry : Entry,
      Entry.unnumbered <$> (do
        let entry ← withStatus true entry
        pure (if entry.kind = .noStatus then entry else { entry with kind := .dot }) :
          Access Entry) =
      (do
        let entry ← withStatus true entry.unnumbered
        pure (if entry.kind = .noStatus then entry else { entry with kind := .dot })) := by
    intro entry
    rw [← map_unnumbered_withStatus, map_bind, bind_map_left]
    refine bind_congr fun entry => ?_
    rw [map_pure, apply_ite Entry.unnumbered]
    rfl
  unfold readDot
  dsimp only
  split
  · rw [map_pure, map_pure, same]
  · rw [dotted, dotted, same]

theorem map_unnumbered_readDots (alike : parent.unnumbered = parent'.unnumbered)
    (options : WalkOptions) (namesOnly : Bool) (serial serial' : Nat) :
    List.map Entry.unnumbered <$> readDots options namesOnly parent serial =
      List.map Entry.unnumbered <$> readDots options namesOnly parent' serial' := by
  have split : ∀ (parent : Entry) (serial : Nat),
      (List.map Entry.unnumbered <$> (do
        let self ← readDot namesOnly parent serial "."
        let above ← readDot namesOnly parent (serial + 1) ".."
        pure [self, above] : Access (List Entry))) =
      (Entry.unnumbered <$> readDot namesOnly parent serial ".") >>= fun self =>
        (Entry.unnumbered <$> readDot namesOnly parent (serial + 1) "..") >>= fun above =>
          pure [self, above] := by
    intro parent serial
    simp only [map_bind, map_pure, bind_map_left, List.map_cons, List.map_nil]
  unfold readDots
  split
  · rw [split, split, map_unnumbered_readDot alike namesOnly serial serial' ".",
      map_unnumbered_readDot alike namesOnly (serial + 1) (serial' + 1) ".."]
  · rfl

/-- Directories that differ in their numbers only have entries that do. -/
theorem map_unnumbered_readDirectory (alike : parent.unnumbered = parent'.unnumbered)
    (options : WalkOptions) (comparator : Option Comparator) (namesOnly : Bool)
    (serial serial' : Nat) :
    Except.map (List.map Entry.unnumbered) <$>
        readDirectory options comparator namesOnly parent serial =
      Except.map (List.map Entry.unnumbered) <$>
        readDirectory options comparator namesOnly parent' serial' := by
  have sorted : ∀ (parent : Entry) (serial serial' : Nat) (found : Directory),
      Except.map (List.map Entry.unnumbered) <$> (do
        let children ← readChildren options namesOnly parent serial found
        let dots ← readDots options namesOnly parent serial'
        pure (sortEntries comparator (dots ++ children)) :
          Access (Except SystemError (List Entry))) =
      (List.map Entry.unnumbered <$> readChildren options namesOnly parent serial found) >>=
        fun children =>
        (List.map Entry.unnumbered <$> readDots options namesOnly parent serial') >>=
          fun dots => pure (sortEntries comparator (dots ++ children)) := by
    intro parent serial serial' found
    simp only [map_bind, map_pure, bind_map_left, ← List.map_append, map_unnumbered_sortEntries]
  unfold readDirectory
  rw [map_bind, map_bind, accessPath_eq alike]
  refine bind_congr fun answer => ?_
  cases answer with
  | error error => rw [map_pure]
  | ok found =>
    dsimp only
    rw [sorted, sorted, map_unnumbered_readChildren alike options namesOnly serial serial' found,
      map_unnumbered_readDots alike options namesOnly (serial + found.length)
        (serial' + found.length)]

end Children

/-! ## Answers -/

theorem run_map {ε α β : Type} (f : α → β) (action : ExceptT ε (StateM FileSystem) α)
    (files : FileSystem) : (f <$> action).run.run files =
      ((action.run.run files).1.map f, (action.run.run files).2) := by
  rw [map_eq_pure_bind, run_bind]
  rcases action.run.run files with ⟨_ | _, _⟩ <;> rfl

/-- Listings of one directory in two walks give the same entries but for the numbers. -/
theorem map_unnumbered_listing {walk walk' : Walk} (options : walk'.options = walk.options)
    (comparator : walk'.comparator = walk.comparator) {directory directory' : Entry}
    (alike : directory.unnumbered = directory'.unnumbered) (namesOnly : Bool) (files : FileSystem) :
    (walk.listing namesOnly directory files).1.map (Except.map (List.map Entry.unnumbered)) =
      (walk'.listing namesOnly directory' files).1.map (Except.map (List.map Entry.unnumbered)) ∧
    (walk.listing namesOnly directory files).2 = (walk'.listing namesOnly directory' files).2 := by
  have same := congrArg (fun action : Access _ => action.run.run files)
    (map_unnumbered_readDirectory alike walk.options walk.comparator namesOnly walk.nextSerial
      walk'.nextSerial)
  rw [run_map, run_map] at same
  unfold listing
  rw [options, comparator]
  exact Prod.mk.inj same

/-- `AlikeAnswers answer answer'`: the same error, or the same entries but for the numbers. -/
inductive AlikeAnswers : Except SystemError (List Entry) → Except SystemError (List Entry) → Prop
  | error (error : SystemError) : AlikeAnswers (.error error) (.error error)
  | entries {entries entries' : List Entry} :
      entries'.map Entry.unnumbered = entries.map Entry.unnumbered →
      AlikeAnswers (.ok entries) (.ok entries')

/-- What one walk is answered another one is answered as well, but for the numbers. -/
theorem exists_alike_listing {walk walk' : Walk} (options : walk'.options = walk.options)
    (comparator : walk'.comparator = walk.comparator) {directory directory' : Entry}
    (alike : directory.unnumbered = directory'.unnumbered) {namesOnly : Bool}
    {files files' : FileSystem} {answer : Except SystemError (List Entry)}
    (given : walk.listing namesOnly directory files = (.ok answer, files')) :
    ∃ answer', walk'.listing namesOnly directory' files = (.ok answer', files') ∧
      AlikeAnswers answer answer' := by
  obtain ⟨answers, states⟩ :=
    map_unnumbered_listing options comparator alike namesOnly files
  rw [given] at answers states
  rcases ran : walk'.listing namesOnly directory' files with ⟨_ | answer', files''⟩
  · rw [ran] at answers
    cases answers
  · rw [ran] at answers states
    subst states
    refine ⟨answer', rfl, ?_⟩
    cases answer with
    | error error =>
      cases answer' with
      | error error' =>
        cases answers
        exact .error error
      | ok entries' => cases answers
    | ok entries =>
      cases answer' with
      | error error' => cases answers
      | ok entries' =>
        exact .entries (Except.ok.inj (Except.ok.inj answers)).symm

/-- In a static file system without interrupts a listing answers and changes nothing. -/
theorem exists_listing {files : FileSystem} (static : files.IsStatic) (calm : files.IsCalm)
    (walk : Walk) (namesOnly : Bool) (directory : Entry) :
    ∃ answer, walk.listing namesOnly directory files = (.ok answer, files) := by
  rcases given : walk.listing namesOnly directory files with ⟨stop | answer, files'⟩
  · exact absurd (congrArg Prod.fst given)
      (listing_ne_error calm .refl walk namesOnly directory stop)
  · rw [(listing_wears given).eq_of_isStatic static]
    exact ⟨answer, rfl⟩

end Walk
end DirList
