import DirList.Listing.Paths
import DirList.Proofs.Walk.Ending
import DirList.Proofs.Walk.Numbering

/-!
# A listing as a recursion

What a listing does, said without a walk: the roots are read and sorted, and every directory is
visited by reading it and visiting its entries. Nothing is kept from one directory to another, and
entries have no identities.

Results:
1. `contents_child`: the entries of a directory are grounded and have fewer levels below them.
2. `visit`: so the recursion ends.
-/

namespace DirList

open FileSystem

/-- One thing that a listing does. -/
inductive Act where
  /-- To hand an error to the policy. -/
  | report (error : ListingError)
  /-- To write entries of a directory, or roots where there is none. -/
  | block (parent : Option Entry) (entries : List Entry)
  | giveUp (abort : Abort)

def Act.isBlock : Act → Bool
  | .block _ _ => true
  | _ => false

/-- What a number is called, whatever was asked before. -/
def NameTable.called (table : NameTable) (numericOnly : Bool) (id : Int) : String :=
  if numericOnly then decimal id else table.answer id

namespace Entry

theorem fileIdsAbove_unnumbered (entry : Entry) :
    entry.unnumbered.fileIdsAbove = entry.fileIdsAbove := by
  unfold fileIdsAbove unnumbered
  dsimp only
  rw [List.filterMap_map]
  rfl

theorem Found.unnumbered {files : FileSystem} {followLinks : Bool} {entry : Entry}
    (found : entry.Found files followLinks) : entry.unnumbered.Found files followLinks := by
  cases found with
  | unasked kind status => exact .unasked kind status
  | lost kind status => exact .lost kind status
  | dangling kind status link => exact .dangling kind status link
  | dot kind name => exact .dot kind name
  | classified kind status leads same =>
    refine .classified (kind.trans ?_) status leads same
    exact (Walk.kindOf_unnumbered _ _).symm

/-- Whether an entry is grounded does not depend on numbers. -/
theorem Grounded.unnumbered {files : FileSystem} {entry : Entry}
    (grounded : entry.Grounded files) : entry.unnumbered.Grounded files := by
  obtain ⟨⟨_, found⟩, level, ids, above, rest⟩ := grounded
  refine ⟨⟨_, found.unnumbered⟩, ?_, ids, ?_, rest⟩
  · rw [Entry.unnumbered]
    dsimp only
    rw [List.length_map]
    exact level
  · rw [← above, Entry.unnumbered]
    dsimp only
    rw [List.map_map]
    rfl

end Entry

theorem Walk.rank_unnumbered (files : FileSystem) (entry : Entry) :
    rank files entry.unnumbered = rank files entry := by
  rw [rank, rank, Entry.fileIdsAbove_unnumbered]

namespace Recursion

/-! ## Reading -/

/-- The sorted entries of a directory, or why it cannot be listed. -/
def contents (files : FileSystem) (plan : Plan) (namesOnly : Bool) (directory : Entry) :
    Except SystemError (List Entry) :=
  match ((Walk.readDirectory plan.options plan.comparator namesOnly directory 0).run.run
      files).1 with
  | .ok answer => answer.map (List.map Entry.unnumbered)
  | .error _ => .ok []

/-- The sorted roots. -/
def roots (files : FileSystem) (plan : Plan) (paths : List String) : List Entry :=
  let followLinks := plan.options.followRoots || plan.options.logical
  match ((Walk.readRoots followLinks 0 paths).run.run files).1 with
  | .ok found =>
    let sorted := match plan.order with
      | none => found
      | some order => sortEntriesBy order.order found
    sorted.map Entry.unnumbered
  | .error _ => []

section Reading

variable {files : FileSystem} {plan : Plan}

theorem contents_of_settles {namesOnly : Bool} {directory : Entry}
    {answer : Except SystemError (List Entry)} {files' : FileSystem}
    (settles : Settles
      (Walk.readDirectory plan.options plan.comparator namesOnly directory 0) files answer files') :
    contents files plan namesOnly directory = answer.map (List.map Entry.unnumbered) := by
  unfold contents
  rw [settles]

/-- The entries of a directory are grounded and have fewer levels below them. -/
theorem contents_child {namesOnly : Bool} {directory : Entry} {entries : List Entry}
    (grounded : directory.Grounded files) (kind : directory.kind = .directory)
    (given : contents files plan namesOnly directory = .ok entries) :
    ∀ entry ∈ entries, entry.Grounded files ∧
      Walk.rank files entry < Walk.rank files directory := by
  intro entry member
  have yields := (Walk.yields_readDirectory plan.options plan.comparator namesOnly directory 0
    files .refl).2
  unfold contents at given
  generalize ((Walk.readDirectory plan.options plan.comparator namesOnly directory 0).run.run
    files).1 = answer at given yields
  obtain _ | _ | numbered := answer
  · cases given
    cases member
  · cases given
  cases given
  have listing := yields _ rfl numbered rfl
  obtain ⟨child, inside, rfl⟩ := List.mem_map.mp member
  refine ⟨(Walk.grounded_of_isChildOf grounded kind (listing.child child inside)
    (listing.found child inside)).unnumbered, ?_⟩
  obtain ⟨_, -, new⟩ := Walk.exists_new_fileId grounded kind
  have positive : 0 < Walk.rank files directory := Finset.card_pos.mpr ⟨_, new⟩
  rw [Walk.rank_unnumbered, Walk.rank_of_isChildOf grounded kind (listing.child child inside)]
  omega

/-- What holds of all roots that are read, whatever their numbers, holds of the sorted roots. -/
theorem forall_mem_roots {holds : Entry → Prop} {paths : List String}
    (yields : files.Yields
      (Walk.readRoots (plan.options.followRoots || plan.options.logical) 0 paths)
      fun found => ∀ entry ∈ found, holds entry)
    (unnumbered : ∀ entry, holds entry → holds entry.unnumbered) :
    ∀ root ∈ roots files plan paths, holds root := by
  intro root member
  have holds' := (yields files .refl).2
  unfold roots at member
  dsimp only at member
  generalize ((Walk.readRoots (plan.options.followRoots || plan.options.logical) 0 paths).run.run
    files).1 = answer at member holds'
  cases answer with
  | error => cases member
  | ok found =>
    obtain ⟨numbered, inside, rfl⟩ := List.mem_map.mp member
    refine unnumbered numbered (holds' found rfl numbered ?_)
    cases order : plan.order with
    | none => rwa [order] at inside
    | some order' =>
      rw [order] at inside
      exact (sortBy_perm _ _).mem_iff.mp inside

theorem roots_grounded {paths : List String} :
    ∀ root ∈ roots files plan paths, root.Grounded files := by
  refine forall_mem_roots ((Walk.yields_readRoots _ _ _).mono fun found known entry member => ?_)
    fun entry grounded => grounded.unnumbered
  obtain ⟨level, ancestors, -, isFound⟩ := known.2 entry member
  refine ⟨⟨_, isFound⟩, ?_, [], ?_, List.nodup_nil, fun _ no => nomatch no⟩
  · rw [level, ancestors]
    rfl
  · rw [ancestors]
    rfl

theorem roots_path {paths : List String} :
    ∀ root ∈ roots files plan paths, root.accessPath ∈ paths :=
  forall_mem_roots ((Walk.yields_readRoots _ _ _).mono fun _ known entry member =>
    (known.2 entry member).2.2.1) fun _ => id

end Reading

/-! ## Visits -/

/-- Whether an entry is reported instead of being shown. -/
def isLost (entry : Entry) : Bool :=
  entry.kind = .error || entry.kind = .noStatus

/-- The errors of the entries that are reported instead of being shown. -/
def losses (entries : List Entry) : List ListingError :=
  (entries.filter isLost).map fun entry => .ofCode .node entry.name entry.errorCode

/-- Whether an entry is shown among the entries of a directory, or among the roots. -/
def isShown (config : Config) (parent : Option Entry) (entry : Entry) : Bool :=
  !isLost entry && Descriptor.isSelected config parent entry

/-- Why the date of an entry cannot be told, if it cannot. -/
def dateFault (field : TimeField) (entry : Entry) : Option DateFault :=
  entry.status.bind fun status => (status.time field).measured.fault?

/-- Why the lines of entries cannot be written to their end, if they cannot: long lines show dates,
and that of an entry cannot be told. -/
def undatable (config : Config) (entries : List Entry) : Option DateFault :=
  match config.timeField with
  | .known field => if config.isLong then entries.findSome? (dateFault field) else none
  | .unknown _ => none

/-- What writing comes to: it is done to its end unless a date cannot be told. -/
def cutShort : Option DateFault → Except Abort Unit
  | none => .ok ()
  | some fault => .error (.undatable fault)

/-- To write the entries that are shown, if there are any, up to where that has to be given up. -/
def writing (config : Config) (parent : Option Entry) (shown : List Entry) : List Act :=
  if shown.isEmpty then []
  else .block parent shown :: ((undatable config shown).map fun fault =>
    .giveUp (.undatable fault)).toList

/-- To report the entries without a status, and to write those that are shown. -/
def showing (config : Config) (parent : Option Entry) (entries : List Entry) : List Act :=
  (losses entries).map .report ++ writing config parent (entries.filter (isShown config parent))

/-- Whether a directory is passed over: a hidden one that was not asked for. -/
def isPassedOver (config : Config) (directory : Entry) : Bool :=
  directory.isHidden && !directory.isRoot && !config.showHidden

/-- Whether names are all that is needed of the entries of a directory. -/
def namesOnly (plan : Plan) : Bool :=
  !plan.config.recursive && plan.options.skipStatus

theorem namesOnly_of_recursive {plan : Plan} (recursive : plan.config.recursive = true) :
    namesOnly plan = false := by
  rw [namesOnly, recursive]
  rfl

theorem namesOnly_of_asked {plan : Plan} (asked : plan.options.skipStatus = false) :
    namesOnly plan = false := by
  rw [namesOnly, asked, Bool.and_false]

/-- To visit an entry: a directory is read and its entries are shown; if the listing is recursive
they are visited in their order. -/
def visit (files : FileSystem) (plan : Plan) (entry : Entry) (grounded : entry.Grounded files) :
    List Act :=
  match kind : entry.kind with
  | .cycle => [.report (.cycle entry.name)]
  | .directory =>
    if isPassedOver plan.config entry then []
    else
      match given : contents files plan (namesOnly plan) entry with
      | .error error => [.report (.ofCode .node entry.name error.codeOrZero)]
      | .ok entries =>
        showing plan.config (some entry) entries ++
          if plan.config.recursive then
            entries.attach.flatMap fun ⟨child, member⟩ =>
              visit files plan child (contents_child grounded kind given child member).1
          else []
  | _ => []
termination_by Walk.rank files entry
decreasing_by exact (contents_child grounded kind given child member).2

/-- To list paths: the roots are shown, and visited unless directories are listed like other
entries. No path may have a null character. -/
def list (files : FileSystem) (plan : Plan) (paths : List String) : List Act :=
  if paths.any Path.hasNull then [.giveUp .nullPath]
  else
    let found := roots files plan paths
    showing plan.config none found ++
      if plan.config.listDirectory then []
      else found.attach.flatMap fun ⟨root, member⟩ =>
        visit files plan root (roots_grounded root member)

/-! ## What comes of it -/

/-- The errors that acts hand to a policy, up to where they are given up. -/
def errors : List Act → List ListingError
  | [] => []
  | .report error :: rest => error :: errors rest
  | .block _ _ :: rest => errors rest
  | .giveUp _ :: _ => []

/-- What acts come to: whether they are given up, and why. -/
def ending : List Act → Except Abort Unit
  | [] => .ok ()
  | .giveUp abort :: _ => .error abort
  | .report _ :: rest | .block _ _ :: rest => ending rest

/-- The names in the long line of an entry. -/
def names (world : World) (config : Config) (status : Status) : Annotation where
  owner := world.owners.called config.numericOnly status.owner
  group := world.groups.called config.numericOnly status.group
  flags := if config.showFlags then some Descriptor.noFlags else none

/-- An entry that is shown. -/
def item (world : World) (config : Config) (entry : Entry) : Item where
  entry
  visible := true
  annotation := if config.isLong then entry.status.map (names world config) else none

/-- What a job writes in a world. -/
def written (world : World) (job : Job Unit) : String :=
  (job.run.run (Session.fresh world .collect)).2.output

/-- The lines of entries, up to where they have to be given up. -/
def blockText (world : World) (plan : Plan) (parent : Option Entry) (entries : List Entry) :
    String :=
  written world (plan.renderer.render plan.config
    (Descriptor.measure plan.config parent (entries.map (item world plan.config))))

/-- What stands above the lines of entries: the path of their directory, after a blank line unless
nothing was written before. Nothing stands above a sole root that comes first, or above roots. -/
def heading (rootCount : Nat) (hasOutput : Bool) : Option Entry → String
  | none => ""
  | some directory =>
    if hasOutput then "\n" ++ directory.path ++ ":\n"
    else if 1 < rootCount then directory.path ++ ":\n"
    else ""

/-- The text of acts up to where they are given up, after others that have written something or
not. -/
def text (world : World) (plan : Plan) (rootCount : Nat) : Bool → List Act → String
  | _, [] => ""
  | _, .giveUp _ :: _ => ""
  | hasOutput, .report _ :: rest => text world plan rootCount hasOutput rest
  | hasOutput, .block parent entries :: rest =>
    heading rootCount hasOutput parent ++ blockText world plan parent entries
      ++ text world plan rootCount true rest

end Recursion
end DirList
