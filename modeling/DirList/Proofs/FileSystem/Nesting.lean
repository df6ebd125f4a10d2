import DirList.FileSystem.Tree
import DirList.Proofs.FileSystem.Resolution

/-!
# Nested directories

In a sound file system directories are nested, so that going down from a directory never leads back
to it. The path of an entry leads to what its directory lists under its name, as long as the entry
itself is not a link to be followed.

Results:
1. `names_join`, `components_join`: the components of the path of an entry.
2. `Leads.split`: a path leads through what its beginning leads to.
3. `LeadsTo.child`: where the path of an entry leads.
4. `isSound_ofTree`: file systems that are written down as trees are sound.
-/

namespace DirList

/-! ## The paths of entries -/

namespace Path

/-- Whether a text can be the name of an entry. -/
structure IsName (name : String) : Prop where
  nonempty : name ≠ ""
  plain : '/' ∉ name.toList
  notDot : name ≠ "."
  notDots : name ≠ ".."

theorem pieces_ne_nil (text : List Char) : pieces text ≠ [] := by
  cases text with
  | nil => exact nofun
  | cons c rest =>
    rw [pieces]
    split
    · exact nofun
    · split <;> exact nofun

theorem pieces_append (first second : List Char) :
    pieces (first ++ '/' :: second) = pieces first ++ pieces second := by
  induction first with
  | nil => rfl
  | cons c rest ih =>
    rw [List.cons_append, pieces, pieces, ih]
    split
    · rfl
    · cases restPieces : pieces rest with
      | nil => exact absurd restPieces (pieces_ne_nil rest)
      | cons piece others => rfl

theorem pieces_of_plain {name : List Char} (plain : '/' ∉ name) : pieces name = [name] := by
  induction name with
  | nil => rfl
  | cons c rest ih =>
    rw [List.mem_cons, not_or] at plain
    rw [pieces, ih plain.2, if_neg (Ne.symm plain.1)]

theorem toList_ne_nil {text : String} (nonempty : text ≠ "") : text.toList ≠ [] :=
  fun empty => nonempty (String.toList_eq_nil_iff.mp empty)

theorem endsWithSlash_iff {path : String} :
    endsWithSlash path = true ↔ ∃ before, path.toList = before ++ ['/'] := by
  rw [endsWithSlash, decide_eq_true_iff, List.getLast?_eq_some_iff]

/-- The path of an entry leads through the name of the entry last. -/
theorem names_join {directory name : String} (isName : IsName name) :
    names (join directory name) = names directory ++ [name] := by
  have pieceOf : ((pieces name.toList).filter fun piece => !piece.isEmpty).map String.ofList =
      [name] := by
    rw [pieces_of_plain isName.plain]
    simp [isName.nonempty]
  by_cases slash : endsWithSlash directory = true
  · obtain ⟨before, same⟩ := endsWithSlash_iff.mp slash
    have nothing : ((pieces []).filter fun piece => !piece.isEmpty) = [] := rfl
    rw [join, if_pos slash, names, names, String.toList_append, same, List.append_assoc,
      List.singleton_append, pieces_append, pieces_append, List.filter_append, List.filter_append,
      nothing, List.append_nil, List.map_append, pieceOf]
  · have text : (directory ++ "/" ++ name).toList = directory.toList ++ '/' :: name.toList := by
      rw [String.toList_append, String.toList_append, List.append_assoc]
      rfl
    rw [join, if_neg slash, names, names, text, pieces_append, List.filter_append, List.map_append,
      pieceOf]

theorem components_join {directory name : String} (isName : IsName name) :
    components (join directory name) = names directory ++ [name] := by
  have ends : endsWithSlash (join directory name) = false := by
    obtain ⟨before, last, same⟩ : ∃ before last, name.toList = before ++ [last] :=
      ⟨_, _, (List.dropLast_append_getLast (toList_ne_nil isName.nonempty)).symm⟩
    have differs : last ≠ '/' := by
      rintro rfl
      refine isName.plain ?_
      rw [same]
      simp
    rw [endsWithSlash, decide_eq_false_iff_not]
    have text : ∃ front, (join directory name).toList = front ++ [last] := by
      rw [join]
      split
      · exact ⟨_, by rw [String.toList_append, same, ← List.append_assoc]⟩
      · exact ⟨_, by rw [String.toList_append, same, ← List.append_assoc]⟩
    obtain ⟨front, text⟩ := text
    rw [text, List.getLast?_concat]
    exact fun no => differs (Option.some.inj no)
  rw [components, names_join isName, ends]
  exact List.append_nil _

theorem isAbsolute_join {directory : String} (nonempty : directory ≠ "") (name : String) :
    isAbsolute (join directory name) = isAbsolute directory := by
  obtain ⟨first, rest, same⟩ := List.exists_cons_of_ne_nil (toList_ne_nil nonempty)
  have text : ∃ later, (join directory name).toList = first :: later := by
    rw [join]
    split
    · exact ⟨_, by rw [String.toList_append, same, List.cons_append]⟩
    · exact ⟨_, by
        rw [String.toList_append, String.toList_append, same, List.cons_append,
          List.cons_append]⟩
  obtain ⟨later, text⟩ := text
  rw [isAbsolute, isAbsolute, text, same]
  rfl

theorem join_ne_empty {directory : String} (nonempty : directory ≠ "") (name : String) :
    join directory name ≠ "" := by
  have text : directory.toList <+: (join directory name).toList := by
    rw [join]
    split
    · rw [String.toList_append]
      exact List.prefix_append _ _
    · rw [String.toList_append, String.toList_append, List.append_assoc]
      exact List.prefix_append _ _
  intro empty
  rw [empty] at text
  exact toList_ne_nil nonempty (List.prefix_nil.mp text)

end Path

namespace FileSystem

variable {files : FileSystem}

/-! ## Where the path of an entry leads -/

/-- A path leads through what its beginning leads to. -/
theorem Leads.split {followLast : Bool} {stack found : List NodeId} {names : List String}
    {name : String} (leads : files.Leads followLast stack (names ++ [name]) found) :
    ∃ mid, files.Leads true stack names mid ∧ files.Leads followLast mid [name] found := by
  generalize whole : names ++ [name] = all at leads
  induction leads generalizing names with
  | arrive => exact absurd whole (List.append_ne_nil_of_right_ne_nil _ nofun)
  | stay dot listed leads ih =>
    cases names with
    | nil =>
      cases whole
      exact ⟨_, .arrive, .stay dot listed leads⟩
    | cons first names =>
      cases whole
      obtain ⟨mid, before, last⟩ := ih rfl
      exact ⟨mid, .stay dot listed before, last⟩
  | ascend dots listed leads ih =>
    cases names with
    | nil =>
      cases whole
      exact ⟨_, .arrive, .ascend dots listed leads⟩
    | cons first names =>
      cases whole
      obtain ⟨mid, before, last⟩ := ih rfl
      exact ⟨mid, .ascend dots listed before, last⟩
  | enter noDot noDots listed named ends leads ih =>
    cases names with
    | nil =>
      cases whole
      exact ⟨_, .arrive, .enter noDot noDots listed named ends leads⟩
    | cons first names =>
      cases whole
      obtain ⟨mid, before, last⟩ := ih rfl
      have noLink := ends.resolve_right fun both =>
        List.append_ne_nil_of_right_ne_nil names (List.cons_ne_nil name []) both.2
      exact ⟨mid, .enter noDot noDots listed named (.inl noLink) before, last⟩
  | @divert _ _ _ _ _ _ target noDot noDots listed named linked goes leads ih =>
    cases names with
    | nil =>
      cases whole
      exact ⟨_, .arrive, .divert noDot noDots listed named linked goes leads⟩
    | cons first names =>
      cases whole
      obtain ⟨mid, before, last⟩ := ih (List.append_assoc (Path.components target) names [name])
      exact ⟨mid, .divert noDot noDots listed named linked (.inl rfl) before, last⟩

/-- What is no link is found also when links are followed. -/
theorem Leads.through {followLast : Bool} {stack found : List NodeId} {names : List String}
    (leads : files.Leads followLast stack names found)
    (plain : (files.node (found.headD root)).target? = none) :
    files.Leads true stack names found := by
  induction leads with
  | arrive => exact .arrive
  | stay dot listed _ ih => exact .stay dot listed (ih plain)
  | ascend dots listed _ ih => exact .ascend dots listed (ih plain)
  | enter noDot noDots listed named ends leads ih =>
    refine .enter noDot noDots listed named (.inl ?_) (ih plain)
    rcases ends with noLink | ⟨-, rfl⟩
    · exact noLink
    · cases leads
      exact plain
  | divert noDot noDots listed named linked _ _ ih =>
    exact .divert noDot noDots listed named linked (.inl rfl) (ih plain)

/-- A path that ends in a slash leads to where it leads without it. -/
theorem LeadsTo.names {path : String} {found : List NodeId}
    (leads : files.LeadsTo true path found) :
    files.Leads true (origin path files.home) (Path.names path) found := by
  unfold LeadsTo Path.components at leads
  split at leads
  · obtain ⟨mid, before, last⟩ := leads.split
    cases last with
    | stay _ _ rest =>
      cases rest
      exact before
    | ascend no => exact absurd no (by decide)
    | enter no => exact absurd rfl no
    | divert no => exact absurd rfl no
  · rwa [List.append_nil] at leads

/-- The path of an entry leads to what its directory lists under its name. -/
theorem LeadsTo.child {path name : String} {found found' : List NodeId}
    (leads : files.LeadsTo true path found) (nonempty : path ≠ "") (isName : Path.IsName name)
    (leads' : files.LeadsTo false (Path.join path name) found') :
    ∃ entries id, (files.node (found.headD root)).entries? = some entries ∧ (name, id) ∈ entries ∧
      found'.headD root = id := by
  unfold LeadsTo at leads'
  rw [Path.components_join isName] at leads'
  have start : origin (Path.join path name) files.home = origin path files.home := by
    rw [origin, origin, Path.isAbsolute_join nonempty]
  rw [start] at leads'
  obtain ⟨mid, before, last⟩ := leads'.split
  cases before.unique leads.names
  cases last with
  | stay dot => exact absurd dot isName.notDot
  | ascend dots => exact absurd dots isName.notDots
  | enter _ _ listed named _ rest =>
    cases rest
    exact ⟨_, _, listed, mem_of_lookup named, rfl⟩
  | divert _ _ _ _ _ goes =>
    rcases goes with no | no
    · cases no
    · exact absurd rfl no

/-! ## Sound file systems -/

/-- `files.IsSound`: the file system is as systems keep it.

* `named`: directories list names that paths can hold.
* `typed`: only a directory says of itself that it is one.
* `nested`: going down, directories do not come again. -/
structure IsSound (files : FileSystem) : Prop where
  named : ∀ id entries, (files.node id).entries? = some entries →
    ∀ found ∈ entries, Path.IsName found.1
  typed : ∀ id, (files.node id).status.fileType = .directory → (files.node id).isDirectory = true
  nested : ∃ rank : NodeId → Nat, ∀ id entries, (files.node id).entries? = some entries →
    ∀ found ∈ entries, rank found.2 < rank id

/-- Whether every place has a pair of device and number of its own. -/
def HasOwnIds (files : FileSystem) : Prop :=
  ∀ id ∈ files.places, ∀ other ∈ files.places,
    (files.node id).status.fileId = (files.node other).status.fileId → id = other

/-! ## Trees -/

/-- Whether a node in the place `id` only lists later ones, under names, and says of itself that it
is a directory only if it is one. -/
def IsOrdered (id : NodeId) (node : Node) : Prop :=
  (∀ entries, node.entries? = some entries → ∀ found ∈ entries,
    Path.IsName found.1 ∧ id < found.2) ∧
  (node.status.fileType = .directory → node.isDirectory = true)

theorem isOrdered_default (id : NodeId) : IsOrdered id default :=
  ⟨nofun, nofun⟩

theorem isSound_of_isOrdered (ordered : ∀ id, IsOrdered id (files.node id)) : files.IsSound where
  named := fun id entries listed found member => ((ordered id).1 entries listed found member).1
  typed := fun id => (ordered id).2
  nested := by
    refine ⟨fun id => files.nodes.size - id, fun id entries listed found member => ?_⟩
    have later := ((ordered id).1 entries listed found member).2
    have inside : id < files.nodes.size := by
      by_contra outside
      have absent : files.node id = default := by
        simp [FileSystem.node, outside]
      rw [absent] at listed
      cases listed
      cases member
    exact Nat.sub_lt_sub_left inside later

theorem isOrdered_toNode {sketch : Sketch} {id : NodeId} {entries : Directory}
    (typed : sketch.status.fileType = .directory → sketch.form = .directory)
    (later : ∀ found ∈ entries, Path.IsName found.1 ∧ id < found.2) :
    IsOrdered id (sketch.toNode id entries) := by
  constructor
  · intro listed same found member
    unfold Sketch.toNode Node.entries? at same
    cases form : sketch.form with
    | directory =>
      rw [form] at same
      cases same
      exact later found member
    | symlink | leaf =>
      rw [form] at same
      cases same
  · intro directory
    have form := typed directory
    unfold Sketch.toNode Node.isDirectory Node.entries?
    rw [form]
    rfl

theorem isOrdered_push (ordered : ∀ id, IsOrdered id (files.node id)) {node : Node}
    (last : IsOrdered files.nodes.size node) (id : NodeId) :
    IsOrdered id (FileSystem.node { files with nodes := files.nodes.push node } id) := by
  have before := ordered id
  simp only [FileSystem.node, Array.getD_eq_getD_getElem?, Array.getElem?_push] at before ⊢
  split
  next same =>
    rw [same]
    exact last
  next => exact before

theorem isOrdered_setNode (ordered : ∀ id, IsOrdered id (files.node id)) {place : NodeId}
    {node : Node} (there : IsOrdered place node) (id : NodeId) :
    IsOrdered id ((files.setNode place node).node id) := by
  rw [node_setNode]
  split
  next same =>
    rw [same.1]
    exact there
  next => exact ordered id

end FileSystem

mutual

/-- Whether the entries of a tree have names, and only directories say that they are. -/
def Tree.IsProper : Tree → Prop
  | .node _ sketch entries =>
    (sketch.status.fileType = .directory → sketch.form = .directory) ∧ Tree.AreProper entries

/-- Whether all trees are proper and have names. -/
def Tree.AreProper : List Tree → Prop
  | [] => True
  | tree :: rest => Path.IsName tree.name ∧ tree.IsProper ∧ Tree.AreProper rest

end

namespace FileSystem

mutual

theorem addTree_isOrdered (files : FileSystem) (tree : Tree) (proper : tree.IsProper)
    (ordered : ∀ id, IsOrdered id (files.node id)) :
    (files.addTree tree).1 = files.nodes.size ∧
      files.nodes.size ≤ (files.addTree tree).2.nodes.size ∧
      ∀ id, IsOrdered id ((files.addTree tree).2.node id) := by
  cases tree with
  | node name sketch entries =>
    rw [Tree.IsProper] at proper
    have reserved := isOrdered_push ordered (isOrdered_toNode proper.1
      fun found (no : found ∈ ([] : Directory)) => nomatch no)
    obtain ⟨later, grown, ordered'⟩ := addForest_isOrdered _ entries proper.2 reserved
    rw [Array.size_push] at later grown
    refine ⟨rfl, ?_, fun id => ?_⟩
    · unfold addTree setNode
      simp only [Array.size_setIfInBounds]
      omega
    · exact isOrdered_setNode ordered' (isOrdered_toNode proper.1 later) id

theorem addForest_isOrdered (files : FileSystem) (trees : List Tree) (proper : Tree.AreProper trees)
    (ordered : ∀ id, IsOrdered id (files.node id)) :
    (∀ found ∈ (files.addForest trees).1, Path.IsName found.1 ∧ files.nodes.size ≤ found.2) ∧
      files.nodes.size ≤ (files.addForest trees).2.nodes.size ∧
      ∀ id, IsOrdered id ((files.addForest trees).2.node id) := by
  cases trees with
  | nil => exact ⟨(fun _ no => nomatch no), Nat.le_refl _, ordered⟩
  | cons tree rest =>
    rw [Tree.AreProper] at proper
    obtain ⟨isName, properTree, properRest⟩ := proper
    obtain ⟨place, grown, ordered'⟩ := addTree_isOrdered files tree properTree ordered
    obtain ⟨later, grown', ordered''⟩ := addForest_isOrdered _ rest properRest ordered'
    refine ⟨?_, grown.trans grown', ordered''⟩
    intro found member
    rcases List.mem_cons.mp member with rfl | after
    · exact ⟨isName, Nat.le_of_eq place.symm⟩
    · exact ⟨(later found after).1, grown.trans (later found after).2⟩

end

/-- File systems that are written down as trees are sound. -/
theorem isSound_ofTree {tree : Tree} (proper : tree.IsProper) : (ofTree tree).IsSound := by
  refine isSound_of_isOrdered (addTree_isOrdered _ tree proper fun id => ?_).2.2
  have absent : (FileSystem.mk #[] [root]).node id = default := by
    simp [FileSystem.node]
  rw [absent]
  exact isOrdered_default id

end FileSystem
end DirList
