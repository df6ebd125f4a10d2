import DirList.Proofs.Listing.Comparison
import DirList.Proofs.Walk.Veiling

/-!
# Listings do not look into hidden directories

A listing that does not show hidden entries and follows no links passes over hidden directories:
what lies in them does not matter. The directories themselves are read, sorted and reported like
other entries, so that only what they contain is out of sight.

Results:
1. `contents_of_clear`: a directory whose path keeps clear has the same entries.
2. `stagesOf_of_inView`: an entry that is in view has the same stages.
3. `listPaths_veiled`: and a listing comes to the same.
-/

namespace DirList

open FileSystem Walk

theorem Entry.InView.unnumbered {files files' : FileSystem} {twin : NodeId → NodeId → Prop}
    {entry : Entry} (inView : entry.InView files files' twin) :
    entry.unnumbered.InView files files' twin :=
  ⟨inView.clear, inView.link⟩

section Reading

variable {files files' : FileSystem} {twin : NodeId → NodeId → Prop}
variable (static : files.IsStatic) (static' : files'.IsStatic) (veils : files.Veils twin files')
variable (plan : Plan)
include static static' veils

/-- The sorted roots at paths that keep clear. -/
theorem roots_of_clear {paths : List String}
    (clear : ∀ path ∈ paths, files.IsClear (InSight twin) path) :
    Recursion.roots files' plan paths = Recursion.roots files plan paths ∧
      ∀ root ∈ Recursion.roots files plan paths, root.InView files files' twin := by
  have answers := (agrees_readRoots static static' veils clear
    (plan.options.followRoots || plan.options.logical) 0).answers
  unfold Recursion.roots
  dsimp only
  generalize ((readRoots _ 0 paths).run.run files).1 = result at answers ⊢
  generalize ((readRoots _ 0 paths).run.run files').1 = result' at answers ⊢
  cases answers with
  | error error => exact ⟨rfl, List.forall_mem_nil _⟩
  | ok same =>
    obtain ⟨rfl, inView⟩ := same
    refine ⟨rfl, List.forall_mem_map.mpr fun root member => (inView root ?_).unnumbered⟩
    split at member
    · exact member
    · exact (sortBy_perm _ _).mem_iff.mp member

variable {plan}
variable (names : ∀ id entries, (files.node id).entries? = some entries →
  ∀ found ∈ entries, Path.IsName found.1)
variable (typed : ∀ id, (files.node id).status.fileType = .directory →
  (files.node id).target? = none)
variable (physical : plan.options.logical = false) (undotted : plan.options.withDots = false)
include names typed physical undotted

/-- The sorted entries of a directory whose path keeps clear. -/
theorem contents_of_clear {directory : Entry}
    (clear : files.IsClear (InSight twin) directory.accessPath) (deep : directory.level + 1 ≠ 0)
    (namesOnly : Bool) :
    Recursion.contents files' plan namesOnly directory =
        Recursion.contents files plan namesOnly directory ∧
      ∀ entries, Recursion.contents files plan namesOnly directory = .ok entries →
        ∀ entry ∈ entries, entry.InView files files' twin := by
  have answers := (agrees_readDirectory static static' veils typed physical clear deep names
    undotted plan.comparator namesOnly 0).answers
  unfold Recursion.contents
  generalize ((readDirectory _ _ _ directory 0).run.run files).1 = result at answers ⊢
  generalize ((readDirectory _ _ _ directory 0).run.run files').1 = result' at answers ⊢
  cases answers with
  | error error =>
    refine ⟨rfl, fun entries given => ?_⟩
    cases given
    exact List.forall_mem_nil _
  | @ok _ answer same =>
    obtain ⟨rfl, inView⟩ := same
    refine ⟨rfl, fun entries given => ?_⟩
    cases answer with
    | error error => cases given
    | ok entries =>
      cases given
      exact List.forall_mem_map.mpr fun entry member => (inView entries rfl entry member).unnumbered

variable (unshown : plan.config.showHidden = false) (calm : files.IsCalm)
include unshown calm

/-- The stages of an entry that is in view. -/
theorem stagesOf_of_inView {entry : Entry} (grounded : entry.Grounded files)
    (grounded' : entry.Grounded files') (inView : entry.InView files files' twin) :
    Recursion.stagesOf files' plan entry = Recursion.stagesOf files plan entry ∧
      ∀ stage ∈ Recursion.stagesOf files plan entry, stage.LinksAlike files files' := by
  induction rank : Walk.rank files entry using Nat.strong_induction_on generalizing entry with
  | _ level ih =>
    subst rank
    rw [Recursion.stagesOf_eq plan grounded, Recursion.stagesOf_eq plan grounded']
    cases kind : entry.kind with
    | cycle => exact ⟨rfl, List.forall_mem_singleton.mpr trivial⟩
    | directory =>
      dsimp only
      by_cases passed : Recursion.isPassedOver plan.config entry = true
      · rw [if_pos passed, if_pos passed]
        exact ⟨rfl, List.forall_mem_nil _⟩
      rw [if_neg passed, if_neg passed]
      have shown : entry.isHidden = false ∨ entry.isRoot = true := by
        simpa [Recursion.isPassedOver, unshown, imp_iff_not_or] using passed
      have deep : entry.level + 1 ≠ 0 := by
        have := grounded.level
        omega
      obtain ⟨same, inView'⟩ := contents_of_clear static static' veils names typed physical undotted
        (inView.clear kind shown) deep (Recursion.namesOnly plan)
      rw [same]
      cases given : Recursion.contents files plan (Recursion.namesOnly plan) entry with
      | error error => exact ⟨rfl, List.forall_mem_singleton.mpr trivial⟩
      | ok entries =>
        have inView' := inView' entries given
        have links : Stage.LinksAlike files files' (.display (some entry) entries) :=
          fun child inside => linkAlike_of_agrees static calm (inView' child inside).link
        dsimp only
        split
        · have later : ∀ child ∈ entries,
              Recursion.stagesOf files' plan child = Recursion.stagesOf files plan child ∧
              ∀ stage ∈ Recursion.stagesOf files plan child, stage.LinksAlike files files' := by
            intro child inside
            obtain ⟨below, less⟩ := Recursion.contents_child grounded kind given child inside
            exact ih _ less below
              (Recursion.contents_child grounded' kind (same.trans given) child inside).1
              (inView' child inside) rfl
          refine ⟨congrArg _ (List.flatMap_congr fun child inside => (later child inside).1),
            List.forall_mem_cons.mpr ⟨links, fun stage member => ?_⟩⟩
          obtain ⟨child, inside, member⟩ := List.mem_flatMap.mp member
          exact (later child inside).2 stage member
        · exact ⟨rfl, List.forall_mem_singleton.mpr links⟩
    | _ => exact ⟨rfl, List.forall_mem_nil _⟩

/-- The stages of listing paths that keep clear. -/
theorem stages_of_clear {paths : List String}
    (clear : ∀ path ∈ paths, files.IsClear (InSight twin) path) :
    Recursion.stages files' plan paths = Recursion.stages files plan paths ∧
      ∀ stage ∈ Recursion.stages files plan paths, stage.LinksAlike files files' := by
  obtain ⟨same, inView⟩ := roots_of_clear static static' veils plan clear
  have each : ∀ root ∈ Recursion.roots files plan paths,
      Recursion.stagesOf files' plan root = Recursion.stagesOf files plan root ∧
      ∀ stage ∈ Recursion.stagesOf files plan root, stage.LinksAlike files files' :=
    fun root inside => stagesOf_of_inView static static' veils names typed physical undotted unshown
      calm (Recursion.roots_grounded root inside)
      (Recursion.roots_grounded root (same.symm ▸ inside)) (inView root inside)
  have links : Stage.LinksAlike files files' (.display none (Recursion.roots files plan paths)) :=
    fun root inside => linkAlike_of_agrees static calm (inView root inside).link
  unfold Recursion.stages
  rw [same]
  split
  · exact ⟨rfl, List.forall_mem_singleton.mpr links⟩
  · refine ⟨congrArg _ (List.flatMap_congr fun root inside => (each root inside).1),
      List.forall_mem_cons.mpr ⟨links, fun stage member => ?_⟩⟩
    obtain ⟨root, inside, member⟩ := List.mem_flatMap.mp member
    exact (each root inside).2 stage member

end Reading

/-! ## Listings -/

/-- A listing that does not show hidden entries and follows no links does not depend on what lies in
hidden directories. In file systems that are the same but for that, the text, the errors, the names
that were asked for and the exit status are the same, under every policy; it is enough that the
paths keep clear of these directories, and of links. -/
theorem listPaths_veiled {config : Config} {world : World} {files' : FileSystem}
    {twin : NodeId → NodeId → Prop} {paths : List String} (kind : PolicyKind)
    (static : world.files.IsStatic) (calm : world.files.IsCalm) (static' : files'.IsStatic)
    (calm' : files'.IsCalm) (veils : world.files.Veils twin files')
    (names : ∀ id entries, (world.files.node id).entries? = some entries →
      ∀ found ∈ entries, Path.IsName found.1)
    (typed : ∀ id, (world.files.node id).status.fileType = .directory →
      (world.files.node id).target? = none)
    (clear : ∀ path ∈ pathsOrDefault paths, world.files.IsClear (InSight twin) path)
    (accepted : config.problems = []) (unshown : config.showHidden = false)
    (physical : config.symlinkMode = .known .physical) :
    ∃ outcome, listPaths .standard world kind paths config = .ok outcome ∧
      listPaths .standard { world with files := files' } kind paths config =
        .ok { outcome with session := outcome.session.among files' } := by
  obtain ⟨plan, planned⟩ := Plan.exists_of_accepted accepted
  obtain ⟨same, options, -, -⟩ := Plan.ofConfig_eq_ok planned
  have noLinks : plan.options.logical = false := by
    simp [options, Config.walkOptions, WalkOptions.logical, physical]
  have noDots : plan.options.withDots = false := by
    rw [options]
    change config.showDots = false
    by_contra dots
    simp [Config.problems, dots, unshown] at accepted
  obtain ⟨stages, links⟩ := stages_of_clear static static' veils names typed noLinks noDots
    (by rw [same]; exact unshown) calm clear
  exact listPaths_of_stages kind planned static calm static' calm' rfl rfl links stages

/-! ## A sample -/

/-- A directory `d` with a file `a`, a directory `s` and a hidden directory `.h`, which holds what
is given. -/
def hidingFiles (hidden : List Tree) : FileSystem :=
  .ofTree (.node "" (Client.sampleSketch .directory 0o040755) [
    .node "d" (Client.sampleSketch .directory 0o040755) [
      .node "a" (Client.sampleSketch .leaf 0o100644) [],
      .node "s" (Client.sampleSketch .directory 0o040755) [
        .node "n" (Client.sampleSketch .leaf 0o100644) []],
      .node ".h" (Client.sampleSketch .directory 0o040755) hidden]])

/-- A world whose hidden directory holds a file. -/
def hidingWorld : World :=
  { (default : World) with
    files := hidingFiles [.node "x" (Client.sampleSketch .leaf 0o100644) []] }

/-- The same files, but that the hidden directory holds another directory with a file. -/
def otherwiseHiding : FileSystem :=
  hidingFiles [.node "y" (Client.sampleSketch .directory 0o040755) [
    .node "z" (Client.sampleSketch .leaf 0o100644) []]]

/-- The nodes that are not in the hidden directory nor that directory. -/
def BesideHidden (id id' : NodeId) : Prop :=
  id' = id ∧ id < 5

theorem faults_hidingWorld : ∀ node ∈ hidingWorld.files.nodes, node.faults = {} := by
  decide +kernel

theorem faults_otherwiseHiding : ∀ node ∈ otherwiseHiding.nodes, node.faults = {} := by
  decide +kernel

theorem veils_hidingWorld : hidingWorld.files.Veils BesideHidden otherwiseHiding := by
  have seen : ∀ {name : String} {id : NodeId}, id < 5 →
      Counterpart hidingWorld.files otherwiseHiding BesideHidden (name, id) (name, id) :=
    fun small => .seen ⟨rfl, small⟩
  have hidden : Counterpart hidingWorld.files otherwiseHiding BesideHidden (".h", 5) (".h", 5) := by
    refine .veiled (by decide) ?_ (by decide +kernel) (by decide +kernel) (by decide +kernel)
      (by decide +kernel)
    rintro ⟨_, -, small⟩
    exact absurd small (by decide)
  refine ⟨⟨rfl, by decide⟩, .cons (fun _ => ⟨rfl, by decide⟩) .nil, ?_⟩
  rintro _ id ⟨rfl, small⟩
  have same : ∀ id < 5, (otherwiseHiding.node id).status = (hidingWorld.files.node id).status ∧
      (otherwiseHiding.node id).faults = (hidingWorld.files.node id).faults := by
    decide +kernel
  have contents : ∀ id < 5, (otherwiseHiding.node id).content =
      (hidingWorld.files.node id).content := by
    decide +kernel
  refine ⟨?_, (same id small).1, (same id small).2⟩
  rw [contents id small]
  have listed : (hidingWorld.files.node id).content ∈ ([.leaf, .directory [("d", 1)],
      .directory [("a", 2), ("s", 3), (".h", 5)], .directory [("n", 4)]] : List Content) := by
    revert id
    decide +kernel
  simp only [List.mem_cons, List.not_mem_nil, or_false] at listed
  rcases listed with same | same | same | same <;> rw [same]
  · exact .leaf
  · exact .directory (.cons (seen (by decide)) .nil)
  · exact .directory (.cons (seen (by decide)) (.cons (seen (by decide)) (.cons hidden .nil)))
  · exact .directory (.cons (seen (by decide)) .nil)

theorem isClear_hidingWorld : hidingWorld.files.IsClear (InSight BesideHidden) "d" := by
  have sight : ∀ {id : NodeId}, id < 5 → InSight BesideHidden id := fun small => ⟨_, rfl, small⟩
  have names : Path.components "d" = ["d"] := by decide +kernel
  constructor
  rw [names]
  refine ⟨⟨sight (by decide), by decide +kernel⟩, fun entries listed _ => ?_⟩
  refine (Path.ByName.iff_below (by decide) (by decide)).mpr fun id named => ?_
  have same : (hidingWorld.files.node 0).entries? = some [("d", 1)] := by decide +kernel
  cases same.symm.trans listed
  cases named
  exact ⟨sight (by decide), by decide +kernel⟩

theorem run_hidingWorld :
    let config : Config := { recursive := true }
    ∃ plan outcome, Plan.ofConfig .standard config = .ok plan ∧
      listPaths .standard hidingWorld .collect ["d"] config = .ok outcome ∧
      (outcome.status.toOption, outcome.session.output) = (some 0, "a
s

d/s:
n
") :=
  exists_of_observed (by decide +kernel)

/-- With another hidden directory, a listing writes the same. -/
theorem listPaths_veiled_sample :
    ∃ outcome, listPaths .standard { hidingWorld with files := otherwiseHiding } .collect ["d"]
        { recursive := true } = .ok outcome ∧
      outcome.session.output = "a
s

d/s:
n
" := by
  obtain ⟨plan, outcome, planned, given, ran⟩ := run_hidingWorld
  have names : Path.IsName "d" ∧ Path.IsName "a" ∧ Path.IsName "s" ∧ Path.IsName "n" ∧
      Path.IsName ".h" ∧ Path.IsName "x" := by
    refine ⟨?_, ?_, ?_, ?_, ?_, ?_⟩ <;> constructor <;> decide
  have sound : hidingWorld.files.IsSound := by
    refine isSound_ofTree ?_
    simp only [Tree.IsProper, Tree.AreProper, Tree.name, names]
    decide
  have clear : ∀ path ∈ pathsOrDefault ["d"],
      hidingWorld.files.IsClear (InSight BesideHidden) path :=
    List.forall_mem_singleton.mpr isClear_hidingWorld
  obtain ⟨outcome', given', moved⟩ := listPaths_veiled .collect
    (isStatic_of_faults faults_hidingWorld) (isCalm_of_faults faults_hidingWorld)
    (isStatic_of_faults faults_otherwiseHiding) (isCalm_of_faults faults_otherwiseHiding)
    veils_hidingWorld sound.named
    (fun id directory => Node.target?_of_isDirectory (sound.typed id directory))
    clear (by decide : ({ recursive := true } : Config).problems = []) rfl rfl
  cases given.symm.trans given'
  exact ⟨_, moved, (Prod.mk.inj ran).2⟩

end DirList
