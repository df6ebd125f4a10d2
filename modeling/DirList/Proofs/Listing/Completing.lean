import DirList.Proofs.Listing.Heading
import DirList.Proofs.Listing.Stopping

/-!
# Listings that come to an end

A listing under a policy that goes on after errors ends with an exit status, whatever fails: the
entries that it shows have the statuses that it needs of them. There are three exceptions. It may be
interrupted, a path may have a null character, and a long line may be about a time so far from now
that its date cannot be told.

Results:
1. `isKnown_of_displays`: every call displays entries that were read with their statuses.
2. `status_of_collect`: so what is measured has a status, where one is needed.
3. `status_cases`: what a listing comes to, whatever its policy.
4. `halts_of_excuse`: why it is given up under a policy that goes on after errors.
5. `listing_completes`: what it comes to under such a policy.
-/

namespace DirList

open FileSystem Walk

/-- Whether what is shown of entries, or their order, depends on their statuses. -/
def Config.usesStatus (config : Config) : Bool :=
  config.needsStatus || config.marksTypes || config.sortKey ≠ .known .name

theorem Config.skipStatus_of_usesStatus {config : Config} (uses : config.usesStatus = true) :
    config.walkOptions.skipStatus = false := by
  revert uses
  unfold usesStatus needsStatus marksTypes walkOptions
  cases config.isLong <;> cases config.showInode <;> cases config.showBlocks <;>
    cases config.classify <;> cases config.classifyDirectories <;> simp

namespace Run

variable {config : Config} {plan : Plan} {world : World} {kind : PolicyKind} {paths : List String}
  {outcome : Outcome} {call : Display Walk}

/-! ## Statuses -/

/-- `IsKnown plan entries`: the entries were read with their statuses, unless the plan leaves them
out. -/
def IsKnown (plan : Plan) (entries : Option (List Entry)) : Prop :=
  plan.options.skipStatus = false → ∀ entry ∈ entries.getD [], entry.Described

/-- An entry that is shown has a status, if it was asked for. -/
theorem status_of_isShown {parent : Option Entry} {entry : Entry}
    (shown : Recursion.isShown config parent entry = true) (described : entry.Described) :
    entry.status.isSome = true := by
  refine described.resolve_left fun lost => ?_
  unfold Recursion.isShown Recursion.isLost at shown
  rw [lost] at shown
  cases shown

/-- What is listed at an event is known. -/
theorem isKnown_of_lists {base : FileSystem} {used : List Nat} {walk walk' : Walk} {run : Run Walk}
    {entries : Option (List Entry)} (follows : Follows base plan used walk run)
    (started : walk.started = true) {files' : FileSystem}
    (lists : Lists walk run.session.world.files (Recursion.namesOnly plan) entries walk' files') :
    IsKnown plan entries := by
  intro asked
  rw [Recursion.namesOnly_of_asked asked] at lists
  rw [← follows.options] at asked
  cases lists with
  | roots fresh => cases started.symm.trans fresh
  | nowhere | fail => exact List.forall_mem_nil _
  | @give directory entries _ _ _ given =>
    have described := (yields_described_readDirectory asked walk.comparator directory
      walk.nextSerial run.session.world.files .refl).2
    exact described _ (congrArg Prod.fst given) entries rfl

/-- `Driven base plan fuel log run`: the run follows a walk. -/
def Driven (base : FileSystem) (plan : Plan) (_ : Nat) (_ : List (Display Walk))
    (run : Run Walk) : Prop :=
  ∃ used walk, Follows base plan used walk run

theorem carries_known {base : FileSystem}
    (standard : RendererTable.standard.select plan.config = .ok plan.renderer) :
    Carries plan (Recursion.namesOnly plan) (Driven base plan)
      fun _ call => IsKnown plan call.entries := by
  rintro fuel log run event run₁ ⟨used, walk, follows⟩ reads
  obtain ⟨walk₁, -, reads', follows₁⟩ := follows.read reads
  refine ⟨fun call member => ?_, fun run₂ reacts => ?_⟩
  · obtain ⟨-, -, _, _, listed, rfl⟩ := of_mem_displaysAt member
    obtain ⟨_, -, lists, -⟩ := follows₁.children listed
    exact isKnown_of_lists follows₁ reads'.started lists
  · obtain ⟨walk₂, -, follows₂⟩ := follows₁.reacts standard reads'.current reacts
    exact ⟨_, walk₂, follows₂⟩

/-- Every call displays entries that were read with their statuses. -/
theorem isKnown_of_displays (planned : Plan.ofConfig .standard config = .ok plan)
    (member : call ∈ displays plan world kind paths) : IsKnown plan call.entries := by
  have standard := Plan.select_of_planned planned
  have carries : Carries plan (Recursion.namesOnly plan) (Driven world.files plan) _ :=
    carries_known standard
  obtain ⟨before, after, split⟩ := List.append_of_mem member
  refine list_displays (begins_of_roots standard fun {walk _} _ _ described _ => ?_) carries split
  exact ⟨fun _ => described, fun _ _ follows => ⟨_, walk, follows⟩⟩

/-- What is measured has a status, where one is needed. -/
theorem status_of_collect (planned : Plan.ofConfig .standard config = .ok plan)
    (uses : config.usesStatus = true) (member : call ∈ displays plan world kind paths)
    {descriptor : Descriptor} {session : Session}
    (collected : Settles (Descriptor.collect config call.parent call.entries) call.before.session
      (.ok (some descriptor)) session) :
    ∀ entry ∈ descriptor.visibleEntries, entry.status.isSome = true := by
  obtain ⟨same, options, -⟩ := Plan.ofConfig_eq_ok planned
  have known := isKnown_of_displays planned member (options ▸ Config.skipStatus_of_usesStatus uses)
  intro entry visible
  cases collect_cases collected with
  | measured _ _ shown =>
    rw [shown] at visible
    obtain ⟨inside, shown⟩ := List.mem_filter.mp visible
    exact status_of_isShown shown (known entry inside)

/-! ## Outcomes -/

/-- `Halts config world paths shown abort`: a listing of paths that shows the entries may be given
up under a policy that goes on after errors.

* `interrupted`: there are interrupts.
* `nullPath`: a path has a null character.
* `undatable`: a long line is to be written for an entry whose date cannot be told. -/
inductive Halts (config : Config) (world : World) (paths : List String) (shown : List Entry) :
    Abort → Prop
  | interrupted : ¬world.files.IsCalm → Halts config world paths shown .interrupted
  | nullPath {path : String} : path ∈ paths → Path.hasNull path = true →
      Halts config world paths shown .nullPath
  | undatable {entry : Entry} {field : TimeField} {fault : DateFault} : config.isLong = true →
      config.timeField = .known field → entry ∈ shown →
      Recursion.dateFault field entry = some fault →
      Halts config world paths shown (.undatable fault)

theorem nullPath_of_pathsOrDefault
    (null : ∃ path ∈ pathsOrDefault paths, Path.hasNull path = true) :
    ∃ path ∈ paths, Path.hasNull path = true := by
  unfold pathsOrDefault at null
  split at null
  · obtain ⟨path, member, null⟩ := null
    cases List.mem_singleton.mp member
    cases null
  · exact null

/-- What a listing comes to, whatever its policy: an exit status, unless it has an excuse, or its
walk could not be started for a null character or under a policy that stops at errors. -/
theorem status_cases (planned : Plan.ofConfig .standard config = .ok plan)
    (given : listPaths .standard world kind paths config = .ok outcome) :
    outcome.status = .ok 0 ∨ outcome.status = .ok 1 ∨
      ∃ abort, outcome.status = .error abort ∧
        (Excuse config (shown plan (displays plan world kind paths)) (Session.fresh world kind)
            abort ∨
          (abort = .nullPath ∧ ∃ path ∈ paths, Path.hasNull path = true) ∨
          kind = .failFast ∧ ∃ error, abort = .listing error ∧ error.isFatal = true) := by
  obtain ⟨same, -⟩ := Plan.ofConfig_eq_ok planned
  have standard := Plan.select_of_planned planned
  obtain ⟨_, given', concludes⟩ := exists_concludes world kind paths planned
  cases given.symm.trans given'
  rcases ran : (list plan (pathsOrDefault paths)).run.run (fresh plan world kind) with
    ⟨abort | state, run⟩
  all_goals rw [ran] at concludes
  · have stops := list_stops standard ran
    rw [same] at stops
    cases concludes with
    | aborted mild =>
      refine .inr (.inr ⟨abort, rfl, stops.imp_right ?_⟩)
      rintro (⟨error, rfl, fatal, -⟩ | ⟨rfl, null⟩)
      · cases fatal.symm.trans (mild error rfl)
      · exact .inl ⟨rfl, nullPath_of_pathsOrDefault null⟩
    | @fatal error _ fatal =>
      obtain excuse | ⟨_, _, _, lenient⟩ | ⟨no, -⟩ := stops
      · cases fatal.symm.trans (excuse.mild error rfl)
      · by_cases strict : run.session.policy.kind = .failFast
        · dsimp only
          split
          · exact .inr (.inr ⟨_, rfl, .inr (.inr ⟨lenient.symm.trans strict, error, rfl, fatal⟩)⟩)
          · exact .inr (.inl rfl)
        · rw [Policy.handle_lenient strict]
          exact .inr (.inl rfl)
      · cases no
  · cases concludes
    dsimp only
    unfold RunState.exitStatus
    split
    · exact .inr (.inl rfl)
    · exact .inl rfl

/-- Among the excuses under a configuration without problems and a policy that goes on after errors,
there is none but interrupts and dates: what is shown in a long line has a status. -/
theorem halts_of_excuse (planned : Plan.ofConfig .standard config = .ok plan)
    (field : ∃ field, config.timeField = .known field) (lenient : kind ≠ .failFast) {abort : Abort}
    (excuse : Excuse config (shown plan (displays plan world kind paths))
      (Session.fresh world kind) abort) :
    Halts config world paths (shown plan (displays plan world kind paths)) abort := by
  obtain ⟨same, options, -, accepted⟩ := Plan.ofConfig_eq_ok planned
  cases excuse with
  | interrupted stormy => exact .interrupted stormy
  | strict strict => exact absurd strict lenient
  | emptyBlocks zero => exact absurd zero (Config.blockSize_ne_zero accepted)
  | unknownTimeField unknown =>
    obtain ⟨_, known⟩ := field
    cases known.symm.trans unknown
  | missingStatus long member missing =>
    have asked : plan.options.skipStatus = false := by
      rw [options, Config.walkOptions, long]
      rfl
    obtain ⟨call, made, inside, visible⟩ := of_mem_shown member
    have status := status_of_isShown visible (isKnown_of_displays planned made asked _ inside)
    rw [missing] at status
    cases status
  | undatable long known member lost => exact .undatable long known member lost

/-- Under a configuration without problems and a policy that goes on after errors, a listing ends
with 0 or 1 whatever fails, unless it is interrupted, a path has a null character, or a long line is
about an entry whose date cannot be told. All entries that were measured have a status, where one is
needed, and what was measured makes up the text. -/
theorem listing_completes (world : World) (paths : List String) (accepted : config.problems = [])
    (field : ∃ field, config.timeField = .known field) (lenient : kind ≠ .failFast) :
    ∃ plan outcome, Plan.ofConfig .standard config = .ok plan ∧
      listPaths .standard world kind paths config = .ok outcome ∧
      (outcome.status = .ok 0 ∨ outcome.status = .ok 1 ∨
        ∃ abort, outcome.status = .error abort ∧
          Halts config world paths (shown plan (displays plan world kind paths)) abort) ∧
      outcome.session.output = texts plan (displays plan world kind paths) ∧
      (config.usesStatus = true → ∀ call ∈ displays plan world kind paths, ∀ descriptor session,
        Settles (Descriptor.collect config call.parent call.entries) call.before.session
          (.ok (some descriptor)) session →
        ∀ entry ∈ descriptor.visibleEntries, entry.status.isSome = true) := by
  obtain ⟨plan, planned⟩ := Plan.exists_of_accepted accepted
  obtain ⟨outcome, given, -⟩ := exists_concludes world kind paths planned
  refine ⟨plan, outcome, planned, given, ?_, listPaths_output planned given,
    fun uses call member descriptor session collected =>
      status_of_collect planned uses member collected⟩
  refine (status_cases planned given).imp_right (Or.imp_right ?_)
  rintro ⟨abort, stopped, excuse | ⟨rfl, path, member, null⟩ | ⟨strict, -⟩⟩
  · exact ⟨abort, stopped, halts_of_excuse planned field lenient excuse⟩
  · exact ⟨_, stopped, .nullPath member null⟩
  · exact absurd strict lenient

/-- There is no memory for an owner, and the listing comes to its end. -/
theorem listing_completes_sample :
    ∃ plan outcome, Plan.ofConfig .standard thorough = .ok plan ∧
      listPaths .standard exhausted .collect ["d"] thorough = .ok outcome ∧
      outcome.status = .ok 1 ∧
      outcome.session.output = texts plan (displays plan exhausted .collect ["d"]) ∧
      ∀ call ∈ displays plan exhausted .collect ["d"], ∀ descriptor session,
        Settles (Descriptor.collect thorough call.parent call.entries) call.before.session
          (.ok (some descriptor)) session →
        ∀ entry ∈ descriptor.visibleEntries, entry.status.isSome = true := by
  have lenient : PolicyKind.collect ≠ .failFast := by decide
  obtain ⟨plan, outcome, planned, given, -, output, known⟩ :=
    listing_completes exhausted ["d"] (by decide : thorough.problems = []) ⟨_, rfl⟩ lenient
  obtain ⟨_, _, planned', given', ran⟩ : ∃ plan outcome,
      Plan.ofConfig .standard thorough = .ok plan ∧
      listPaths .standard exhausted .collect ["d"] thorough = .ok outcome ∧
      outcome.status.toOption = some 1 := exists_of_observed (by decide +kernel)
  cases planned.symm.trans planned'
  cases given.symm.trans given'
  exact ⟨plan, outcome, planned, given, ok_of_toOption ran, output, known (by decide)⟩

/-- A long listing of a file whose date cannot be told ends with no exit status, although nothing
fails in its world. The line above that of the file is written. -/
theorem exists_uncompleted :
    undatedWorld.IsSteady ∧ thorough.problems = [] ∧
      ∃ outcome, listPaths .standard undatedWorld .collect ["f", "g"] thorough = .ok outcome ∧
        outcome.status = .error (.undatable (.system .tooLarge)) ∧
        outcome.session.output = "-rw-r--r--  0 0  0  0 Jan  1 00:00 f\n" ∧
        outcome.session.policy.errors = [] := by
  obtain ⟨_, outcome, -, given, ran⟩ : ∃ plan outcome, Plan.ofConfig .standard thorough = .ok plan ∧
      listPaths .standard undatedWorld .collect ["f", "g"] thorough = .ok outcome ∧
      (outcome.status, outcome.session.output, outcome.session.policy.errors) =
        (.error (.undatable (.system .tooLarge)), "-rw-r--r--  0 0  0  0 Jan  1 00:00 f\n", []) :=
    exists_of_observed (by decide +kernel)
  obtain ⟨status, rest⟩ := Prod.mk.inj ran
  obtain ⟨output, errors⟩ := Prod.mk.inj rest
  exact ⟨isSteady_undatedWorld, by decide, outcome, given, status, output, errors⟩

end Run
end DirList
