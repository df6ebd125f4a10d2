import DirList.Proofs.FileSystem.Calm
import DirList.Proofs.Walk.Inheritance

/-!
# Walks that are not interrupted

A walk over a file system without interrupts is not interrupted, whatever else fails.

Results:
1. `spares_readDirectory`, `spares_start`: reading entries is not interrupted.
2. `Client.run_uninterrupted`: nor is a client that leaves the file system alone.
-/

namespace DirList.Walk

open FileSystem

variable {files : FileSystem}

theorem spares_withStatus (calm : files.IsCalm) (followLinks : Bool) (entry : Entry) :
    files.Spares (withStatus followLinks entry) .interrupted := by
  refine (spares_attempt (spares_status calm _ _)).bind (yields_attempt (yields_status _ _))
    fun answer => ?_
  cases answer with
  | ok status => exact Spares.pure
  | error error =>
    dsimp only
    split
    · refine (spares_attempt (spares_status calm _ _)).bind (yields_attempt (yields_status _ _))
        fun answer => ?_
      cases answer with
      | ok status =>
        dsimp only
        split
        · exact Spares.pure
        · exact Spares.pure
      | error _ => exact Spares.pure
    · exact Spares.pure

theorem spares_readChild (calm : files.IsCalm) (options : WalkOptions) (namesOnly : Bool)
    (parent : Entry) (serial : Nat) (found : String × NodeId) :
    files.Spares (readChild options namesOnly parent serial found) .interrupted := by
  have known : ∀ isDirectory : Bool, files.Spares
      (if namesOnly || (options.skipStatus && !isDirectory) then
        pure { childEntry parent serial found.1 with listedAsDirectory := isDirectory }
      else withStatus options.logical
        { childEntry parent serial found.1 with listedAsDirectory := isDirectory })
      .interrupted := by
    intro isDirectory
    split
    · exact Spares.pure
    · exact spares_withStatus calm _ _
  exact (spares_attempt (spares_isDirectory calm _ _ _ _)).bind
    (yields_attempt (yields_isDirectory _ _ _ _)) fun _ => known _

theorem spares_readChildren (calm : files.IsCalm) (options : WalkOptions) (namesOnly : Bool)
    (parent : Entry) (serial : Nat) (found : Directory) :
    files.Spares (readChildren options namesOnly parent serial found) .interrupted := by
  induction found generalizing serial with
  | nil => exact Spares.pure
  | cons head rest ih =>
    refine (spares_readChild calm _ _ _ _ _).bind (yields_readChild _ _ _ _ _) fun entry => ?_
    exact (ih (serial + 1)).bind (yields_readChildren _ _ _ _ _) fun _ => Spares.pure

theorem spares_readDot (calm : files.IsCalm) (namesOnly : Bool) (parent : Entry) (serial : Nat)
    (name : String) : files.Spares (readDot namesOnly parent serial name) .interrupted := by
  unfold readDot
  dsimp only
  split
  · exact Spares.pure
  · exact (spares_withStatus calm _ _).bind (yields_withStatus _ _) fun _ => Spares.pure

theorem spares_readDots (calm : files.IsCalm) (options : WalkOptions) (namesOnly : Bool)
    (parent : Entry) (serial : Nat) :
    files.Spares (readDots options namesOnly parent serial) .interrupted := by
  unfold readDots
  split
  · refine (spares_readDot calm _ _ _ _).bind (yields_readDot _ _ _ (.inl rfl) false) fun self => ?_
    exact (spares_readDot calm _ _ _ _).bind (yields_readDot _ _ _ (.inr rfl) false)
      fun _ => Spares.pure
  · exact Spares.pure

theorem spares_readDirectory (calm : files.IsCalm) (options : WalkOptions)
    (comparator : Option Comparator) (namesOnly : Bool) (parent : Entry) (serial : Nat) :
    files.Spares (readDirectory options comparator namesOnly parent serial) .interrupted := by
  refine (spares_attempt (spares_scan calm _)).bind (yields_attempt (yields_scan _)) ?_
  intro answer
  cases answer with
  | error error => exact Spares.pure
  | ok found =>
    refine (spares_readChildren calm _ _ _ _ _).bind (yields_readChildren _ _ _ _ _) fun _ => ?_
    exact (spares_readDots calm _ _ _ _).bind (yields_readDots _ _ _ _ false) fun _ => Spares.pure

theorem spares_readRoots (calm : files.IsCalm) (followLinks : Bool) (serial : Nat)
    (paths : List String) : files.Spares (readRoots followLinks serial paths) .interrupted := by
  induction paths generalizing serial with
  | nil => exact Spares.pure
  | cons path rest ih =>
    refine (spares_withStatus calm _ _).bind (yields_withStatus _ _) fun entry => ?_
    exact (ih (serial + 1)).bind (yields_readRoots _ _ _) fun _ => Spares.pure

theorem spares_start (calm : files.IsCalm) (serial : Nat) (paths : List String)
    (options : WalkOptions) (comparator : Option Comparator) :
    files.Spares (start serial paths options comparator) .interrupted := by
  unfold start
  split
  · exact (spares_readRoots calm _ _ _).bind (yields_readRoots _ _ _) fun _ => Spares.pure
  · exact Spares.pure
  · refine (spares_readRoots calm _ _ _).bind (yields_readRoots _ _ _) fun found => ?_
    split
    · exact Spares.pure
    · exact Spares.pure

/-- A listing gives an answer. -/
theorem listing_ne_error {now : FileSystem} (calm : files.IsCalm) (wears : files.Wears now)
    (walk : Walk) (namesOnly : Bool) (directory : Entry) (stop : Interrupted) :
    (walk.listing namesOnly directory now).1 ≠ .error stop := by
  cases stop
  exact spares_readDirectory calm _ _ _ _ _ now wears

variable {P : List Entry → Entry → Prop} {start : Walk} {client : Client}

theorem Client.step_uninterrupted (calm : files.IsCalm)
    (inherits : Inherits files P start client) (running : client.interrupted = false)
    (command : Command) : (client.step command).interrupted = false := by
  have moves := step_cases inherits.tracked.isOpen running command
  generalize client.step command = client' at moves
  cases moves with
  | stop given =>
    exact absurd (congrArg Prod.fst given) (listing_ne_error calm inherits.wears _ _ _ _)
  | read | exhausted | list | skip | skipRead | skipNothing | change => exact running

/-- A client that leaves the file system alone is not interrupted. -/
theorem Client.run_uninterrupted (calm : files.IsCalm)
    (passes : Passes files start.options.logical P) (inherits : Inherits files P start client)
    (running : client.interrupted = false) {commands : List Command}
    (leaves : ∀ command ∈ commands, command.leavesFiles = true) :
    (client.run commands).interrupted = false := by
  induction commands generalizing client with
  | nil => exact running
  | cons command commands ih =>
    exact ih (inherits.step passes (leaves command List.mem_cons_self))
      (step_uninterrupted calm inherits running command)
      fun other member => leaves other (List.mem_cons_of_mem _ member)

/-! ## File systems without failures -/

/-- A file system without failures does not change. -/
theorem isStatic_of_faults (faultless : ∀ node ∈ files.nodes, node.faults = {}) :
    files.IsStatic := by
  intro node member operation
  rw [faultless node member]
  cases operation <;> rfl

theorem isCalm_of_faults (faultless : ∀ node ∈ files.nodes, node.faults = {}) : files.IsCalm := by
  intro node member operation
  rw [faultless node member]
  cases operation <;> decide

theorem Client.faults_sampleFiles : ∀ node ∈ sampleFiles.nodes, node.faults = {} := by
  decide +kernel

theorem Client.isStatic_sampleFiles : sampleFiles.IsStatic :=
  isStatic_of_faults faults_sampleFiles

theorem Client.isCalm_sampleFiles : sampleFiles.IsCalm :=
  isCalm_of_faults faults_sampleFiles

end DirList.Walk
