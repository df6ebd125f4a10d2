import DirList.Proofs.Listing.Showing
import DirList.Proofs.Listing.Trace
import Mathlib.Order.Defs.Unbundled

/-!
# What jobs leave behind

Whatever a world answers, a job only adds to the session: it writes more text and hands more errors
to the policy, and its calls wear the files. This holds also of a job that is given up, and there
are few reasons to give one up.

Results:
1. `Orderly.bind`: what two steps leave behind one after the other.
2. `orderly_collect`, `orderly_render`: selecting writes nothing, and rendering only writes.
3. `collect_cases`: the entries of a descriptor are those that are to be shown.
4. `measured_of_collect`: it holds the measures of these entries.
-/

namespace DirList

open FileSystem

/-! ## Steps that only add -/

/-- `Session.Adds text session session'`: the text was written, errors were handed to the policy,
and calls have worn the files. -/
structure Session.Adds (text : String) (session session' : Session) : Prop where
  files : session.world.files.Wears session'.world.files
  kind : session'.policy.kind = session.policy.kind
  errors : session.policy.errors <+: session'.policy.errors
  output : session'.output = session.output ++ text

/-- `Session.Grows session session'`: some text was written at most. -/
def Session.Grows (session session' : Session) : Prop :=
  ∃ text, session.Adds text session'

theorem Session.Adds.refl (session : Session) : session.Adds "" session :=
  ⟨.refl, rfl, List.prefix_rfl, String.append_empty.symm⟩

theorem Session.Adds.trans {text text' : String} {session session' session'' : Session}
    (first : session.Adds text session') (second : session'.Adds text' session'') :
    session.Adds (text ++ text') session'' where
  files := first.files.trans second.files
  kind := second.kind.trans first.kind
  errors := first.errors.trans second.errors
  output := by rw [second.output, first.output, String.append_assoc]

instance : IsPreorder Session (Session.Adds "") where
  refl := .refl
  trans := fun _ _ _ first second => first.trans second

instance : IsPreorder Session Session.Grows where
  refl := fun session => ⟨"", .refl session⟩
  trans := fun _ _ _ ⟨_, first⟩ ⟨_, second⟩ => ⟨_, first.trans second⟩

/-! ## Reasons to give up -/

/-- Every reason to give a job up but an error that ends a whole walk. -/
def Abort.IsMild (abort : Abort) : Prop :=
  ∀ error, abort = .listing error → error.isFatal = false

/-- `Excuse config entries session abort`: a job that shows the entries may be given up.

* `interrupted`: there are interrupts.
* `strict`: the policy stops at errors, and this is none that ends a whole walk.
* `emptyBlocks`: blocks are to have no bytes.
* `unknownTimeField`: a timestamp of an unknown name is to be shown.
* `missingStatus`: a long line is to be written for an entry without a status.
* `undatable`: a long line is to be written for an entry whose date cannot be told. -/
inductive Excuse (config : Config) (entries : List Entry) (session : Session) : Abort → Prop
  | interrupted : ¬session.world.files.IsCalm → Excuse config entries session .interrupted
  | strict {error : ListingError} : session.policy.kind = .failFast → error.isFatal = false →
      Excuse config entries session (.listing error)
  | emptyBlocks : config.blockSize = 0 → Excuse config entries session .emptyBlocks
  | unknownTimeField {name : String} : config.timeField = .unknown name →
      Excuse config entries session (.unknownTimeField name)
  | missingStatus {entry : Entry} : config.isLong = true → entry ∈ entries → entry.status = none →
      Excuse config entries session .missingStatus
  | undatable {entry : Entry} {field : TimeField} {fault : DateFault} : config.isLong = true →
      config.timeField = .known field → entry ∈ entries →
      Recursion.dateFault field entry = some fault →
      Excuse config entries session (.undatable fault)

namespace Excuse

variable {config : Config} {entries : List Entry} {session session' : Session} {abort : Abort}

theorem mild (excuse : Excuse config entries session abort) : abort.IsMild := by
  rintro error rfl
  cases excuse with
  | strict _ mild => exact mild

/-- What excuses a job excuses those before it. -/
theorem back (files : session.world.files.Wears session'.world.files)
    (kind : session'.policy.kind = session.policy.kind)
    (excuse : Excuse config entries session' abort) : Excuse config entries session abort := by
  cases excuse with
  | interrupted stormy => exact .interrupted fun calm => stormy (calm.wears files)
  | strict strict mild => exact .strict (kind.symm.trans strict) mild
  | emptyBlocks zero => exact .emptyBlocks zero
  | unknownTimeField unknown => exact .unknownTimeField unknown
  | missingStatus long member missing => exact .missingStatus long member missing
  | undatable long known member lost => exact .undatable long known member lost

/-- What excuses showing some entries excuses showing more. -/
theorem mono {entries' : List Entry} (within : entries ⊆ entries')
    (excuse : Excuse config entries session abort) : Excuse config entries' session abort := by
  cases excuse with
  | interrupted stormy => exact .interrupted stormy
  | strict strict mild => exact .strict strict mild
  | emptyBlocks zero => exact .emptyBlocks zero
  | unknownTimeField unknown => exact .unknownTimeField unknown
  | missingStatus long member missing => exact .missingStatus long (within member) missing
  | undatable long known member lost => exact .undatable long known (within member) lost

end Excuse

/-- `Stops reasons step state`: in this state, the step is given up for no other reasons. -/
def Stops {σ α : Type} (reasons : Abort → Prop) (step : ExceptT Abort (StateM σ) α)
    (state : σ) : Prop :=
  ∀ abort, (step.run.run state).1 = .error abort → reasons abort

theorem Stops.of_settles {σ α : Type} {reasons : Abort → Prop} {step : ExceptT Abort (StateM σ) α}
    {state state' : σ} {answer : α} (settles : Settles step state answer state') :
    Stops reasons step state := by
  intro abort stopped
  rw [settles] at stopped
  cases stopped

theorem Stops.bind {σ α β : Type} {reasons : Abort → Prop} {step : ExceptT Abort (StateM σ) α}
    {next : α → ExceptT Abort (StateM σ) β} {state : σ} (first : Stops reasons step state)
    (second : ∀ answer state', Settles step state answer state' →
      Stops reasons (next answer) state') :
    Stops reasons (step >>= next) state := by
  intro abort stopped
  rw [run_bind] at stopped
  rcases ran : step.run.run state with ⟨stop | answer, state'⟩
  · rw [ran] at stopped
    cases stopped
    exact first abort (congrArg Prod.fst ran)
  · rw [ran] at stopped
    exact second answer state' ran abort stopped

/-! ## Orderly steps -/

/-- `Regular related excuse`: steps that leave related states can be put one after another, and what
excuses one of them excuses those before it. -/
class Regular {σ : Type} (related : σ → σ → Prop) (excuse : σ → Abort → Prop) : Prop
    extends IsPreorder σ related where
  back : ∀ {state state' abort}, related state state' → excuse state' abort → excuse state abort

instance (config : Config) (entries : List Entry) :
    Regular (Session.Adds "") (Excuse config entries) where
  back := fun adds => Excuse.back adds.files adds.kind

instance (config : Config) (entries : List Entry) :
    Regular Session.Grows (Excuse config entries) where
  back := fun ⟨_, adds⟩ => Excuse.back adds.files adds.kind

/-- `Orderly related excuse step`: the step leaves a related state, whatever comes of it, and if it
is given up then it has an excuse. -/
def Orderly {σ α : Type} (related : σ → σ → Prop) (excuse : σ → Abort → Prop)
    (step : ExceptT Abort (StateM σ) α) : Prop :=
  ∀ state, related state (step.run.run state).2 ∧ Stops (excuse state) step state

namespace Orderly

variable {σ α β : Type} {related : σ → σ → Prop} {excuse : σ → Abort → Prop}
  {step : ExceptT Abort (StateM σ) α}

theorem pure [Regular related excuse] (answer : α) :
    Orderly related excuse (Pure.pure answer : ExceptT Abort (StateM σ) α) :=
  fun state => ⟨refl_of related state, fun _ no => nomatch no⟩

theorem throw [Regular related excuse] {abort : Abort} (excused : ∀ state, excuse state abort) :
    Orderly related excuse (MonadExcept.throw abort : ExceptT Abort (StateM σ) α) :=
  fun state => ⟨refl_of related state, fun _ same => Except.error.inj same ▸ excused state⟩

theorem bind [Regular related excuse] {next : α → ExceptT Abort (StateM σ) β}
    (first : Orderly related excuse step)
    (second : ∀ answer, Orderly related excuse (next answer)) :
    Orderly related excuse (step >>= next) := by
  intro state
  obtain ⟨leaves, stops⟩ := first state
  refine ⟨?_, stops.bind fun answer state' settles abort stopped => ?_⟩
  · rw [run_bind]
    rcases ran : step.run.run state with ⟨stop | answer, state'⟩
    · rw [ran] at leaves
      exact leaves
    · rw [ran] at leaves
      exact trans_of related leaves (second answer state').1
  · rw [settles] at leaves
    exact Regular.back leaves ((second answer state').2 abort stopped)

theorem mono {related' : σ → σ → Prop} (orderly : Orderly related excuse step)
    (implies : ∀ {state state'}, related state state' → related' state state') :
    Orderly related' excuse step :=
  fun state => ⟨implies (orderly state).1, (orderly state).2⟩

/-- What is done in the end, whatever has come of a step. -/
theorem closing [Regular related excuse] {change : σ → σ} (orderly : Orderly related excuse step)
    (leaves : ∀ state, related state (change state)) :
    Orderly related excuse (try step finally modify change) := by
  intro state
  obtain ⟨first, stops⟩ := orderly state
  unfold Stops
  rw [run_finally]
  exact ⟨trans_of related first (leaves _), stops⟩

/-- A step that settles leaves a related state. -/
theorem settles {state state' : σ} {answer : α} (orderly : Orderly related excuse step)
    (settles : Settles step state answer state') : related state state' := by
  have leaves := (orderly state).1
  rwa [settles] at leaves

end Orderly

/-! ## Jobs -/

section Jobs

variable {α : Type} {config : Config} {entries : List Entry}

theorem orderly_write (text : String) :
    Orderly Session.Grows (Excuse config entries) (Job.write text) :=
  fun _ => ⟨⟨text, .refl, rfl, List.prefix_rfl, rfl⟩, fun _ no => nomatch no⟩

theorem Policy.errors_handle (policy : Policy) (error : ListingError) :
    (policy.handle error).2.errors = policy.errors ++ [error] := by
  unfold handle
  split <;> rfl

theorem Job.run_report (error : ListingError) (session : Session) :
    (Job.report error).run.run session =
      (if (session.policy.handle error).1 then .error (.listing error) else .ok (),
        { session with policy := (session.policy.handle error).2 }) := by
  have ran : (Job.report error).run.run session =
      ((if (session.policy.handle error).1 then throw (.listing error) else pure () : Job Unit)
        ).run.run { session with policy := (session.policy.handle error).2 } := rfl
  rw [ran]
  split <;> rfl

theorem Job.orderly_report {error : ListingError} (mild : error.isFatal = false) :
    Orderly (Session.Adds "") (Excuse config entries) (Job.report error) := by
  intro session
  unfold Stops
  rw [run_report]
  refine ⟨⟨.refl, Policy.handle_kind _ _, ?_, String.append_empty.symm⟩, fun abort same => ?_⟩
  · dsimp only
    rw [Policy.errors_handle]
    exact List.prefix_append _ _
  · by_cases strict : session.policy.kind = .failFast
    · dsimp only at same
      split at same
      · cases same
        exact .strict strict mild
      · cases same
    · rw [Policy.handle_lenient strict] at same
      cases same

theorem Job.run_access (action : Access α) (session : Session) :
    (Job.access action).run.run session =
      match action.run.run session.world.files with
      | (.ok answer, files) =>
        (.ok answer, { session with world := { session.world with files } })
      | (.error _, files) =>
        (.error .interrupted, { session with world := { session.world with files } }) := by
  unfold Job.access
  rw [run_get_bind]
  rcases action.run.run session.world.files with ⟨_ | _, _⟩ <;> rfl

theorem orderly_access {action : Access α}
    (yields : ∀ files : FileSystem, files.Yields action fun _ => True)
    (spares : ∀ files : FileSystem, files.IsCalm → files.Spares action .interrupted) :
    Orderly (Session.Adds "") (Excuse config entries) (Job.access action) := by
  intro session
  have wears := (yields session.world.files session.world.files .refl).1
  have spared := fun calm => spares session.world.files calm session.world.files .refl
  unfold Stops
  rw [Job.run_access]
  rcases ran : action.run.run session.world.files with ⟨_ | _, files⟩
  · rw [ran] at wears spared
    refine ⟨⟨wears, rfl, List.prefix_rfl, String.append_empty.symm⟩, fun abort same => ?_⟩
    cases same
    exact .interrupted fun calm => spared calm rfl
  · rw [ran] at wears
    exact ⟨⟨wears, rfl, List.prefix_rfl, String.append_empty.symm⟩, fun _ no => nomatch no⟩

theorem orderly_ownerName (numericOnly : Bool) (id : Int) :
    Orderly (Session.Adds "") (Excuse config entries) (Job.ownerName numericOnly id) :=
  fun _ => ⟨⟨.refl, rfl, List.prefix_rfl, String.append_empty.symm⟩, fun _ no => nomatch no⟩

theorem orderly_groupName (numericOnly : Bool) (id : Int) :
    Orderly (Session.Adds "") (Excuse config entries) (Job.groupName numericOnly id) :=
  fun _ => ⟨⟨.refl, rfl, List.prefix_rfl, String.append_empty.symm⟩, fun _ no => nomatch no⟩

theorem orderly_changeHeld (change : List Annotation → List Annotation) :
    Orderly (Session.Adds "") (Excuse config entries) (Job.changeHeld change) :=
  fun _ => ⟨⟨.refl, rfl, List.prefix_rfl, String.append_empty.symm⟩, fun _ no => nomatch no⟩

end Jobs

/-! ## Selecting -/

section Selecting

variable (config : Config) (parent : Option Entry) {shown : List Entry}

theorem orderly_annotate (entry : Entry) (status : Status) :
    Orderly (Session.Adds "") (Excuse config shown) (Descriptor.annotate config entry status) := by
  refine (orderly_ownerName _ _).bind fun owner => ?_
  cases owner with
  | none => exact .pure _
  | some owner =>
    refine (orderly_groupName _ _).bind fun group => ?_
    cases group <;> exact .pure _

theorem orderly_judge (entry : Entry) :
    Orderly (Session.Adds "") (Excuse config shown) (Descriptor.judge config parent entry) := by
  unfold Descriptor.judge
  split
  · exact (Job.orderly_report rfl).bind fun _ => .pure _
  split
  · exact .pure _
  split
  · exact .pure _
  next status _ =>
    dsimp only
    by_cases empty : (config.needsStatus && decide (config.blockSize = 0)) = true
    on_goal 1 =>
      rw [if_pos empty]
      have zero : config.blockSize = 0 := of_decide_eq_true (Bool.and_eq_true_iff.mp empty).2
      refine (Orderly.throw fun _ => .emptyBlocks zero).bind fun _ => ?_
    on_goal 2 => rw [if_neg empty]
    -- After the check of the block size, or without it, names are asked for.
    all_goals
      split
      · refine (orderly_annotate _ _ _).bind fun names => ?_
        cases names with
        | error => exact .pure _
        | ok names => exact (orderly_changeHeld _).bind fun _ => .pure _
      · exact .pure _

theorem orderly_judgeAll (entries : List Entry) :
    Orderly (Session.Adds "") (Excuse config shown)
      (Descriptor.judgeAll config parent entries) := by
  induction entries with
  | nil => exact .pure _
  | cons entry rest ih =>
    refine (orderly_judge config parent entry).bind fun judged => ?_
    cases judged with
    | error error => exact .pure _
    | ok item =>
      refine ih.bind fun items => ?_
      cases items <;> exact .pure _

/-- Selecting and measuring entries writes nothing. -/
theorem orderly_collect (entries : Option (List Entry)) :
    Orderly (Session.Adds "") (Excuse config shown)
      (Descriptor.collect config parent entries) := by
  refine (orderly_judgeAll config parent _).bind fun judged => ?_
  cases judged with
  | error error => exact (orderly_changeHeld _).bind fun _ => .pure _
  | ok items =>
    dsimp only
    split
    · exact .pure _
    split
    next empty =>
      have zero : config.blockSize = 0 := of_decide_eq_true (Bool.and_eq_true_iff.mp empty).2
      exact .throw fun _ => .emptyBlocks zero
    · exact .pure _

theorem output_collect (entries : Option (List Entry)) (session : Session) :
    ((Descriptor.collect config parent entries).run.run session).2.output = session.output := by
  have collects : Orderly (Session.Adds "") (Excuse config [])
    (Descriptor.collect config parent entries) := orderly_collect config parent entries
  rw [(collects session).1.output, String.append_empty]

variable {config parent} {session session' : Session}

theorem annotate_error {entry : Entry} {status : Status} {error : ListingError}
    (settles : Settles (Descriptor.annotate config entry status) session (.error error) session') :
    error = .allocation entry.name := by
  obtain ⟨owner, _, -, settles⟩ := Settles.of_bind settles
  cases owner with
  | none =>
    cases settles
    rfl
  | some owner =>
    obtain ⟨group, _, -, settles⟩ := Settles.of_bind settles
    cases group with
    | none =>
      cases settles
      rfl
    | some group => cases settles

/-- An entry that was judged is visible if it is to be shown, and it is given up only for lack of
memory while it is shown. -/
theorem judge_cases {entry : Entry} {answer : Except ListingError Item}
    (settles : Settles (Descriptor.judge config parent entry) session answer session') :
    (∃ item, answer = .ok item ∧ item.entry = entry ∧
      item.visible = Recursion.isShown config parent entry) ∨
    answer = .error (.allocation entry.name) ∧ Recursion.isShown config parent entry = true := by
  unfold Descriptor.judge at settles
  unfold Recursion.isShown
  by_cases lost : entry.kind = .error ∨ entry.kind = .noStatus
  · have isLost : Recursion.isLost entry = true := by simpa [Recursion.isLost] using lost
    rw [if_pos lost] at settles
    obtain ⟨_, _, -, same⟩ := Settles.of_bind settles
    cases same
    exact .inl ⟨_, rfl, rfl, by simp [isLost]⟩
  have isKept : Recursion.isLost entry = false := by simpa [Recursion.isLost] using lost
  rw [if_neg lost] at settles
  rw [isKept, Bool.not_false, Bool.true_and]
  cases selected : Descriptor.isSelected config parent entry with
  | false =>
    rw [selected] at settles
    cases settles
    exact .inl ⟨_, rfl, rfl, rfl⟩
  | true =>
    rw [selected, if_neg (by decide)] at settles
    cases known : entry.status with
    | none =>
      rw [known] at settles
      cases settles
      exact .inl ⟨_, rfl, rfl, rfl⟩
    | some status =>
      rw [known] at settles
      dsimp only at settles
      split at settles
      · obtain ⟨_, _, no, -⟩ := Settles.of_bind settles
        cases no
      split at settles
      · obtain ⟨names, _, annotates, same⟩ := Settles.of_bind settles
        cases names with
        | error error =>
          cases same
          exact .inr ⟨congrArg Except.error (annotate_error annotates), rfl⟩
        | ok annotation =>
          cases same
          exact .inl ⟨_, rfl, rfl, rfl⟩
      · cases settles
        exact .inl ⟨_, rfl, rfl, rfl⟩

/-- The entries that were judged are visible if they are to be shown. -/
theorem judgeAll_cases {entries : List Entry} {answer : Except ListingError (List Item)}
    (settles : Settles (Descriptor.judgeAll config parent entries) session answer session') :
    (∃ items, answer = .ok items ∧ (Descriptor.visibleItems items).map Item.entry =
      entries.filter (Recursion.isShown config parent)) ∨
    ∃ entry ∈ entries, answer = .error (.allocation entry.name) ∧
      Recursion.isShown config parent entry = true := by
  induction entries generalizing session session' answer with
  | nil =>
    cases settles
    exact .inl ⟨[], rfl, rfl⟩
  | cons entry rest ih =>
    obtain ⟨judged, middle, judges, settles⟩ := Settles.of_bind settles
    rcases judge_cases judges with ⟨item, rfl, same, visible⟩ | ⟨rfl, shown⟩
    · obtain ⟨others, _, judgesAll, settles⟩ := Settles.of_bind settles
      rcases ih judgesAll with ⟨items, rfl, known⟩ | ⟨lost, member, rfl, shown⟩
      · cases settles
        refine .inl ⟨_, rfl, ?_⟩
        rw [Descriptor.visibleItems] at known ⊢
        rw [List.filter_cons, List.filter_cons, visible]
        split
        · rw [List.map_cons, same, known]
        · exact known
      · cases settles
        exact .inr ⟨lost, List.mem_cons_of_mem _ member, rfl, shown⟩
    · cases settles
      exact .inr ⟨entry, List.mem_cons_self, rfl, shown⟩

/-- `Collected config parent entries answer`: what selecting and measuring entries comes to.

* `nothing`: none of them is to be shown.
* `measured`: those that are to be shown are in a descriptor.
* `aborted`: there is no memory to show one of them. -/
inductive Collected (config : Config) (parent : Option Entry) (entries : List Entry) :
    Except ListingError (Option Descriptor) → Prop
  | nothing : entries.filter (Recursion.isShown config parent) = [] →
      Collected config parent entries (.ok none)
  | measured {descriptor : Descriptor} : entries.filter (Recursion.isShown config parent) ≠ [] →
      descriptor.parent = parent →
      descriptor.visibleEntries = entries.filter (Recursion.isShown config parent) →
      Collected config parent entries (.ok (some descriptor))
  | aborted {entry : Entry} : entry ∈ entries → Recursion.isShown config parent entry = true →
      Collected config parent entries (.error (.allocation entry.name))

theorem collect_cases {entries : Option (List Entry)}
    {answer : Except ListingError (Option Descriptor)}
    (settles : Settles (Descriptor.collect config parent entries) session answer session') :
    Collected config parent (entries.getD []) answer := by
  obtain ⟨judged, middle, judges, settles⟩ := Settles.of_bind settles
  rcases judgeAll_cases judges with ⟨items, rfl, known⟩ | ⟨lost, member, rfl, shown⟩
  · dsimp only at settles
    split at settles
    next none =>
      cases settles
      refine .nothing ?_
      rw [← known, List.isEmpty_iff.mp none, List.map_nil]
    next some =>
      split at settles
      · cases settles
      · cases settles
        refine .measured (fun none => some ?_) rfl known
        rw [← known, List.map_eq_nil_iff] at none
        rw [none, List.isEmpty_nil]
  · cases settles
    exact .aborted member shown

/-- A descriptor holds the measures of judged entries. Where blocks are counted, they have some
bytes. -/
theorem measured_of_collect {entries : Option (List Entry)} {descriptor : Descriptor}
    (settles : Settles (Descriptor.collect config parent entries) session
      (.ok (some descriptor)) session') :
    ∃ items middle,
      Settles (Descriptor.judgeAll config parent (entries.getD [])) session (.ok items) middle ∧
      descriptor = Descriptor.measure config parent items ∧
      (config.needsStatus = true → config.blockSize ≠ 0) := by
  obtain ⟨judged, middle, judges, settles⟩ := Settles.of_bind settles
  cases judged with
  | error => cases settles
  | ok items =>
    dsimp only at settles
    split at settles
    · cases settles
    split at settles
    · cases settles
    next sized =>
      cases settles
      refine ⟨items, _, judges, rfl, fun needed zero => sized ?_⟩
      simp [needed, zero]

end Selecting

/-! ## Rendering -/

section Rendering

variable {config : Config} {entries : List Entry}

theorem orderly_linkTarget (entry : Entry) :
    Orderly (Session.Adds "") (Excuse config entries) (Layout.linkTarget entry) := by
  refine (orderly_access (fun files => ?_) fun files calm => ?_).bind fun answer => ?_
  · exact (yields_attempt (yields_readLink _)).mono fun _ _ => trivial
  · exact spares_attempt (spares_readLink calm _)
  · cases answer <;> exact .pure _

theorem orderly_writeLong (long : config.isLong = true) (descriptor : Descriptor) {item : Item}
    (member : item.entry ∈ entries) :
    Orderly Session.Grows (Excuse config entries) (Layout.writeLong config descriptor item) := by
  have grows : ∀ {session session' : Session}, session.Adds "" session' → session.Grows session' :=
    fun adds => ⟨"", adds⟩
  unfold Layout.writeLong
  split
  next _ _ missing => exact .throw fun _ => .missingStatus long member missing
  next unknown => exact .throw fun _ => .unknownTimeField unknown
  next status field known chosen =>
    have line : ∀ target, Orderly Session.Grows (Excuse config entries) (do
        let names := item.annotation.getD (Layout.numericNames status)
        Job.write (Layout.longLine config descriptor (← Job.now) item.entry status names field
          target ++ "\n") : Job Unit) := by
      intro target
      have looks : Orderly Session.Grows (Excuse config entries) Job.now :=
        fun session => ⟨grows (.refl session), fun _ no => nomatch no⟩
      exact looks.bind fun now => orderly_write _
    split
    next fault lost =>
      have undatable : Recursion.dateFault field item.entry = some fault := by
        rw [Recursion.dateFault, known]
        exact lost
      exact .throw fun _ => .undatable long chosen member undatable
    split
    · exact ((orderly_linkTarget _).mono grows).bind line
    · exact (Orderly.pure none).bind line

/-- A renderer of this library writes something. -/
theorem orderly_render {renderer : Renderer}
    (standard : RendererTable.standard.select config = .ok renderer) (descriptor : Descriptor) :
    Orderly Session.Grows (Excuse config descriptor.visibleEntries)
      (renderer.render config descriptor) := by
  rcases render_cases standard with ⟨text, same, -⟩ | ⟨rfl, long⟩
  · rw [same]
    exact orderly_write _
  have lines : ∀ items : List Item, (∀ item ∈ items, item.entry ∈ descriptor.visibleEntries) →
      Orderly Session.Grows (Excuse config descriptor.visibleEntries)
        (items.forM (Layout.writeLong config descriptor)) := by
    intro items members
    induction items with
    | nil => exact .pure _
    | cons item items ih =>
      obtain ⟨first, others⟩ := List.forall_mem_cons.mp members
      exact (orderly_writeLong long descriptor first).bind fun _ => ih others
  exact (orderly_write _).bind fun _ => lines _ fun _ => List.mem_map_of_mem

end Rendering

end DirList
