import DirList.Proofs.Listing.Following
import DirList.Proofs.Walk.Completeness

/-!
# What a run reaches

The walk of a run goes into a directory in one of two ways: the listing is recursive, and the
directory was displayed with its entries; or it could not be listed when it was displayed, and could
be when the walk went on. So every directory displayed can be traced back to a root through
directories that were displayed before.

Results:
1. `Reads.passes`: what a walk awaits was awaited before, or comes from the directory it enters.
2. `carries_reaching`: every turn of a run goes on with what was reached.
3. `entered_of_displays`: every directory displayed was reached through those displayed before it.
-/

namespace DirList

open FileSystem Walk

/-! ## Entering a directory -/

namespace Walk

variable {walk walk' : Walk} {files files' : FileSystem} {event : Option Entry}
  {P : Entry → Prop}

/-- `walk.Enters files directory entries`: asked for an event, the walk will go into the directory
just reported and find the entries there. -/
def Enters (walk : Walk) (files : FileSystem) (directory : Entry) (entries : List Entry) : Prop :=
  walk.here? = some directory ∧ directory.serial ∉ walk.skipped ∧
    (walk.listed = some entries ∨ walk.listed = none ∧
      ∃ files', walk.listing false directory files = (.ok (.ok entries), files'))

theorem Next.passes (step : Next walk event walk') (awaited : ∀ entry ∈ walk.awaited, P entry) :
    (∀ entry ∈ walk'.awaited, P entry) ∧
      ∀ directory, walk'.here? = some directory → P directory := by
  have current := step.current
  rcases step.awaited with ⟨rfl, same⟩ | ⟨entry, rfl, taken⟩ | ⟨frame, -, rfl, same⟩
  · rw [same]
    refine ⟨awaited, fun directory at_ => ?_⟩
    cases current.symm.trans (here?_eq_some.mp at_).1
  · rw [taken] at awaited
    refine ⟨fun other member => awaited other (List.mem_cons_of_mem _ member), ?_⟩
    intro directory at_
    cases current.symm.trans (here?_eq_some.mp at_).1
    exact awaited entry List.mem_cons_self
  · rw [same]
    refine ⟨awaited, fun directory at_ => ?_⟩
    cases current.symm.trans (here?_eq_some.mp at_).1
    exact nomatch (here?_eq_some.mp at_).2

/-- What a walk awaits, and a directory that it reports, was awaited before, or comes from the
directory that the walk enters. -/
theorem Reads.passes (reads : Reads walk files event walk' files')
    (awaited : ∀ entry ∈ walk.awaited, P entry)
    (entering : ∀ directory entries, walk.Enters files directory entries →
      ∀ entry ∈ entries, P entry) :
    (∀ entry ∈ walk'.awaited, P entry) ∧
      ∀ directory, walk'.here? = some directory → P directory := by
  have into : ∀ {directory : Entry} {entries : List Entry} {count : Nat},
      walk.Enters files directory entries →
      ∀ entry ∈ (walk.entered directory entries count).awaited, P entry := by
    intro directory entries count enters entry member
    rw [awaited_entered] at member
    exact (List.mem_append.mp member).elim (entering _ _ enters entry) (awaited entry)
  have closed : ∀ event : Entry, event.kind ≠ .directory →
      (∀ entry ∈ (walk.left event).awaited, P entry) ∧
        ∀ directory, (walk.left event).here? = some directory → P directory := by
    intro event kind
    refine ⟨awaited, fun directory at_ => ?_⟩
    cases (here?_of_current rfl kind).symm.trans at_
  cases reads with
  | go => exact (next_advance _).passes awaited
  | pass | refuse => exact closed _ nofun
  | resume at_ unskipped listed =>
    exact (next_advance _).passes (into ⟨at_, unskipped, .inl listed⟩)
  | enter at_ unskipped unlisted given =>
    exact (next_advance _).passes (into ⟨at_, unskipped, .inr ⟨unlisted, _, given⟩⟩)

/-- At the start of a directory, listing gives what the directory has, and the walk keeps it if it
was listed with statuses. -/
theorem Lists.cases_here {namesOnly : Bool} {answer : Option (List Entry)} {directory : Entry}
    (lists : Lists walk files namesOnly answer walk' files') (started : walk.started = true)
    (at_ : walk.here? = some directory) :
    (∃ error, answer = none ∧ walk'.listed = none ∧
      walk.listing namesOnly directory files = (.ok (.error error), files')) ∨
    ∃ entries, answer = some entries ∧
      walk'.listed = (if namesOnly then none else some entries) ∧
      walk.listing namesOnly directory files = (.ok (.ok entries), files') := by
  cases lists with
  | roots fresh => cases started.symm.trans fresh
  | nowhere _ away => cases at_.symm.trans away
  | fail _ at' given =>
    cases at_.symm.trans at'
    exact .inl ⟨_, rfl, rfl, given⟩
  | give _ at' given =>
    cases at_.symm.trans at'
    exact .inr ⟨_, rfl, rfl, given⟩

end Walk

/-! ## Reached directories -/

namespace Run

/-- `Reached base plan log entry`: the calls so far show how a run comes to an entry.

* `root`: it was displayed among the roots.
* `descend`: it was displayed in its directory, and the listing is recursive.
* `recover`: its directory could not be listed when it was displayed, and recovers. -/
inductive Reached (base : FileSystem) (plan : Plan) (log : List (Display Walk)) : Entry → Prop
  | root {call : Display Walk} {roots : List Entry} {entry : Entry} : call ∈ log →
      call.parent = none → call.entries = some roots → entry ∈ roots → entry.ancestors = [] →
      Reached base plan log entry
  | descend {call : Display Walk} {up entry : Entry} {entries : List Entry} : call ∈ log →
      call.parent = some up → Reached base plan log up → plan.config.recursive = true →
      call.entries = some entries → entry ∈ entries → up.IsChildOf entry →
      Reached base plan log entry
  | recover {call : Display Walk} {up entry : Entry} : call ∈ log →
      call.parent = some up → Reached base plan log up → call.entries = none →
      base.Recovers up.accessPath → up.IsChildOf entry → Reached base plan log entry

variable {base : FileSystem} {plan : Plan} {log : List (Display Walk)} {entry : Entry}

theorem Reached.later (reached : Reached base plan log entry) (more : List (Display Walk)) :
    Reached base plan (log ++ more) entry := by
  induction reached with
  | root member top listed inside none =>
    exact .root (List.mem_append_left _ member) top listed inside none
  | descend member parent _ recursive listed inside child ih =>
    exact .descend (List.mem_append_left _ member) parent ih recursive listed inside child
  | recover member parent _ unlisted recovers child ih =>
    exact .recover (List.mem_append_left _ member) parent ih unlisted recovers child

/-- Without recursion, every directory above recovers. -/
theorem Reached.above (reached : Reached base plan log entry)
    (flat : plan.config.recursive = false) :
    ∀ above ∈ entry.ancestors, ∃ call ∈ log, ∃ up, call.parent = some up ∧
      up.asAncestor = above ∧ call.entries = none ∧ base.Recovers up.accessPath := by
  induction reached with
  | root _ _ _ _ none =>
    rw [none]
    exact List.forall_mem_nil _
  | descend _ _ _ recursive => cases flat.symm.trans recursive
  | @recover call up _ member parent _ unlisted recovers child ih =>
    rw [child.ancestors]
    intro above inside
    rcases List.mem_cons.mp inside with rfl | higher
    · exact ⟨call, member, up, parent, rfl, unlisted, recovers⟩
    · exact ih above higher

/-- `Entered base plan log directory`: a run that has made the calls so far displays the
directory. -/
structure Entered (base : FileSystem) (plan : Plan) (log : List (Display Walk))
    (directory : Entry) : Prop where
  reached : Reached base plan log directory
  kind : directory.kind = .directory
  shown : Recursion.isPassedOver plan.config directory = false
  grounded : directory.Grounded base

theorem Entered.later (entered : Entered base plan log entry) (more : List (Display Walk)) :
    Entered base plan (log ++ more) entry :=
  { entered with reached := entered.reached.later more }

/-- `Reaching base plan fuel log run`: all that the walk of the run awaits was reached, and so is
all that it will find in the directory just reported. -/
def Reaching (base : FileSystem) (plan : Plan) (_ : Nat) (log : List (Display Walk))
    (run : Run Walk) : Prop :=
  ∃ used walk, Follows base plan used walk run ∧
    (∀ entry ∈ walk.awaited, Reached base plan log entry) ∧
    ∀ directory entries, walk.Enters run.session.world.files directory entries →
      ∀ entry ∈ entries, Reached base plan log entry

/-- A directory that was displayed is one that was entered. -/
def IsEntered (base : FileSystem) (plan : Plan) (log : List (Display Walk))
    (call : Display Walk) : Prop :=
  ∀ directory, call.parent = some directory → Entered base plan log directory

section Turns

variable {event : Entry} {walk walk' : Walk} {run run' : Run Walk} {used : List Nat}
  {calls : List (Display Walk)}

/-- A walk does not enter what it was told to skip. -/
theorem not_enters_skip {directory : Entry} {files : FileSystem} {entries : List Entry}
    (at_ : walk.here? = some event) : ¬(walk.skip event).Enters files directory entries := by
  rintro ⟨at', unskipped, -⟩
  cases at_.symm.trans at'
  exact unskipped List.mem_cons_self

/-- What the walk will find in a directory that was displayed was reached with that call: the walk
finds what was displayed, or it finds nothing, or the directory recovers. -/
theorem reached_of_displayed {entries : Option (List Entry)} {run₁ : Run Walk}
    (follows : Follows base plan used walk run) (started : walk.started = true)
    (at_ : walk.here? = some event) (reached : Reached base plan log event)
    (lists : Lists walk run.session.world.files (Recursion.namesOnly plan) entries walk'
      run₁.session.world.files)
    (later : run.session.world.files.Wears run'.session.world.files)
    (left : (!plan.config.recursive && !(entries.getD []).isEmpty) = false)
    {directory : Entry} {found : List Entry}
    (enters : walk'.Enters run'.session.world.files directory found) :
    ∀ other ∈ found, Reached base plan (log ++ [⟨some event, entries, run₁⟩]) other := by
  obtain ⟨at', -, finds⟩ := enters
  cases (lists.here.trans at_).symm.trans at'
  have same := lists.sameWalk
  have displayed : (⟨some event, entries, run₁⟩ : Display Walk) ∈
      log ++ [⟨some event, entries, run₁⟩] := List.mem_append_right _ List.mem_cons_self
  have wears := follows.wears.trans later
  intro other member
  rcases lists.cases_here started at_ with
    ⟨error, rfl, unlisted, fails⟩ | ⟨listed, rfl, kept, given⟩
  · -- The walk lists the directory again, and that succeeds.
    obtain ⟨_, given⟩ : ∃ files', walk'.listing false event run'.session.world.files =
        (.ok (.ok found), files') := by
      rcases finds with listed | ⟨-, given⟩
      · cases unlisted.symm.trans listed
      · exact given
    obtain ⟨names, scanned⟩ := scan_of_listing given
    have sorts : ∀ entries, ∃ sorted, sortEntries walk.comparator entries = .ok sorted := by
      rw [follows.comparator]
      exact plan.sorts
    have child := (listing_spec wears given).child other member
    refine .recover displayed rfl (reached.later _) rfl ?_ child
    exact ⟨_, _, error, names, follows.wears, later, scan_of_unlisted sorts fails, scanned⟩
  cases recursive : plan.config.recursive with
  | true =>
    -- The walk goes through the entries that were displayed.
    rw [Recursion.namesOnly_of_recursive recursive] at kept
    obtain rfl : listed = found := by
      rcases finds with listed' | ⟨unlisted, -⟩
      · exact Option.some.inj (kept.symm.trans listed')
      · cases kept.symm.trans unlisted
    exact .descend displayed rfl (reached.later _) recursive rfl member
      ((listing_spec follows.wears given).child other member)
  | false =>
    -- There was nothing to display, and there is nothing to find.
    have nothing : listed = [] := by
      rw [recursive] at left
      simpa using left
    have complete := listing_complete follows.wears given
    have empty : found.length = 0 := by
      rcases finds with listed' | ⟨-, _, given'⟩
      · rw [kept] at listed'
        split at listed'
        · cases listed'
        · cases listed'
          rw [nothing]
          rfl
      · have complete' := listing_complete wears given'
        rw [same.options] at complete'
        rw [complete'.length_eq complete, nothing]
        rfl
    rw [List.length_eq_zero_iff.mp empty] at member
    cases member

/-- What a run leaves its walk to enter at an event was reached with the calls made at the event. -/
theorem reached_of_reacts (follows : Follows base plan used walk run)
    (current : walk.current = some event) (started : walk.started = true)
    (reached : event.kind = .directory → Reached base plan log event)
    (reacts : Reacts plan (Recursion.namesOnly plan) event walk run calls walk' run')
    {directory : Entry} {entries : List Entry}
    (enters : walk'.Enters run'.session.world.files directory entries) :
    ∀ other ∈ entries, Reached base plan (log ++ calls) other := by
  cases reacts with
  | ignore kind => cases (here?_of_current current kind).symm.trans enters.1
  | pass kind => exact absurd enters (not_enters_skip (here?_eq_some.mpr ⟨current, kind⟩))
  | @enter shown walk₁ run₁ run₂ _ kind _ looks lists _ extends_ looks' =>
    have at_ : walk.here? = some event := here?_eq_some.mpr ⟨current, kind⟩
    have later := lists.wears.trans (extends_.keeps.files.trans looks'.files)
    unfold leftBehind at enters
    split at enters
    · exact absurd enters (not_enters_skip (lists.here.trans at_))
    next left =>
      exact reached_of_displayed follows started at_ (reached kind) lists later
        (by simpa using left) enters

end Turns

section Standard

variable (standard : RendererTable.standard.select plan.config = .ok plan.renderer)

include standard

/-- Every turn of a run goes on with what was reached. -/
theorem carries_reaching :
    Carries plan (Recursion.namesOnly plan) (Reaching base plan) (IsEntered base plan) := by
  rintro fuel log run event run₁ ⟨used, walk, follows, known, entering⟩ reads
  obtain ⟨walk₁, -, reads', follows₁⟩ := follows.read reads
  obtain ⟨known₁, here⟩ := reads'.passes known entering
  have current := reads'.current
  have reached : event.kind = .directory → Reached base plan log event :=
    fun kind => here event (here?_eq_some.mpr ⟨current, kind⟩)
  refine ⟨fun call member directory parent => ?_, fun run₂ reacts => ?_⟩
  · obtain ⟨kind, shown, _, _, -, rfl⟩ := of_mem_displaysAt member
    cases parent
    exact ⟨reached kind, kind, shown,
      follows₁.sound.holds.here event (here?_eq_some.mpr ⟨current, kind⟩)⟩
  · obtain ⟨walk₂, reacts', follows₂⟩ := follows₁.reacts standard current reacts
    obtain ⟨-, frames, pending⟩ := reacts'.unmoved
    refine ⟨_, walk₂, follows₂, fun entry member => ?_, fun directory entries =>
      reached_of_reacts follows₁ current reads'.started reached reacts'⟩
    rw [awaited, frames, pending, ← awaited] at member
    exact (known₁ entry member).later _

/-- Every directory displayed was reached through those displayed before it. -/
theorem entered_of_displays {world : World} {kind : PolicyKind} {paths : List String}
    {before after : List (Display Walk)} {call : Display Walk}
    (split : displays plan world kind paths = before ++ call :: after) :
    IsEntered world.files plan before call := by
  refine list_displays ?_ (carries_reaching standard) split
  refine begins_of_roots standard fun {walk _} _ started _ _ => ⟨(fun _ no => nomatch no), ?_⟩
  refine fun _ _ follows => ⟨_, walk, follows, fun entry member => ?_, ?_⟩
  · rw [started.awaited] at member
    exact .root List.mem_cons_self rfl rfl member (started.roots.ancestors entry member)
  · rintro directory found ⟨at_, -⟩
    cases started.nowhere.symm.trans at_

end Standard

theorem entered_of_planned {config : Config} {plan : Plan} {world : World} {kind : PolicyKind}
    {paths : List String} {before after : List (Display Walk)} {call : Display Walk}
    (planned : Plan.ofConfig .standard config = .ok plan)
    (split : displays plan world kind paths = before ++ call :: after) :
    IsEntered world.files plan before call :=
  entered_of_displays (Plan.select_of_planned planned) split

end Run
end DirList
