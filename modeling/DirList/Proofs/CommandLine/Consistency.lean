import DirList.CommandLine.Program
import DirList.Proofs.Listing.Displaying

/-!
# Command lines ask for nothing inconsistent

A configuration that a caller makes up can be inconsistent, and is refused before anything is
listed. One that comes from a command line never is: the width and the blocks are positive, dots are
asked for together with hidden entries, and what is chosen among known values is chosen by a flag.
So the program lists whatever command line it accepts.

Results:
1. `Settings.isSound_initial`, `Settings.isSound_apply`: the settings are sound before the first
   flag, and every flag keeps them so.
2. `Request.holds_of_ofArguments`: what holds at first and is kept by every flag holds of the
   settings of an accepted command line.
3. `Program.run_of_readArguments`: there is a plan for what an accepted command line asks for, and
   the program ends as the listing does.
-/

namespace DirList

namespace OutputDevice

/-- A width that is laid out for is positive, whatever the environment and the device say. -/
theorem layoutWidth_pos (device : OutputDevice) (setting : Option String) (fallback : Int)
    (positive : 0 < fallback) : 0 < device.layoutWidth setting fallback := by
  unfold layoutWidth
  split
  · cases given : widthOf setting with
    | some width =>
      have large := (Option.filter_eq_some_iff.mp given).2
      simpa using large
    | none =>
      cases asked : device.width.filter (0 < ·) with
      | some width =>
        have large := (Option.filter_eq_some_iff.mp asked).2
        simpa using large
      | none => simpa using positive
  · exact positive

end OutputDevice

namespace Settings

/-- Settings that come to a consistent configuration. -/
structure IsSound (settings : Settings) : Prop where
  width : 0 < settings.config.width
  blocks : 0 < settings.config.blockSize
  dots : settings.config.showDots → settings.config.showHidden
  display : ∃ mode, settings.config.displayMode = .known mode
  key : ∃ key, settings.config.sortKey = .known key
  time : ∃ field, settings.config.timeField = .known field

theorem isSound_initial (device : OutputDevice) (columns : Option String) (user : Int) :
    (initial device columns user).IsSound := by
  have wide := device.layoutWidth_pos columns defaultWidth (by decide)
  unfold initial
  split <;> split <;> constructor <;> simp_all [Config.forTerminal, defaultBlockSize, defaultWidth]

/-- Every flag keeps settings sound. -/
theorem isSound_apply {flag : Flag} (known : flag ∈ Flag.all) {settings : Settings}
    (sound : settings.IsSound) : (flag.apply settings).IsSound := by
  obtain ⟨width, blocks, dots, display, key, time⟩ := sound
  have each : ∀ flag ∈ Flag.all, (flag.apply settings).IsSound := by
    simp only [Flag.all, List.forall_mem_cons, List.not_mem_nil, false_implies, implies_true,
      and_true]
    and_intros <;> constructor <;> simp_all [Flag.config, Flag.sort, change]
  exact each flag known

/-- Sound settings come to a configuration without problems: even the timestamp that may be sorted
by is one that is known. -/
theorem problems_toConfig {settings : Settings} (sound : settings.IsSound) :
    settings.toConfig.problems = [] := by
  obtain ⟨width, blocks, dots, ⟨mode, display⟩, ⟨key, sorted⟩, ⟨field, time⟩⟩ := sound
  unfold toConfig Config.problems
  split <;> simp_all [timeKey, Int.not_le.mpr]

end Settings

namespace Word

/-- If a word is a cluster, then its first flag is one of the flags that there are. -/
def IsKnown (word : Word) : Prop :=
  ∀ flag letters, word = cluster flag letters → flag ∈ Flag.all

theorem isKnown_ofText {text : String} {word : Word} (told : ofText text = .ok word) :
    word.IsKnown := by
  rintro flag letters rfl
  unfold ofText strange at told
  split at told
  · dsimp only at told
    split at told
    · split at told <;> cases told
    · cases told
    · cases told
  · split at told
    · next found =>
      cases told
      exact List.mem_of_find?_eq_some found
    · split at told <;> cases told
  · cases told

/-- All words of a command line are known. -/
theorem isKnown_ofTexts {texts : List String} {words : List Word}
    (told : ofTexts texts = .ok words) : ∀ word ∈ words, word.IsKnown := by
  induction texts generalizing words with
  | nil =>
    cases told
    exact fun _ no => absurd no (List.not_mem_nil)
  | cons text rest ih =>
    rw [ofTexts] at told
    split at told
    · cases told
      refine List.forall_mem_cons.mpr ⟨fun _ _ => Word.noConfusion, fun word member => ?_⟩
      obtain ⟨path, -, rfl⟩ := List.mem_map.mp member
      exact fun _ _ => Word.noConfusion
    · cases here : ofText text with
      | error error =>
        rw [here] at told
        cases told
      | ok first =>
        cases later : ofTexts rest with
        | error error =>
          rw [here, later] at told
          cases told
        | ok others =>
          rw [here, later] at told
          cases told
          exact List.forall_mem_cons.mpr ⟨isKnown_ofText here, ih later⟩

end Word

namespace Request

variable {property : Settings → Prop}
  (kept : ∀ flag ∈ Flag.all, ∀ settings, property settings → property (flag.apply settings))

include kept

theorem holds_of_applyLetters {letters : List Char} {flag : Flag} (known : flag ∈ Flag.all)
    {settings after : Settings} (holds : property settings)
    (applied : applyLetters settings flag letters = .ok after) : property after := by
  induction letters generalizing flag settings with
  | nil =>
    cases applied
    exact kept flag known settings holds
  | cons letter rest ih =>
    rw [applyLetters] at applied
    split at applied
    · next next found =>
      exact ih (List.mem_of_find?_eq_some found) (kept flag known settings holds) applied
    · cases applied

theorem holds_of_applyCluster {letters : List Char} {flag : Flag} (known : flag ∈ Flag.all)
    {settings after : Settings} (holds : property settings)
    (applied : applyCluster settings flag letters = .ok after) : property after := by
  unfold applyCluster at applied
  split at applied
  · cases applied
  · exact holds_of_applyLetters kept known holds applied
  · exact holds_of_applyLetters kept known holds applied

theorem holds_of_ofWords {words : List Word} (known : ∀ word ∈ words, word.IsKnown)
    {settings after : Settings} {row : Option (List String)} {leftovers paths : List String}
    (holds : property settings)
    (accepted : ofWords settings row leftovers words = .ok (.list after paths)) :
    property after := by
  fun_induction ofWords settings row leftovers words with
  | case1 =>
    cases accepted
    exact holds
  | case3 settings row leftovers flag letters rest changed applied ih =>
    obtain ⟨first, later⟩ := List.forall_mem_cons.mp known
    exact ih later (holds_of_applyCluster kept (first flag letters rfl) holds applied) accepted
  | case8 settings row leftovers text rest ih =>
    exact ih (List.forall_mem_cons.mp known).2 holds accepted
  | case9 settings leftovers word rest _ _ _ _ _ _ others ih =>
    exact ih (fun word member => known word
      (.tail _ ((List.dropWhile_sublist _).mem member))) holds accepted
  | case10 settings leftovers word rest _ _ _ _ _ _ others paths ih =>
    exact ih (fun word member => known word
      (.tail _ ((List.dropWhile_sublist _).mem member))) holds accepted
  | _ => cases accepted

/-- What is kept by every flag holds of the settings that an accepted command line comes to. -/
theorem holds_of_ofArguments {arguments paths : List String} {settings after : Settings}
    (holds : property settings)
    (accepted : ofArguments settings arguments = .ok (.list after paths)) : property after := by
  unfold ofArguments at accepted
  cases told : Word.ofTexts arguments with
  | error error =>
    rw [told] at accepted
    cases accepted
  | ok words =>
    rw [told] at accepted
    exact holds_of_ofWords kept (Word.isKnown_ofTexts told) holds accepted

end Request

namespace Program

/-- What an accepted command line asks for is consistent. -/
theorem problems_of_readArguments {environment : Environment} {arguments paths : List String}
    {config : Config} (accepted : readArguments environment arguments = .ok (config, paths)) :
    config.problems = [] := by
  unfold readArguments at accepted
  dsimp only at accepted
  split at accepted
  · next settings row asked =>
    cases accepted
    have sound : settings.IsSound :=
      Request.holds_of_ofArguments (fun _ known _ => Settings.isSound_apply known)
        (Settings.isSound_initial _ _ _) asked
    exact Settings.problems_toConfig sound
  · cases accepted
  · cases accepted
  · cases accepted

/-- There is an order, a renderer and a listing for all that an accepted command line asks for, and
the program ends as that listing does: it never refuses the configuration. -/
theorem run_of_readArguments {answer : TerminalAnswer} {width : Option Int}
    {columns : Option String} {user : Int} {arguments paths : List String} {config : Config}
    (accepted : readArguments ⟨.ofAnswers answer width, columns, user⟩ arguments
      = .ok (config, paths)) :
    config.problems = [] ∧ (∃ order, config.listingOrder = .ok order) ∧
      (∃ renderer, RendererTable.standard.select config = .ok renderer) ∧
      ∀ world, ∃ outcome,
        listPaths .standard world (.report none) paths config = .ok outcome ∧
        run .standard ⟨.ofAnswers answer width, columns, user⟩ world arguments
          = ⟨endingOf outcome.status, outcome.session.output, outcome.session.policy.written⟩ := by
  have consistent := problems_of_readArguments accepted
  obtain ⟨plan, planned⟩ := Plan.exists_of_accepted consistent
  refine ⟨consistent, Config.exists_listingOrder consistent, Config.exists_renderer consistent,
    fun world => ⟨_, listPaths_of_planned world _ paths planned, ?_⟩⟩
  rw [run, accepted]
  simp only [listPaths_of_planned world _ paths planned]

/-- A terminal that tells no width, an environment with a nonsensical one, and flags that overrule
each other. -/
theorem run_of_readArguments_sample :
    ∃ config, readArguments ⟨.ofAnswers .yes (some 0), some "-7", 0⟩ ["-la", "src", "-tcd"]
      = .ok (config, ["src"]) ∧ config.problems = [] := by
  have accepted : readArguments ⟨.ofAnswers .yes (some 0), some "-7", 0⟩ ["-la", "src", "-tcd"]
      = .ok ({ displayMode := DisplayMode.long, maskNames := true, showHidden := true,
               showDots := true, listDirectory := true, timeField := TimeField.change,
               sortKey := SortKey.time .change }, ["src"]) := by
    decide +kernel
  exact ⟨_, accepted, (run_of_readArguments accepted).1⟩

end Program
end DirList
