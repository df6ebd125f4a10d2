import DirList.Proofs.Listing.Displaying

/-!
# Runs that perform acts

A run performs acts: it writes their text and hands their errors to the policy, and it keeps in mind
whether it has written anything.

Results:
1. `Performs.trans`: acts one after another.
2. `exists_report`, `exists_display`: reporting an error and showing entries perform the acts that
   are called so.
-/

namespace DirList

open FileSystem

section Performing

variable {ω : Type} {world : World} {plan : Plan} {run run' run'' : Run ω} {acts acts' : List Act}

/-- `Performs world plan acts run run'`: `run` becomes `run'` by performing the acts. -/
structure Performs (world : World) (plan : Plan) (acts : List Act) (run run' : Run ω) : Prop where
  comes : Comes world
    (Recursion.text world plan run.state.rootCount run.state.hasOutput acts)
    (Recursion.errors acts) run.session run'.session
  rootCount : run'.state.rootCount = run.state.rootCount
  hasOutput : Recursion.ending acts = .ok () →
    run'.state.hasOutput = (run.state.hasOutput || acts.any Act.isBlock)
  hasFailed : run'.state.hasFailed = true →
    run.state.hasFailed = true ∨ Recursion.errors acts ≠ []

namespace Recursion

section Acts

variable (world : World) (plan : Plan) (rootCount : Nat)

/-- What comes after acts that are performed to their end. -/
theorem append_of_ends (ends : ending acts = .ok ()) (acts' : List Act) :
    (∀ hasOutput, text world plan rootCount hasOutput (acts ++ acts') =
      text world plan rootCount hasOutput acts ++
        text world plan rootCount (hasOutput || acts.any Act.isBlock) acts') ∧
    errors (acts ++ acts') = errors acts ++ errors acts' ∧
    ending (acts ++ acts') = ending acts' := by
  induction acts with
  | nil => exact ⟨fun hasOutput => by simp [text], rfl, rfl⟩
  | cons act acts ih =>
    cases act with
    | report error =>
      obtain ⟨texts, errors', endings⟩ := ih ends
      exact ⟨texts, congrArg (error :: ·) errors', endings⟩
    | block parent entries =>
      obtain ⟨texts, errors', endings⟩ := ih ends
      refine ⟨fun hasOutput => ?_, errors', endings⟩
      rw [List.cons_append, text, text, texts, String.append_assoc, String.append_assoc,
        String.append_assoc, List.any_cons, Bool.true_or]
      simp [Act.isBlock]
    | giveUp => cases ends

/-- Acts that come after others which are given up are not performed. -/
theorem append_of_stops {abort : Abort} (stops : ending acts = .error abort) (acts' : List Act) :
    (∀ hasOutput, text world plan rootCount hasOutput (acts ++ acts') =
      text world plan rootCount hasOutput acts) ∧
    errors (acts ++ acts') = errors acts ∧ ending (acts ++ acts') = .error abort := by
  induction acts with
  | nil => cases stops
  | cons act acts ih =>
    cases act with
    | report error =>
      obtain ⟨texts, errors', endings⟩ := ih stops
      exact ⟨texts, congrArg (error :: ·) errors', endings⟩
    | block parent entries =>
      obtain ⟨texts, errors', endings⟩ := ih stops
      refine ⟨fun hasOutput => ?_, errors', endings⟩
      rw [List.cons_append, text, text, texts]
    | giveUp => exact ⟨fun _ => rfl, rfl, stops⟩

/-- Errors that are reported one after another. -/
theorem reports (hasOutput : Bool) (given : List ListingError) :
    text world plan rootCount hasOutput (given.map Act.report) = "" ∧
      errors (given.map Act.report) = given ∧ ending (given.map Act.report) = .ok () := by
  induction given with
  | nil => exact ⟨rfl, rfl, rfl⟩
  | cons error given ih => exact ⟨ih.1, congrArg (error :: ·) ih.2.1, ih.2.2⟩

/-- Entries that are shown are written to their end, or up to a date that cannot be told. -/
theorem writing_of_shown (config : Config) (parent : Option Entry) {shown : List Entry}
    (some : shown.isEmpty = false) (hasOutput : Bool) :
    text world plan rootCount hasOutput (writing config parent shown) =
      heading rootCount hasOutput parent ++ blockText world plan parent shown ∧
    errors (writing config parent shown) = [] ∧
    ending (writing config parent shown) = cutShort (undatable config shown) ∧
    (writing config parent shown).any Act.isBlock = true := by
  unfold writing
  rw [some, if_neg Bool.false_ne_true]
  cases undatable config shown <;> exact ⟨String.append_empty, rfl, rfl, rfl⟩

end Acts
end Recursion

theorem Performs.refl (sees : world.Sees run.session) : Performs world plan [] run run where
  comes := .refl sees
  rootCount := rfl
  hasOutput _ := (Bool.or_false _).symm
  hasFailed := .inl

theorem Performs.trans (ends : Recursion.ending acts = .ok ())
    (first : Performs world plan acts run run') (second : Performs world plan acts' run' run'') :
    Performs world plan (acts ++ acts') run run'' := by
  obtain ⟨texts, errors, endings⟩ :=
    Recursion.append_of_ends world plan run.state.rootCount ends acts'
  refine ⟨?_, second.rootCount.trans first.rootCount, fun ends' => ?_, fun failed => ?_⟩
  · have both := first.comes.trans second.comes
    rwa [first.rootCount, first.hasOutput ends, ← texts, ← errors] at both
  · rw [second.hasOutput (endings.symm.trans ends'), first.hasOutput ends, List.any_append,
      Bool.or_assoc]
  · rw [errors]
    rcases second.hasFailed failed with before | now
    · exact (first.hasFailed before).imp_right fun some none =>
        some (List.append_eq_nil_iff.mp none).1
    · exact .inr fun none => now (List.append_eq_nil_iff.mp none).2

/-- Acts that come after others which are given up make no difference. -/
theorem Performs.stop {abort : Abort} (stops : Recursion.ending acts = .error abort)
    (performs : Performs world plan acts run run') (acts' : List Act) :
    Performs world plan (acts ++ acts') run run' := by
  obtain ⟨texts, errors, endings⟩ :=
    Recursion.append_of_stops world plan run.state.rootCount stops acts'
  refine ⟨?_, performs.rootCount, fun ends => ?_, ?_⟩
  · rw [texts, errors]
    exact performs.comes
  · cases endings.symm.trans ends
  · rw [errors]
    exact performs.hasFailed

/-- Reporting an error performs the act of reporting it. -/
theorem exists_report (plan : Plan) (sees : world.Sees run.session) (error : ListingError) :
    ∃ run', Settles (Run.report error) run () run' ∧
      Performs world plan [.report error] run run' := by
  have ran := Run.run_report error run
  rw [Policy.handle_lenient sees.lenient, if_neg Bool.false_ne_true] at ran
  obtain ⟨_, reports, comes⟩ := does_report error run.session sees
  rw [Job.run_report] at reports
  cases (Prod.mk.inj reports).2
  exact ⟨_, ran, comes, rfl, fun _ => (Bool.or_false _).symm, fun _ => .inr (List.cons_ne_nil _ _)⟩

/-- Writing the entries of a descriptor performs the acts of writing them. -/
theorem exists_writeBlock (sees : world.Sees run.session) (parent : Option Entry)
    {descriptor : Descriptor} {shown : List Entry} (some : shown.isEmpty = false)
    (rendered : Does world (plan.renderer.render plan.config descriptor)
      (Recursion.cutShort (Recursion.undatable plan.config shown))
      (Recursion.blockText world plan parent shown) []) :
    ∃ run', (Run.writeBlock plan parent descriptor).run.run run =
        (Recursion.ending (Recursion.writing plan.config parent shown), run') ∧
      Performs world plan (Recursion.writing plan.config parent shown) run run' := by
  obtain ⟨text, errors, ending, block⟩ := Recursion.writing_of_shown world plan run.state.rootCount
    plan.config parent some run.state.hasOutput
  have heading : parent.elim "" (Run.header run.state) =
      Recursion.heading run.state.rootCount run.state.hasOutput parent := by
    cases parent <;> rfl
  obtain ⟨session, renders, comes⟩ := rendered (run.headed parent).session
    ⟨sees.files, sees.now, sees.owners, sees.groups, sees.lenient⟩
  have wrote : Comes world (Recursion.text world plan run.state.rootCount run.state.hasOutput
      (Recursion.writing plan.config parent shown))
      (Recursion.errors (Recursion.writing plan.config parent shown)) run.session
      session.release := by
    rw [text, errors, ← heading]
    refine ⟨⟨comes.sees.files, comes.sees.now, comes.sees.owners, comes.sees.groups,
      comes.sees.lenient⟩, ?_, comes.policy⟩
    rw [← String.append_assoc]
    exact comes.output
  rw [Run.run_writeBlock, Run.run_writeEntries, renders]
  unfold Recursion.cutShort at ending
  cases fault : Recursion.undatable plan.config shown with
  | none =>
    rw [fault] at ending
    rw [ending]
    refine ⟨_, rfl, wrote, rfl, fun _ => ?_, .inl⟩
    rw [block, Bool.or_true]
  | some fault' =>
    rw [fault] at ending
    rw [ending]
    refine ⟨_, rfl, wrote, rfl, fun ends => ?_, .inl⟩
    cases ending.symm.trans ends

/-- Showing entries performs the acts of showing them. -/
theorem exists_display (steady : world.IsSteady) (works : plan.Works)
    (sees : world.Sees run.session) (parent : Option Entry) (entries : Option (List Entry))
    (described : plan.config.isLong = true → ∀ entry ∈ entries.getD [], entry.Described) :
    ∃ run', (Run.display plan parent entries).run.run run =
        (Recursion.ending (Recursion.showing plan.config parent (entries.getD [])), run') ∧
      Performs world plan (Recursion.showing plan.config parent (entries.getD [])) run run' := by
  obtain ⟨session, collects, comes⟩ :=
    does_collect works.blockSize parent entries run.session sees
  have rendered := does_render steady works parent described
  generalize entries.getD [] = given at collects comes rendered ⊢
  obtain ⟨texts, errors, ends⟩ := Recursion.reports world plan run.state.rootCount
    run.state.hasOutput (Recursion.losses given)
  have reports : Performs world plan ((Recursion.losses given).map .report) run
      { run with session } := by
    refine ⟨?_, rfl, fun _ => ?_, .inl⟩
    · rw [texts, errors]
      exact comes
    · simp [Act.isBlock]
  unfold Recursion.showing
  rw [(Recursion.append_of_ends world plan run.state.rootCount ends _).2.2, Run.run_display,
    collects]
  by_cases nothing : (given.filter (Recursion.isShown plan.config parent)).isEmpty = true
  · rw [if_pos nothing, Recursion.writing, if_pos nothing, List.append_nil]
    exact ⟨_, rfl, reports⟩
  rw [if_neg nothing]
  obtain ⟨run', wrote, writes⟩ := exists_writeBlock reports.comes.sees parent
    (Bool.eq_false_iff.mpr nothing) rendered
  exact ⟨run', wrote, reports.trans ends writes⟩

end Performing
end DirList
