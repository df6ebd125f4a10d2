import DirList.Proofs.FileSystem.Agreement
import DirList.Proofs.Listing.Parallel
import DirList.Proofs.Listing.Staging

/-!
# Listings that go through the same stages

Two listings that go through the same stages write the same text, hand the same errors to the
policy, ask for the same names and come to the same end, also if the policy stops them on the way.

Results:
1. `transfers_runAll`: going through stages does the same among other files.
2. `run_listPlanned_of_stages`: listings with the same stages come to the same.
3. `listPaths_of_stages`: so do listings by one configuration.
-/

namespace DirList

open FileSystem

/-- Where no call is interrupted, links at which the calls agree read alike. -/
theorem linkAlike_of_agrees {files files' : FileSystem} {path : String} (static : files.IsStatic)
    (calm : files.IsCalm)
    (agrees : Agrees files files' Eq (Call.readLink path) (Call.readLink path)) :
    files.LinkAlike files' path := by
  obtain ⟨answer, settles, -⟩ := settles_of_calm static (yields_attempt (yields_readLink path))
    (spares_attempt (spares_readLink calm path))
  obtain ⟨answer', settles', matched⟩ := agrees.attempt.exists_settles settles
  cases matched.eq
  exact ⟨answer, settles, settles'⟩

/-- Going through the stages of a listing does the same among other files where the links in the
stages read alike. -/
theorem Stage.transfers_runAll {files files' : FileSystem} {plan : Plan}
    (standard : RendererTable.standard.select plan.config = .ok plan.renderer) (rootCount : Nat)
    {stages : List Stage} (links : ∀ stage ∈ stages, stage.LinksAlike files files') :
    Run.Transfers files files' (runAll plan rootCount stages : Stride Walk RunState) :=
  fun source => (Run.transfers_changeState _ source).bind fun _ =>
    (transfers_performAll_of_links standard links source).bind fun _ => Run.transfers_finish source

section Listings

variable {files files' : FileSystem} (plan plan' : Plan) {paths paths' : List String}
variable (static : files.IsStatic) (calm : files.IsCalm)
variable (static' : files'.IsStatic) (calm' : files'.IsCalm) (links : files.LinksAlike files')
variable (standard : RendererTable.standard.select plan.config = .ok plan.renderer)
variable (standard' : RendererTable.standard.select plan'.config = .ok plan'.renderer)

include static calm static' calm' standard standard'

/-- Listings of as many paths that go through the same stages, in which the links read alike, come
to the same and leave the files as they are. -/
theorem run_listPlanned_of_stages
    (count : (pathsOrDefault paths').length = (pathsOrDefault paths).length)
    (unfit : Walk.unfit (pathsOrDefault paths') = Walk.unfit (pathsOrDefault paths))
    (links : Walk.unfit (pathsOrDefault paths) = none →
      ∀ stage ∈ Recursion.stages files plan (pathsOrDefault paths), stage.LinksAlike files files')
    (same : Walk.unfit (pathsOrDefault paths) = none →
      Stage.performAll plan' (Recursion.stages files' plan' (pathsOrDefault paths')) =
        (Stage.performAll plan (Recursion.stages files plan (pathsOrDefault paths)) :
          Stride Walk Unit))
    {session : Session} (looks : session.world.files = files) :
    ((listPlanned plan paths).run.run session).2.world.files = files ∧
      (listPlanned plan' paths').run.run (session.among files') =
        (((listPlanned plan paths).run.run session).1,
          ((listPlanned plan paths).run.run session).2.among files') := by
  rw [run_listPlanned, run_listPlanned]
  generalize pathsOrDefault paths = paths at *
  generalize pathsOrDefault paths' = paths' at *
  cases fits : Walk.unfit paths with
  | some failure =>
    rw [fits] at unfit
    have refused : (Run.list plan' paths').run.run
        { session := session.among files', source := plan'.source Walk.walker } = _ :=
      run_list_of_unfit static' calm' unfit
    rw [run_list_of_unfit (looks ▸ static) (looks ▸ calm) fits, refused,
      refusal_of_unfit fits paths']
    exact (selects_settleAnswer _).commutes session looks
  | none =>
  rw [fits] at unfit
  obtain ⟨source, amounts⟩ := amounts_list static calm standard fits looks
  obtain ⟨source', amounts'⟩ := amounts_list static' calm' standard' unfit
    (rfl : (session.among files').world.files = files')
  obtain ⟨kept, moved⟩ := Stage.transfers_runAll standard paths.length (links fits)
    (plan'.source Walk.walker) { session, source := plan.source Walk.walker } looks
  have stages : Stage.runAll plan' paths'.length (Recursion.stages files' plan' paths') =
      (Stage.runAll plan paths.length (Recursion.stages files plan paths) :
        Stride Walk RunState) := by
    unfold Stage.runAll
    rw [same fits, count]
  have moved' : (Stage.runAll plan paths.length (Recursion.stages files plan paths)).run.run
      { session := session.among files', source := plan'.source Walk.walker } = _ := moved
  rw [stages, moved'] at amounts'
  rw [amounts, amounts']
  exact (selects_settleAnswer _).commutes _ kept

include links in
/-- Listings of as many paths that go through the same stages come to the same among files whose
links read alike, and leave the files as they are. -/
theorem run_listPlanned_among
    (count : (pathsOrDefault paths').length = (pathsOrDefault paths).length)
    (unfit : Walk.unfit (pathsOrDefault paths') = Walk.unfit (pathsOrDefault paths))
    (same : Walk.unfit (pathsOrDefault paths) = none →
      Stage.performAll plan' (Recursion.stages files' plan' (pathsOrDefault paths')) =
        (Stage.performAll plan (Recursion.stages files plan (pathsOrDefault paths)) :
          Stride Walk Unit))
    {session : Session} (looks : session.world.files = files) :
    ((listPlanned plan paths).run.run session).2.world.files = files ∧
      (listPlanned plan' paths').run.run (session.among files') =
        (((listPlanned plan paths).run.run session).1,
          ((listPlanned plan paths).run.run session).2.among files') :=
  run_listPlanned_of_stages plan plan' static calm static' calm' standard standard' count unfit
    (fun _ stage _ => Stage.linksAlike links stage) same looks

end Listings

/-- Listings by one configuration, of as many paths, come to the same where they go through the same
stages, in which the links read alike. -/
theorem listPaths_of_stages {config : Config} {plan : Plan} {world : World} {files' : FileSystem}
    {paths paths' : List String} (kind : PolicyKind)
    (planned : Plan.ofConfig .standard config = .ok plan) (static : world.files.IsStatic)
    (calm : world.files.IsCalm) (static' : files'.IsStatic) (calm' : files'.IsCalm)
    (count : (pathsOrDefault paths').length = (pathsOrDefault paths).length)
    (unfit : Walk.unfit (pathsOrDefault paths') = Walk.unfit (pathsOrDefault paths))
    (links : ∀ stage ∈ Recursion.stages world.files plan (pathsOrDefault paths),
      stage.LinksAlike world.files files')
    (same : Recursion.stages files' plan (pathsOrDefault paths') =
      Recursion.stages world.files plan (pathsOrDefault paths)) :
    ∃ outcome, listPaths .standard world kind paths config = .ok outcome ∧
      listPaths .standard { world with files := files' } kind paths' config =
        .ok { outcome with session := outcome.session.among files' } := by
  have standard := Plan.select_of_planned planned
  obtain ⟨-, ran⟩ := run_listPlanned_of_stages plan plan static calm static' calm' standard standard
    count unfit (fun _ => links) (fun _ => by rw [same])
    (rfl : (Session.fresh world kind).world.files = world.files)
  refine ⟨_, listPaths_of_planned world kind paths planned, ?_⟩
  have moved : (listPlanned plan paths').run.run
      (Session.fresh { world with files := files' } kind) = _ := ran
  rw [listPaths_of_planned _ kind paths' planned, moved]

end DirList
