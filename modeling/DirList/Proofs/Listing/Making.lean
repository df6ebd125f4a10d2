import DirList.Proofs.Listing.Showing

/-!
# What jobs are made of

Selecting and measuring entries hands errors to the policy, asks for names and holds them. Rendering
them writes texts, looks at the clock and reads the links that are shown. Whatever holds of such
steps, and of steps one after another, holds of all of it.

Results:
1. `selects_collect`: selecting and measuring entries is made of the first kind of steps.
2. `draws_render`: rendering them is made of the second kind.
3. `isMade_collect`, `isMade_render`: so both are made of steps of either kind.
-/

namespace DirList

/-- Whether a job is made of the steps that selecting takes. -/
inductive Job.Selects : {α : Type} → Job α → Prop
  | pure {α : Type} (answer : α) : Selects (Pure.pure answer : Job α)
  | throw {α : Type} (abort : Abort) : Selects (MonadExcept.throw abort : Job α)
  | bind {α β : Type} {job : Job α} {next : α → Job β} : Selects job →
      (∀ answer, Selects (next answer)) → Selects (job >>= next)
  | report (error : ListingError) : Selects (Job.report error)
  | ownerName (numericOnly : Bool) (id : Int) : Selects (Job.ownerName numericOnly id)
  | groupName (numericOnly : Bool) (id : Int) : Selects (Job.groupName numericOnly id)
  | changeHeld (change : List Annotation → List Annotation) : Selects (Job.changeHeld change)

/-- Whether a job is made of the steps that rendering takes, and reads no links but those at the
paths `reads`. -/
inductive Job.Draws (reads : String → Prop) : {α : Type} → Job α → Prop
  | pure {α : Type} (answer : α) : Draws reads (Pure.pure answer : Job α)
  | throw {α : Type} (abort : Abort) : Draws reads (MonadExcept.throw abort : Job α)
  | bind {α β : Type} {job : Job α} {next : α → Job β} : Draws reads job →
      (∀ answer, Draws reads (next answer)) → Draws reads (job >>= next)
  | write (text : String) : Draws reads (Job.write text)
  | now : Draws reads Job.now
  | readLink {path : String} : reads path →
      Draws reads (Job.access (attempt (Call.readLink path)))

/-- Whether a job is made of the steps that selecting and rendering take. -/
inductive Job.IsMade : {α : Type} → Job α → Prop
  | pure {α : Type} (answer : α) : IsMade (Pure.pure answer : Job α)
  | throw {α : Type} (abort : Abort) : IsMade (MonadExcept.throw abort : Job α)
  | bind {α β : Type} {job : Job α} {next : α → Job β} : IsMade job →
      (∀ answer, IsMade (next answer)) → IsMade (job >>= next)
  | write (text : String) : IsMade (Job.write text)
  | report (error : ListingError) : IsMade (Job.report error)
  | ownerName (numericOnly : Bool) (id : Int) : IsMade (Job.ownerName numericOnly id)
  | groupName (numericOnly : Bool) (id : Int) : IsMade (Job.groupName numericOnly id)
  | changeHeld (change : List Annotation → List Annotation) : IsMade (Job.changeHeld change)
  | now : IsMade Job.now
  | readLink (path : String) : IsMade (Job.access (attempt (Call.readLink path)))

theorem Job.Selects.isMade {α : Type} {job : Job α} (selects : job.Selects) : job.IsMade := by
  induction selects with
  | pure answer => exact .pure answer
  | throw abort => exact .throw abort
  | bind _ _ first second => exact .bind first second
  | report error => exact .report error
  | ownerName numericOnly id => exact .ownerName numericOnly id
  | groupName numericOnly id => exact .groupName numericOnly id
  | changeHeld change => exact .changeHeld change

theorem Job.Draws.isMade {α : Type} {reads : String → Prop} {job : Job α}
    (draws : job.Draws reads) : job.IsMade := by
  induction draws with
  | pure answer => exact .pure answer
  | throw abort => exact .throw abort
  | bind _ _ first second => exact .bind first second
  | write text => exact .write text
  | now => exact .now
  | readLink _ => exact .readLink _

/-! ## Selecting -/

section Selecting

variable (config : Config)

theorem selects_annotate (entry : Entry) (status : Status) :
    (Descriptor.annotate config entry status).Selects := by
  refine .bind (.ownerName _ _) fun owner => ?_
  cases owner with
  | none => exact .pure _
  | some owner =>
    refine .bind (.groupName _ _) fun group => ?_
    cases group <;> exact .pure _

theorem selects_judge (parent : Option Entry) (entry : Entry) :
    (Descriptor.judge config parent entry).Selects := by
  unfold Descriptor.judge
  split
  · exact .bind (.report _) fun _ => .pure _
  split
  · exact .pure _
  split
  · exact .pure _
  next status _ =>
    dsimp only
    split
    on_goal 1 => refine .bind (.throw _) fun _ => ?_
    -- After the check of the block size, or without it, names are asked for.
    all_goals
      split
      · refine .bind (selects_annotate _ _ _) fun names => ?_
        cases names with
        | error => exact .pure _
        | ok names => exact .bind (.changeHeld _) fun _ => .pure _
      · exact .pure _

theorem selects_judgeAll (parent : Option Entry) (entries : List Entry) :
    (Descriptor.judgeAll config parent entries).Selects := by
  induction entries with
  | nil => exact .pure _
  | cons entry rest ih =>
    refine .bind (selects_judge config parent entry) fun judged => ?_
    cases judged with
    | error error => exact .pure _
    | ok item =>
      refine .bind ih fun items => ?_
      cases items <;> exact .pure _

/-- Selecting and measuring entries is made of the steps that selecting takes. -/
theorem selects_collect (parent : Option Entry) (entries : Option (List Entry)) :
    (Descriptor.collect config parent entries).Selects := by
  refine .bind (selects_judgeAll config parent _) fun judged => ?_
  cases judged with
  | error error => exact .bind (.changeHeld _) fun _ => .pure _
  | ok items =>
    dsimp only
    split
    · exact .pure _
    split
    · exact .throw _
    · exact .pure _

theorem isMade_judge (parent : Option Entry) (entry : Entry) :
    (Descriptor.judge config parent entry).IsMade :=
  (selects_judge config parent entry).isMade

theorem isMade_collect (parent : Option Entry) (entries : Option (List Entry)) :
    (Descriptor.collect config parent entries).IsMade :=
  (selects_collect config parent entries).isMade

end Selecting

/-! ## Rendering -/

section Rendering

variable {config : Config}

theorem draws_writeLong (descriptor : Descriptor) {item : Item} {reads : String → Prop}
    (shown : reads item.entry.accessPath) :
    (Layout.writeLong config descriptor item).Draws reads := by
  unfold Layout.writeLong
  split
  · exact .throw _
  · exact .throw _
  next status field _ _ =>
    have line : ∀ target, Job.Draws reads (do
        let names := item.annotation.getD (Layout.numericNames status)
        Job.write (Layout.longLine config descriptor (← Job.now) item.entry status names field
          target ++ "\n") : Job Unit) :=
      fun target => .bind .now fun now => .write _
    split
    · exact .throw _
    split
    · refine .bind (.bind (.readLink shown) fun answer => ?_) line
      cases answer <;> exact .pure _
    · exact .bind (.pure none) line

/-- Rendering reads no links but those among the shown entries, by every renderer of this
library. -/
theorem draws_render {renderer : Renderer}
    (standard : RendererTable.standard.select config = .ok renderer) (descriptor : Descriptor) :
    (renderer.render config descriptor).Draws fun path =>
      ∃ entry ∈ descriptor.visibleEntries, entry.accessPath = path := by
  rcases render_cases standard with ⟨text, same, -⟩ | ⟨rfl, -⟩
  · rw [same]
    exact .write _
  have lines : ∀ items : List Item, (∀ item ∈ items, item.entry ∈ descriptor.visibleEntries) →
      Job.Draws (fun path => ∃ entry ∈ descriptor.visibleEntries, entry.accessPath = path)
        (items.forM (Layout.writeLong config descriptor)) := by
    intro items shown
    induction items with
    | nil => exact .pure _
    | cons item items ih =>
      obtain ⟨first, others⟩ := List.forall_mem_cons.mp shown
      exact .bind (draws_writeLong descriptor ⟨_, first, rfl⟩) fun _ => ih others
  exact .bind (.write _) fun _ => lines _ fun _ => List.mem_map_of_mem

/-- Rendering is made of single steps, by every renderer of this library. -/
theorem isMade_render {renderer : Renderer}
    (standard : RendererTable.standard.select config = .ok renderer) (descriptor : Descriptor) :
    (renderer.render config descriptor).IsMade :=
  (draws_render standard descriptor).isMade

end Rendering
end DirList
