import Splice.Proofs.Render.Assembly
import Splice.Proofs.Render.Duration
import Splice.Proofs.Render.FreshPaths
import Splice.Proofs.Render.Outcomes

/-!
# The course of a run

A composition plans every step of its assembly, with all lengths in it (`Composition.plannedSteps`).
`Course` is a grammar of the events of a run that carries out such a plan: it has one rule for each
way in which the code goes on, those after the failure of a job among them. Every operation keeps to
it whether it succeeds or fails, from a single job to a whole render
(`Studio.course_renderPlanned`); two operations one after the other carry out one plan after the
other (`RenderT.Leaves.bind_course`).
-/

namespace Splice

variable {α σ β : Type}

/-! ### Plans -/

/-- The length of what is there after a step. -/
def MergeStep.result : MergeStep α → α
  | filler f => f.duration
  | clip _ duration => duration
  | transition _ _ _ _ _ _ result _ => result
  | concat _ _ result => result

/-- The step when the engine cannot render the style of a blend. -/
def MergeStep.inFallback : MergeStep α → MergeStep α
  | transition fromId toId _ duration left right result _ =>
    transition fromId toId .fallback duration left right result true
  | step => step

section Plan

variable [Scalar α]

/-- The step that says that an entry is rendered. -/
def Entry.step : Entry α → MergeStep α
  | entry@(clip _ c) => .clip c.id entry.renderedDuration
  | filler f => .filler f

/-- The length and the label of what is rendered for an entry. -/
def Entry.cut (entry : Entry α) : α × Option (ℕ × String) := (entry.renderedDuration, entry.label)

/-- The length and the label of a piece. -/
def Piece.cut (piece : Piece α) : α × Option (ℕ × String) :=
  (piece.rendered.duration, piece.clip?)

/-- The step that merges files of the given lengths, with a seam or without one. -/
def MergeStep.between (left right : α) : Option (Seam α) → MergeStep α
  | some (style, duration, fromId, toId) =>
    .transition fromId toId style duration left right (blendedLength left right duration) false
  | none => .concat left right (left + right)

/-- The steps that merge files onto what is there. -/
def MergeStep.planOnto (blendAfter? : ℕ → Option (TransitionStyle × α)) (running : α)
    (last? : Option (ℕ × String)) : List (α × Option (ℕ × String)) → List (MergeStep α)
  | [] => []
  | (duration, label?) :: rest =>
    let step := between running duration (Piece.transitionTo? blendAfter? last? label?)
    step :: planOnto blendAfter? step.result label? rest

/-- The steps that merge files. -/
def MergeStep.plan (blendAfter? : ℕ → Option (TransitionStyle × α)) :
    List (α × Option (ℕ × String)) → List (MergeStep α)
  | [] => []
  | (duration, label?) :: rest => planOnto blendAfter? duration label? rest

/-- The steps of the assembly of a composition, if the engine can render every style. -/
def Composition.plannedSteps (c : Composition α) : List (MergeStep α) :=
  c.entries.map Entry.step ++ MergeStep.plan c.blendAfter? (c.entries.map Entry.cut)

end Plan

/-! ### The grammar -/

/-- A job that blends what another one does in the fallback style, into another file. -/
structure Job.Transition.Replaces (second first : Job.Transition α) : Prop where
  eq : second = { first with style := .fallback, output := second.output }
  output_ne : second.output ≠ first.output

/-- The events of a run that carries out a plan, when it ends with a failure or with none. -/
inductive Course : List (MergeStep α) → Option Failure → List (Event α) → Prop
  | done {failure? : Option Failure} : Course [] failure? []
  | stopped {planned : List (MergeStep α)} {e : Failure} : Course planned (some e) []
  | plain {planned : List (MergeStep α)} {failure? : Option Failure} {event : Event α}
    {events : List (Event α)} (hstep : event.step? = none) (hfailure : event.isFailure = false)
    (tail : Course planned failure? events) : Course planned failure? (event :: events)
  | step {planned : List (MergeStep α)} {failure? : Option Failure} {step : MergeStep α}
    {events : List (Event α)} (hstep : step.isFallback = false)
    (tail : Course planned failure? events) :
    Course (step :: planned) failure? (.merged step :: events)
  | recovered {planned : List (MergeStep α)} {failure? : Option Failure}
    {first second : Job.Transition α} {e : Failure} {step : MergeStep α} {events : List (Event α)}
    (hfirst : (Job.transition first).isRecoverable e = true) (hsecond : second.Replaces first)
    (hstep : step.inFallback.isFallback = true) (tail : Course planned failure? events) :
    Course (step :: planned) failure?
      (.ran (.transition first) (some e) :: .ran (.transition second) none ::
        .merged step.inFallback :: events)
  | failed {planned : List (MergeStep α)} {job : Job α} {e : Failure}
    (hjob : job.isRecoverable e = false) : Course planned (some e) [.ran job (some e)]
  | failedTwice {planned : List (MergeStep α)} {first second : Job.Transition α} {e e' : Failure}
    (hfirst : (Job.transition first).isRecoverable e = true) (hsecond : second.Replaces first) :
    Course planned (some e')
      [.ran (.transition first) (some e), .ran (.transition second) (some e')]

namespace Course

variable {planned rest : List (MergeStep α)} {failure? : Option Failure} {e : Failure}
  {a b : List (Event α)}

/-- A run that carries out one plan, and a run that carries out another after it, carry out both. -/
theorem append (ha : Course planned none a) (hb : Course rest failure? b) :
    Course (planned ++ rest) failure? (a ++ b) := by
  generalize hnone : (none : Option Failure) = ended? at ha
  -- the rules of the first run are applied again, until its plan is done and the second run goes on
  induction ha with
  | done => exact hb
  | stopped => cases hnone
  | plain hstep hfailure _ ih => exact .plain hstep hfailure (ih hnone)
  | step hstep _ ih => exact .step hstep (ih hnone)
  | recovered hfirst hsecond hstep _ ih => exact .recovered hfirst hsecond hstep (ih hnone)
  | failed => cases hnone
  | failedTwice => cases hnone

/-- After a failure, what is planned next does not matter. -/
theorem fail (h : Course planned (some e) a) : Course (planned ++ rest) (some e) a := by
  generalize hsome : some e = ended? at h
  induction h with
  | done => exact hsome ▸ .stopped
  | stopped => exact .stopped
  | plain hstep hfailure _ ih => exact .plain hstep hfailure (ih hsome)
  | step hstep _ ih => exact .step hstep (ih hsome)
  | recovered hfirst hsecond hstep _ ih => exact .recovered hfirst hsecond hstep (ih hsome)
  | failed hjob => exact .failed hjob
  | failedTwice hfirst hsecond => exact .failedTwice hfirst hsecond

/-- What is not part of the assembly carries out the empty plan. -/
theorem bearing : RenderT.Bearing (α := α) (Course []) where
  nil _ := .done
  append ha hb := ha.append hb
  quiet e hquiet hfailure := by
    refine .plain ?_ hfailure .done
    cases e with
    | merged => cases hquiet
    | _ => rfl
  failed _ _ hjob := .failed hjob

end Course

namespace RenderT

open Course (bearing)

variable {γ : Type} {x : RenderT α (StateM σ) β} {f : β → RenderT α (StateM σ) γ}
  {planned rest : List (MergeStep α)}

/-- A sequence carries out one plan and then another one. -/
theorem Leaves.bind_course (hx : x.Leaves (Course planned))
    (hf : ∀ p b t, x.Ends p (.ok b) t → (f b).Leaves (Course rest)) :
    (x >>= f).Leaves (Course (planned ++ rest)) :=
  Leaves.bind_into Course.append Course.fail hx hf

/-- What is not part of the assembly may come before it. -/
theorem Leaves.bind_before (hx : x.Leaves (Course []))
    (hf : ∀ b, (f b).Leaves (Course planned)) : (x >>= f).Leaves (Course planned) :=
  hx.bind_course fun _ b _ _ ↦ hf b

/-- And it may come after it. -/
theorem Leaves.bind_after (hx : x.Leaves (Course planned))
    (hf : ∀ b, (f b).Leaves (Course [])) : (x >>= f).Leaves (Course planned) := by
  have h := hx.bind_course fun _ b _ _ ↦ hf b
  rwa [List.append_nil] at h

/-- A failure breaks off any plan. -/
theorem Leaves.throw_course (e : Failure) :
    (MonadExcept.throw e : RenderT α (StateM σ) β).Leaves (Course planned) := by
  intro p r q h
  obtain ⟨rfl, rfl⟩ := ends_throw.1 h
  exact ⟨[], .refl _, .stopped⟩

/-- A step that is logged, and is no fallback, is carried out. -/
theorem Leaves.record_step {step : MergeStep α} (hstep : step.isFallback = false) (b : β) :
    (RenderT.record (.merged step) >>= fun _ ↦ Pure.pure b : RenderT α (StateM σ) β).Leaves
      (Course [step]) :=
  (Leaves.record (.step hstep .done)).bind_after fun _ ↦ .pure bearing.toAdditive b

end RenderT

/-! ### Assembly -/

section Assembly

variable [Scalar α]

/-- A piece has the length and the label that are planned for its entry. -/
theorem EntryRun.cut_eq {entry : Entry α} {piece : Piece α} {events : List (Event α)}
    (h : EntryRun entry piece events) : piece.cut = entry.cut := by
  cases h with
  | clip hcontent =>
    rw [Entry.cut, Entry.renderedDuration, Clip.video?, hcontent]
    rfl
  | filler => rfl

theorem EntriesRun.cuts_eq {entries : List (Entry α)} {pieces : List (Piece α)}
    {events : List (Event α)} (h : EntriesRun entries pieces events) :
    pieces.map Piece.cut = entries.map Entry.cut := by
  induction h with
  | nil => rfl
  | cons head _ ih => rw [List.map_cons, List.map_cons, head.cut_eq, ih]

/-- A merge is as long as planned. -/
theorem MergeRun.result_eq {left right result : α} {seam? : Option (Seam α)}
    {events : List (Event α)} (h : MergeRun left right seam? result events) :
    (MergeStep.between left right seam?).result = result := by
  cases h <;> rfl

namespace Session

open Course (bearing)
open RenderT (Leaves ends_bind ends_bind_of_ok ends_pure ends_throw)

variable {s : Session (StateM σ) α} {p q : Situation α σ}

/-- Rendering an entry carries out the step of the entry. -/
theorem course_renderEntry (c : Composition α) (entry : Entry α) :
    (s.renderEntry c entry).Leaves (Course [entry.step]) := by
  have hP := bearing (α := α)
  cases entry with
  | clip index clip =>
    rw [renderEntry, Entry.step, Entry.renderedDuration]
    cases clip.video? with
    | none => exact .throw_course _
    | some media =>
      show Leaves (Course [.clip clip.id (media.excerpt clip.duration).outputDuration]) _
      refine (leaves_source hP.toAdditive _).bind_before fun input ↦
        (leaves_makeSegment hP _ _ _ _).bind_course fun p file t hsegment ↦ ?_
      rw [← (ends_makeSegment hsegment).1]
      exact .record_step rfl _
  | filler filler =>
    exact (leaves_renderFiller hP filler).bind_course fun _ _ _ _ ↦ .record_step rfl _

/-- Rendering the entries carries out their steps in order. -/
theorem course_renderEntries (c : Composition α) (entries : List (Entry α)) :
    (entries.mapM (s.renderEntry c)).Leaves (Course (entries.map Entry.step)) := by
  induction entries with
  | nil => exact .pure bearing.toAdditive []
  | cons entry rest ih =>
    rw [List.mapM_cons]
    exact (course_renderEntry c entry).bind_course fun _ _ _ _ ↦
      ih.bind_after fun _ ↦ .pure bearing.toAdditive _

/-! ### Blends -/

variable {left right file : RenderedFile α} {style : TransitionStyle} {duration : α}

/-- What a blend can come to, in the requested style or in the fallback style. -/
inductive BlendRun (style : TransitionStyle) :
    Except Failure (Path × TransitionStyle × Bool) → List (Event α) → Prop
  | done {job : Job.Transition α} :
    BlendRun style (.ok (job.output, style, false)) [.ran (.transition job) none]
  | recovered {first second : Job.Transition α} {e : Failure}
    (hfirst : (Job.transition first).isRecoverable e = true) (hsecond : second.Replaces first) :
    BlendRun style (.ok (second.output, .fallback, true))
      [.ran (.transition first) (some e), .ran (.transition second) none]
  | failed {job : Job.Transition α} {e : Failure}
    (hjob : (Job.transition job).isRecoverable e = false) :
    BlendRun style (.error e) [.ran (.transition job) (some e)]
  | failedTwice {first second : Job.Transition α} {e e' : Failure}
    (hfirst : (Job.transition first).isRecoverable e = true) (hsecond : second.Replaces first) :
    BlendRun style (.error e')
      [.ran (.transition first) (some e), .ran (.transition second) (some e')]

/-- The job that blends two files into the intermediate file of a number. -/
def blendInto (s : Session (StateM σ) α) (left right : RenderedFile α) (style : TransitionStyle)
    (duration : α) (number : ℕ) : Job.Transition α where
  first := left.path
  second := right.path
  style
  duration
  offset := Scalar.max (left.duration - duration) 0.0
  encoding := s.canvas.encoding
  output := s.workdir.join (freshName number ("xfade_" ++ style.name) "mp4")

/-- Blending into a file of another number in the fallback style replaces the blend. -/
theorem replaces_blendInto (s : Session (StateM σ) α) (left right : RenderedFile α)
    (style : TransitionStyle) (duration : α) {n k : ℕ} (h : k ≠ n) :
    (s.blendInto left right .fallback duration k).Replaces
      (s.blendInto left right style duration n) where
  eq := by simp only [blendInto]
  output_ne houtput := by
    simp only [blendInto] at houtput
    exact h (eq_of_join_freshName_eq houtput)

/-- The job that blends two files takes the next number. -/
theorem exists_ends_blendJob (s : Session (StateM σ) α) (p : Situation α σ)
    (left right : RenderedFile α) (style : TransitionStyle) (duration : α) :
    ∃ t, (s.blendJob left right style duration).Ends p
        (.ok (s.blendInto left right style duration p.journal.freshCount)) t ∧
      p.Adds [] t ∧ t.journal.freshCount = p.journal.freshCount + 1 :=
  ⟨⟨{ p.journal with freshCount := p.journal.freshCount + 1 }, p.world⟩,
    (RenderT.ends_of_outcome_eq rfl).2 ⟨rfl, rfl⟩, .refl _, rfl⟩

/-- A blend comes to one of the four runs. -/
theorem ends_blendFiles {r : Except Failure (Path × TransitionStyle × Bool)}
    (h : (s.blendFiles left right style duration).Ends p r q) :
    ∃ events, p.Adds events q ∧ BlendRun style r events := by
  obtain ⟨t, hfirst, hadds, hcount⟩ := exists_ends_blendJob s p left right style duration
  obtain ⟨failure?, u, hattempt, hadds', hcount'⟩ := exists_ends_attempt s t
    (.transition (s.blendInto left right style duration p.journal.freshCount))
  rw [blendFiles, ends_bind_of_ok hfirst] at h
  rw [ends_bind_of_ok hattempt] at h
  have hattempted := hadds.trans hadds'
  cases failure? with
  | none =>
    obtain ⟨rfl, rfl⟩ := ends_pure.1 h
    exact ⟨_, hattempted, .done⟩
  | some e =>
    dsimp only at h
    split_ifs at h with hrecoverable
    · obtain ⟨v, hsecond, hadds'', -⟩ := exists_ends_blendJob s u left right .fallback duration
      -- the second job has a number of its own, which makes its output another file
      have hne : u.journal.freshCount ≠ p.journal.freshCount := by omega
      have hreplaces := replaces_blendInto s left right style duration hne
      rw [ends_bind_of_ok hsecond] at h
      rcases ends_bind.1 h with ⟨path, w, hrun, h⟩ | ⟨e', hrun, rfl⟩
      · obtain ⟨rfl, rfl⟩ := ends_pure.1 h
        obtain ⟨rfl, hran⟩ := ends_run hrun
        exact ⟨_, hattempted.trans (hadds''.trans hran), .recovered hrecoverable hreplaces⟩
      · rcases cases_of_ends_run hrun with ⟨hok, -⟩ | ⟨e'', he, hran⟩
        · cases hok
        · rw [Except.error.inj he]
          exact ⟨_, hattempted.trans (hadds''.trans hran), .failedTwice hrecoverable hreplaces⟩
    · obtain ⟨rfl, rfl⟩ := ends_throw.1 h
      exact ⟨_, hattempted, .failed (Bool.eq_false_iff.2 hrecoverable)⟩

/-- A merge by a transition carries out the step of its seam, in the fallback style if need be. -/
theorem course_mergeByTransition (left right : RenderedFile α) (style : TransitionStyle)
    (duration : α) (fromId toId : String) :
    (s.mergeByTransition left right style duration fromId toId).Leaves
      (Course [.between left.duration right.duration (some (style, duration, fromId, toId))]) := by
  intro p r q h
  rcases ends_bind.1 h with ⟨⟨path, used, usedFallback⟩, t, hblend, h⟩ | ⟨e, hblend, rfl⟩
  · obtain ⟨events, hadds, hrun⟩ := ends_blendFiles hblend
    obtain ⟨_, u, hrecord, h⟩ | ⟨_, hrecord, -⟩ := ends_bind.1 h
    · obtain ⟨rfl, rfl⟩ := ends_pure.1 h
      refine ⟨_, hadds.trans (adds_of_ends_record hrecord), ?_⟩
      cases hrun with
      | done => exact .plain rfl rfl (.step rfl .done)
      | recovered hfirst hsecond => exact .recovered hfirst hsecond rfl .done
    · exact nomatch (ends_record.1 hrecord).1
  · obtain ⟨events, hadds, hrun⟩ := ends_blendFiles hblend
    refine ⟨events, hadds, ?_⟩
    cases hrun with
    | failed hjob => exact .failed hjob
    | failedTwice hfirst hsecond => exact .failedTwice hfirst hsecond

/-- A merge without a seam carries out the step that adds the lengths. -/
theorem course_mergeByConcat (left right : RenderedFile α) :
    (s.mergeByConcat left right).Leaves (Course [.between left.duration right.duration none]) := by
  have hP := bearing (α := α)
  exact (leaves_freshPath hP.toAdditive _ _).bind_before fun _ ↦
    (leaves_freshPath hP.toAdditive _ _).bind_before fun _ ↦
      (leaves_run_quiet hP rfl).bind_before fun _ ↦ .record_step rfl _

/-- Merging pieces carries out the plan that starts from the length of what is there. -/
theorem course_mergeOnto (blendAfter? : ℕ → Option (TransitionStyle × α))
    (running : RenderedFile α) (last? : Option (ℕ × String)) (pieces : List (Piece α)) :
    (s.mergeOnto blendAfter? running last? pieces).Leaves
      (Course (MergeStep.planOnto blendAfter? running.duration last?
        (pieces.map Piece.cut))) := by
  induction pieces generalizing running last? with
  | nil => exact .pure bearing.toAdditive running
  | cons next rest ih =>
    rw [mergeOnto, List.map_cons]
    -- with a seam or without one, the plan goes on from the length that the merge has
    have hrest {seam? : Option (Seam α)} {merged : RenderedFile α} {events : List (Event α)}
        (hmerge : MergeRun running.duration next.rendered.duration seam? merged.duration events) :
        (s.mergeOnto blendAfter? merged next.clip? rest).Leaves
          (Course (MergeStep.planOnto blendAfter?
            (MergeStep.between running.duration next.rendered.duration seam?).result next.clip?
            (rest.map Piece.cut))) := by
      rw [hmerge.result_eq]
      exact ih merged next.clip?
    rcases hseam : Piece.transitionTo? blendAfter? last? next.clip? with
      - | ⟨style, duration, fromId, toId⟩
    · have h := (course_mergeByConcat running next.rendered).bind_course
        fun p merged t hmerge ↦ hrest (ends_mergeByConcat (s := s) hmerge).choose_spec.1
      rw [List.singleton_append, ← hseam] at h
      exact h
    · have h := (course_mergeByTransition running next.rendered style duration fromId
        toId).bind_course fun p merged t hmerge ↦
          hrest (ends_mergeByTransition (s := s) hmerge).choose_spec.1
      rw [List.singleton_append, ← hseam] at h
      exact h

theorem course_mergePieces (blendAfter? : ℕ → Option (TransitionStyle × α))
    (pieces : List (Piece α)) :
    (s.mergePieces blendAfter? pieces).Leaves
      (Course (MergeStep.plan blendAfter? (pieces.map Piece.cut))) := by
  cases pieces with
  | nil => exact .throw_course _
  | cons first rest => exact course_mergeOnto blendAfter? first.rendered first.clip? rest

end Session

/-! ### Renders -/

namespace Studio

open Course (bearing)
open RenderT (Leaves)

variable {studio : Studio (StateM σ) α}

/-- An assembly carries out the steps that its composition plans. -/
theorem course_assemble (session : Session (StateM σ) α) (c : Composition α) :
    (studio.assemble session c).Leaves (Course c.plannedSteps) := by
  have hP := bearing (α := α)
  refine (leaves_reach hP _).bind_before fun _ ↦
    (Session.course_renderEntries c c.entries).bind_course fun p pieces t hentries ↦ ?_
  -- the pieces are as long as planned, and are labelled like their entries
  obtain ⟨_, hrun, -⟩ := Session.ends_renderEntries hentries
  rw [← hrun.cuts_eq]
  exact (leaves_reach hP _).bind_before fun _ ↦
    (Session.course_mergePieces c.blendAfter? pieces).bind_after fun base ↦
      (leaves_reach hP _).bind hP.toAdditive fun _ ↦
        (Session.leaves_addOverlays hP base _).bind hP.toAdditive fun painted ↦
          (leaves_reach hP _).bind hP.toAdditive fun _ ↦ Session.leaves_addSounds hP painted _

/-- So does all of a render after its plan is made. -/
theorem course_renderPlanned (project : Project α) (media : Manifest) (c : Composition α)
    (destination : Path) (options : RenderOptions) (workdir : Path) :
    (studio.renderPlanned project media c destination options workdir).Leaves
      (Course c.plannedSteps) := by
  have hP := bearing (α := α)
  refine (course_assemble _ c).bind_after fun rendered ↦
    (leaves_reach hP _).bind hP.toAdditive fun _ ↦
      (Leaves.perform hP.toAdditive _).bind hP.toAdditive fun output ↦
        (Leaves.record (hP.quiet _ rfl rfl)).bind hP.toAdditive fun _ ↦ ?_
  have hcomplete (report : RenderReport α) :
      (studio.reach .complete >>= fun _ ↦ pure report :
        RenderT α (StateM σ) (RenderReport α)).Leaves (Course []) :=
    (leaves_reach hP _).bind hP.toAdditive fun _ ↦ .pure hP.toAdditive report
  cases options.trace with
  | false => exact (Leaves.pure hP.toAdditive none).bind hP.toAdditive fun _ ↦ hcomplete _
  | true =>
    exact ((leaves_leaveTrace hP.toAdditive _ _ _ _).map hP.toAdditive some).bind hP.toAdditive
      fun _ ↦ hcomplete _

end Studio

end Assembly

end Splice
