import Splice.Proofs.Render.Course

/-!
# Failures of jobs

A render ends with the failure of a job, right after it, unless the job is a wipe that the engine
could not render. Such a job is followed by one that blends the same files in the fallback style
into another file, and only then does the step of the merge say so. What is merged, and how long the
results are, does not depend on failures: the steps of any render are the first of the planned ones,
some of them in the fallback style.

All this is `Composition.HandlesFailures`. Each of its statements is an induction on the course of
the run (`Course.of_failure`, `Course.marked`, `Course.carried`).
-/

namespace Splice

variable {α σ : Type}

/-- A step that carries out a planned one, in its style or in the fallback style. -/
def MergeStep.Carries (step planned : MergeStep α) : Prop :=
  step = planned ∨ step = planned.inFallback

/-- A blend can be recovered only if it is a wipe and the engine failed. -/
theorem style_eq_of_isRecoverable {job : Job.Transition α} {e : Failure}
    (h : (Job.transition job).isRecoverable e = true) :
    e.isEngine = true ∧ job.style = .wipeLeft := by
  obtain ⟨hengine, hstyle⟩ := Bool.and_eq_true_iff.1 h
  refine ⟨hengine, ?_⟩
  cases hjob : job.style with
  | fade =>
    rw [hjob] at hstyle
    cases hstyle
  | wipeLeft => rfl

/-- The second try of a blend is in the fallback style, so there is no third one. -/
theorem Job.Transition.Replaces.isRecoverable_eq {first second : Job.Transition α}
    (h : second.Replaces first) (e : Failure) :
    (Job.transition second).isRecoverable e = false := by
  rw [Job.isRecoverable, h.eq]
  simp

/-! ### Failures in the course of a run -/

namespace Course

variable {planned : List (MergeStep α)} {failure? : Option Failure} {events : List (Event α)}

/-- What follows the failure of a job: nothing, or another try if the job can be recovered. -/
theorem of_failure (h : Course planned failure? events) : ∀ pre job e post,
    events = pre ++ .ran job (some e) :: post →
    (job.isRecoverable e = false ∧ post = [] ∧ failure? = some e) ∨
      ∃ first second answer? rest, job = .transition first ∧ job.isRecoverable e = true ∧
        second.Replaces first ∧ post = .ran (.transition second) answer? :: rest ∧
        (answer? = none →
          ∃ step rest', rest = .merged step :: rest' ∧ step.isFallback = true) := by
  intro pre job e post hevents
  -- the failure is among the events of the rule that is applied, or in those of its tail
  induction h generalizing pre with
  | done => exact absurd hevents (by simp)
  | stopped => exact absurd hevents (by simp)
  | plain hstep hfailure _ ih =>
    rcases pre with - | ⟨x, pre⟩
    · obtain ⟨rfl, -⟩ := List.cons.inj hevents
      cases hfailure
    · exact ih pre (List.cons.inj hevents).2
  | step hstep _ ih =>
    rcases pre with - | ⟨x, pre⟩
    · cases hevents
    · exact ih pre (List.cons.inj hevents).2
  | recovered hfirst hsecond hstep _ ih =>
    rcases pre with - | ⟨x, - | ⟨y, - | ⟨z, pre⟩⟩⟩
    · cases hevents
      exact .inr ⟨_, _, none, _, rfl, hfirst, hsecond, rfl, fun _ ↦ ⟨_, _, rfl, hstep⟩⟩
    · cases hevents
    · cases hevents
    · simp only [List.cons_append, List.cons.injEq] at hevents
      exact ih pre hevents.2.2.2
  | failed hjob =>
    rcases pre with - | ⟨x, pre⟩
    · cases hevents
      exact .inl ⟨hjob, rfl, rfl⟩
    · exact absurd (List.cons.inj hevents).2 (by simp)
  | failedTwice hfirst hsecond =>
    rcases pre with - | ⟨x, - | ⟨y, pre⟩⟩
    · cases hevents
      exact .inr ⟨_, _, _, _, rfl, hfirst, hsecond, rfl, nofun⟩
    · cases hevents
      exact .inl ⟨hsecond.isRecoverable_eq _, rfl, rfl⟩
    · simp at hevents

/-- A step says that it fell back exactly if a failed blend and the one that replaced it are right
before it. -/
theorem marked (h : Course planned failure? events) : ∀ pre step post,
    events = pre ++ .merged step :: post →
    (step.isFallback = true ↔
      ∃ first e second, [.ran first (some e), .ran second none] <:+ pre) := by
  intro pre step post hevents
  induction h generalizing pre with
  | done => exact absurd hevents (by simp)
  | stopped => exact absurd hevents (by simp)
  | @plain _ _ event _ hstep hfailure _ ih =>
    rcases pre with - | ⟨x, pre⟩
    · obtain ⟨rfl, -⟩ := List.cons.inj hevents
      cases hstep
    · obtain ⟨hevent, hrest⟩ := List.cons.inj hevents
      rw [ih pre hrest, ← hevent]
      -- an event that is no failure is not the first one of such a pair
      have hne (first : Job α) (e : Failure) : .ran first (some e) ≠ event := by
        rintro rfl
        cases hfailure
      simp [List.suffix_cons_iff, hne]
  | step hstep _ ih =>
    rcases pre with - | ⟨x, pre⟩
    · cases hevents
      simp [hstep]
    · obtain ⟨rfl, hrest⟩ := List.cons.inj hevents
      rw [ih pre hrest]
      simp [List.suffix_cons_iff]
  | recovered hfirst hsecond hstep _ ih =>
    rcases pre with - | ⟨x, - | ⟨y, - | ⟨z, pre⟩⟩⟩
    · cases hevents
    · cases hevents
    · cases hevents
      exact ⟨fun _ ↦ ⟨_, _, _, List.suffix_rfl⟩, fun _ ↦ hstep⟩
    · simp only [List.cons_append, List.cons.injEq] at hevents
      obtain ⟨rfl, rfl, rfl, hrest⟩ := hevents
      rw [ih pre hrest]
      simp [List.suffix_cons_iff]
  | failed =>
    rcases pre with - | ⟨x, pre⟩
    · cases hevents
    · exact absurd (List.cons.inj hevents).2 (by simp)
  | failedTwice =>
    rcases pre with - | ⟨x, - | ⟨y, pre⟩⟩
    · cases hevents
    · cases hevents
    · simp at hevents

/-- The steps are the first of the planned ones, and all of them if the run succeeds. -/
theorem carried (h : Course planned failure? events) : ∃ begun, begun <+: planned ∧
    List.Forall₂ MergeStep.Carries (events.filterMap Event.step?) begun ∧
    (failure? = none → begun = planned) := by
  induction h with
  | done => exact ⟨[], List.prefix_rfl, .nil, fun _ ↦ rfl⟩
  | stopped => exact ⟨[], List.nil_prefix, .nil, nofun⟩
  | plain hstep _ _ ih =>
    rw [List.filterMap_cons, hstep]
    exact ih
  | step _ _ ih =>
    obtain ⟨begun, hprefix, hcarries, hall⟩ := ih
    exact ⟨_ :: begun, (List.prefix_cons_inj _).2 hprefix, .cons (.inl rfl) hcarries,
      fun h ↦ by rw [hall h]⟩
  | recovered _ _ _ _ ih =>
    obtain ⟨begun, hprefix, hcarries, hall⟩ := ih
    exact ⟨_ :: begun, (List.prefix_cons_inj _).2 hprefix, .cons (.inr rfl) hcarries,
      fun h ↦ by rw [hall h]⟩
  | failed => exact ⟨[], List.nil_prefix, .nil, nofun⟩
  | failedTwice => exact ⟨[], List.nil_prefix, .nil, nofun⟩

end Course

/-! ### Renders -/

/-- How a render deals with the failures of jobs, when it ends with a failure or with none. -/
structure Composition.HandlesFailures [Scalar α] (c : Composition α) (failure? : Option Failure)
    (events : List (Event α)) : Prop where
  /-- Nothing follows a failed job, and its failure is that of the render, unless the job is a wipe
  that the engine could not render. -/
  final : ∀ pre job e post, events = pre ++ .ran job (some e) :: post →
    (post = [] ∧ failure? = some e) ∨
      ∃ first, job = .transition first ∧ first.style = .wipeLeft ∧ e.isEngine = true
  /-- The next event after such a wipe is a job that blends the same files in the fallback style
  into another file. If it is done, the next step says so. -/
  retried : ∀ pre first e post, events = pre ++ .ran (.transition first) (some e) :: post →
    first.style = .wipeLeft → e.isEngine = true →
    ∃ second failure? rest, second = { first with style := .fade, output := second.output } ∧
      second.output ≠ first.output ∧ post = .ran (.transition second) failure? :: rest ∧
      (failure? = none → ∃ step rest', rest = .merged step :: rest' ∧ step.isFallback = true)
  /-- A step says that the fallback was used exactly if it comes right after a job that failed and
  the one that replaced it. -/
  marked : ∀ pre step post, events = pre ++ .merged step :: post →
    (step.isFallback = true ↔ ∃ first e second, [.ran first (some e), .ran second none] <:+ pre)
  /-- The steps are the first of the planned ones, some of them in the fallback style, and all of
  them if nothing failed. -/
  steps : ∃ begun, begun <+: c.plannedSteps ∧
    List.Forall₂ MergeStep.Carries (events.filterMap Event.step?) begun ∧
    (failure? = none → begun = c.plannedSteps)

section Scalar

variable [Scalar α]

/-- A run that keeps to a plan deals with failures as it should. -/
theorem Course.handlesFailures {c : Composition α} {failure? : Option Failure}
    {events : List (Event α)} (h : Course c.plannedSteps failure? events) :
    c.HandlesFailures failure? events where
  final pre job e post hevents := by
    rcases h.of_failure pre job e post hevents with
      ⟨-, hlast⟩ | ⟨first, second, answer?, rest, rfl, hjob, -⟩
    · exact .inl hlast
    · obtain ⟨hengine, hstyle⟩ := style_eq_of_isRecoverable hjob
      exact .inr ⟨first, rfl, hstyle, hengine⟩
  retried pre first e post hevents hstyle hengine := by
    have hjob : (Job.transition first).isRecoverable e = true := by
      rw [Job.isRecoverable, hstyle, hengine]
      rfl
    rcases h.of_failure pre _ e post hevents with
      ⟨hfinal, -⟩ | ⟨_, second, answer?, rest, hfirst, -, hreplaces, hrest⟩
    · rw [hjob] at hfinal
      cases hfinal
    · cases hfirst
      exact ⟨second, answer?, rest, hreplaces.eq, hreplaces.output_ne, hrest⟩
  marked := h.marked
  steps := h.carried

end Scalar

namespace Studio

open Course (bearing)
open RenderT (ends_bind failureOf)

variable [Scalar α] {studio : Studio (StateM σ) α} {p q : Situation α σ} {project : Project α}
  {media : Manifest} {destination : Path} {options : RenderOptions}

/-- However it ends, a run carries out what the project plans on the canvas of the report, or on
some canvas if there is no report. -/
def RunsPlan (project : Project α) (x : RenderT α (StateM σ) (RenderReport α)) : Prop :=
  ∀ p r q, x.Ends p r q → ∃ canvas events, p.Adds events q ∧
    Course (Composition.ofProject project canvas).plannedSteps (failureOf r) events ∧
    ∀ report, r = .ok report → report.canvas = canvas

/-- What is not part of the assembly may come before a planned run. -/
theorem RunsPlan.bind_before {β : Type} {x : RenderT α (StateM σ) β}
    {f : β → RenderT α (StateM σ) (RenderReport α)} (hx : x.Leaves (Course []))
    (hf : ∀ b, RunsPlan project (f b)) : RunsPlan project (x >>= f) := by
  intro p r q h
  rcases ends_bind.1 h with ⟨b, t, hb, hrest⟩ | ⟨e, he, rfl⟩
  · obtain ⟨before, hbefore, hcourse⟩ := hx p _ t hb
    obtain ⟨canvas, events, hadds, hevents, hcanvas⟩ := hf b t r q hrest
    exact ⟨canvas, before ++ events, hbefore.trans hadds, hcourse.append hevents, hcanvas⟩
  · obtain ⟨events, hadds, hevents⟩ := hx p _ q he
    exact ⟨⟨0, 0, 0.0, none⟩, events, hadds, hevents.fail, nofun⟩

/-- Every render carries out what its project plans. -/
theorem runsPlan_render (settings : OutputSettings α) :
    RunsPlan project (studio.render project media destination settings options) := by
  have hP := bearing (α := α)
  refine .bind_before (leaves_reach hP _) fun _ ↦ .bind_before (.ofExcept hP.toAdditive _) fun _ ↦
    .bind_before (leaves_reach hP _) fun _ ↦ .bind_before (.perform hP.toAdditive _) fun canvas ↦
      .bind_before (leaves_reach hP _) fun _ ↦ ?_
  intro p r q h
  obtain ⟨events, hadds, hevents⟩ := leaves_inFreshDir (fun _ ↦ .stopped)
    (course_renderPlanned project media (.ofProject project canvas) destination options) p r q h
  refine ⟨canvas, events, hadds, hevents, ?_⟩
  rintro report rfl
  obtain ⟨dir, t, u, -, hplanned, -⟩ := ends_inFreshDir h
  exact (ends_renderPlanned hplanned).1

/-- Every render handles failures, whatever the engine, the storage and the workspace answer. -/
theorem handlesFailures_of_ends_render {settings : OutputSettings α}
    {r : Except Failure (RenderReport α)}
    (h : (studio.render project media destination settings options).Ends p r q) :
    ∃ canvas events, p.Adds events q ∧
      (Composition.ofProject project canvas).HandlesFailures (failureOf r) events ∧
      ∀ report, r = .ok report → report.canvas = canvas := by
  obtain ⟨canvas, events, hadds, hevents, hcanvas⟩ := runsPlan_render settings p r q h
  exact ⟨canvas, events, hadds, hevents.handlesFailures, hcanvas⟩

/-- With an engine that refuses wipes, the sample is rendered in the fallback style. -/
theorem handlesFailures_sample : ∃ report q,
    (Sample.studio.render (Sample.project : Project Exact) Sample.media ⟨"out.mp4"⟩ {} {}).Ends
      ⟨{}, ()⟩ (.ok report) q ∧
    ∃ canvas events, Situation.Adds ⟨{}, ()⟩ events q ∧
      (Composition.ofProject Sample.project canvas).HandlesFailures none events ∧
      ∀ report', Except.ok (ε := Failure) report = .ok report' → report'.canvas = canvas := by
  obtain ⟨report, q, h⟩ := Sample.exists_ends_render
  exact ⟨report, q, h, handlesFailures_of_ends_render h⟩

end Studio

end Splice
