import Splice.Proofs.Render.Progress
import Splice.Proofs.Render.Tasks
import Splice.Proofs.Render.Traces

/-!
# Renders in different places

A render does not depend on where it runs. Two renders of one project, with working directories,
destinations and reports of their own, get the same answers if what is stored is read alike, and if
a file in one directory stands for the file of the same name in the other (`Likeness.moved`). Then
they give alike jobs to their engines, get equally far, and leave one and the same trace
(`Studio.endsAlike_of_ends_render`).

All of this is `Likeness.Studios.follows_render`, at the relation of two ends that the renders are
to keep.
-/

namespace Splice

variable {α σ τ : Type}

/-- Whether two failures are of one kind, whatever they say. -/
def Failure.SameKind (e e' : Failure) : Prop := e.ctorIdx = e'.ctorIdx

/-- Failures of one kind are told apart from those of the engine alike. -/
theorem Failure.SameKind.isEngine_eq {e e' : Failure} (h : e.SameKind e') :
    e.isEngine = e'.isEngine := by
  cases e <;> cases e' <;> first
    | rfl
    | cases h

/-- Files of the same name in two directories. -/
def Path.Corresponds (dir dir' p q : Path) : Prop :=
  ∃ name, (Path.mk name).isAbsolute = false ∧ p = dir.join name ∧ q = dir'.join name

/-- The likeness of two worlds, where a stored file stands for itself, and a file in one directory
stands for the one of the same name in the other. No result is published. -/
def Likeness.moved (World : σ → τ → Prop) (Stored : Path → Prop) (dir dir' : Path) :
    Likeness σ τ where
  World
  Read p q := (Stored p ∧ p = q) ∨ Path.Corresponds dir dir' p q
  Written := Path.Corresponds dir dir'
  Failed := Failure.SameKind
  Answered := Failure.SameKind
  Reached stage := stage ≠ .finalizing
  read_of_written := .inr
  failed_of_ne _ _ := rfl
  isEngine_eq := Failure.SameKind.isEngine_eq

/-- What two renders in different places have in common. -/
structure EndsAlike (L : Likeness σ τ) (options options' : RenderOptions)
    (x : Except Failure (RenderReport α) × Situation α σ)
    (y : Except Failure (RenderReport α) × Situation α τ) : Prop where
  /-- Their jobs are the same but for the directories in their paths. -/
  jobs : List.Forall₂ L.Jobs x.2.journal.jobs y.2.journal.jobs
  /-- Both publish a result, or both fail before that, with failures of one kind. -/
  stages : (.finalizing ∈ x.2.journal.stages ∧ .finalizing ∈ y.2.journal.stages) ∨
    .finalizing ∉ x.2.journal.stages ∧ .finalizing ∉ y.2.journal.stages ∧
      ∃ e e', x.1 = .error e ∧ y.1 = .error e' ∧ e.SameKind e'
  /-- If both succeed and leave a trace, it is the same trace. -/
  traces : options.trace = true → options'.trace = true → ∀ report report', x.1 = .ok report →
    y.1 = .ok report' → ∃ trace, report.trace? = some (traceFile report.output, trace) ∧
      report'.trace? = some (traceFile report'.output, trace)

namespace Likeness

variable {World : σ → τ → Prop} {Stored : Path → Prop} {dir dir' : Path}

section Events

variable {L : Likeness σ τ} {a b : List (Event α)} (h : List.Forall₂ L.Events a b)

include h

/-- Alike events give alike jobs to the engines. -/
theorem forall₂_jobs : List.Forall₂ L.Jobs (a.filterMap Event.job?) (b.filterMap Event.job?) := by
  induction h with
  | nil => exact .nil
  | cons hevent _ ih =>
    cases hevent with
    | ran hjob => exact .cons hjob ih
    | reached | drew | merged | skipped | published => exact ih

/-- They log the same steps. -/
theorem steps_eq : a.filterMap Event.step? = b.filterMap Event.step? := by
  induction h with
  | nil => rfl
  | cons hevent _ ih =>
    cases hevent with
    | merged step => exact congrArg (step :: ·) ih
    | reached | ran | drew | skipped | published => exact ih

/-- They leave out the same sounds. -/
theorem leftOut_eq : a.filterMap Event.leftOut? = b.filterMap Event.leftOut? := by
  induction h with
  | nil => rfl
  | cons hevent _ ih =>
    cases hevent with
    | skipped audio => exact congrArg (audio :: ·) ih
    | reached | ran | drew | merged | published => exact ih

/-- They reach the same stages, and only such as the likeness lets be reached. -/
theorem stages_eq : a.filterMap Event.stage? = b.filterMap Event.stage? ∧
    ∀ stage ∈ a.filterMap Event.stage?, L.Reached stage := by
  induction h with
  | nil => exact ⟨rfl, List.forall_mem_nil _⟩
  | cons hevent _ ih =>
    cases hevent with
    | @reached stage hstage =>
      exact ⟨congrArg (stage :: ·) ih.1, List.forall_mem_cons.2 ⟨hstage, ih.2⟩⟩
    | ran | drew | merged | skipped | published => exact ih

end Events

end Likeness

namespace Studio

variable [Scalar α]

variable {World : σ → τ → Prop} {Stored : Path → Prop} {dir dir' : Path}
  {a : Studio (StateM σ) α} {b : Studio (StateM τ) α} {project : Project α} {media : Manifest}
  {destination destination' : Path} {settings : OutputSettings α}
  {options options' : RenderOptions}

/-- Renders that came alike to the delivery end alike, whatever either of them comes to there. -/
theorem endsAlike_of_deliver {w : σ} {v : τ} {canvas : Canvas α} {file file' : RenderedFile α}
    (hfile : (Likeness.moved World Stored dir dir').Files file file') :
    (Likeness.moved World Stored dir dir').Follows
      (EndsAlike (α := α) (.moved World Stored dir dir') options options') ⟨{}, w⟩ ⟨{}, v⟩
      (a.deliver project (.ofProject project canvas) destination options file)
      (b.deliver project (.ofProject project canvas) destination' options' file') := by
  intro events events' p q hgoes
  set c := Composition.ofProject project canvas
  set x := a.deliver project c destination options file
  set y := b.deliver project c destination' options' file'
  obtain ⟨last, hadds, hstage, hnojob⟩ :=
    leaves_deliver project c destination options file p (x.outcome p).1 (x.outcome p).2 rfl
  obtain ⟨last', hadds', hstage', hnojob'⟩ :=
    leaves_deliver project c destination' options' file' q (y.outcome q).1 (y.outcome q).2 rfl
  refine ⟨?_, .inl ⟨?_, ?_⟩, fun htrace htrace' report report' hreport hreport' ↦ ?_⟩
  · rw [hadds.jobs_eq, hadds'.jobs_eq, hnojob, hnojob', List.append_nil, List.append_nil,
      hgoes.left.jobs_eq, hgoes.right.jobs_eq]
    exact Likeness.forall₂_jobs hgoes.events
  · rw [hadds.stages_eq]
    exact List.mem_append_right _ hstage
  · rw [hadds'.stages_eq]
    exact List.mem_append_right _ hstage'
  · -- a trace shows of the journals only what they have in common
    have hends := trace?_of_ends_deliver htrace
      (show x.Ends p (.ok report) (x.outcome p).2 from Prod.ext hreport rfl)
    have hends' := trace?_of_ends_deliver htrace'
      (show y.Ends q (.ok report') (y.outcome q).2 from Prod.ext hreport' rfl)
    refine ⟨_, hends, hends'.trans ?_⟩
    rw [Trace.of, Trace.of, hfile.duration_eq, hgoes.left.steps_eq, hgoes.right.steps_eq,
      Likeness.steps_eq hgoes.events, hgoes.left.skippedAudio_eq, hgoes.right.skippedAudio_eq,
      Likeness.leftOut_eq hgoes.events]

/-- Renders in different places end alike. -/
theorem endsAlike_of_ends_render (h : (Likeness.moved World Stored dir dir').Studios a b)
    (hopen : ∀ w v, World w v →
      ((a.workspace.openDir options.tempRoot?).run w).1 = .ok dir ∧
      ((b.workspace.openDir options'.tempRoot?).run v).1 = .ok dir' ∧
      World ((a.workspace.openDir options.tempRoot?).run w).2
        ((b.workspace.openDir options'.tempRoot?).run v).2)
    {w : σ} {v : τ} (hworld : World w v) {r r' : Except Failure (RenderReport α)}
    {p : Situation α σ} {q : Situation α τ}
    (hx : (a.render project media destination settings options).Ends ⟨{}, w⟩ r p)
    (hy : (b.render project media destination' settings options').Ends ⟨{}, v⟩ r' q) :
    EndsAlike (.moved World Stored dir dir') options options' (r, p) (r', q) := by
  have hstart : (Likeness.moved World Stored dir dir').Situations (⟨{}, w⟩ : Situation α σ)
      (⟨{}, v⟩ : Situation α τ) := ⟨rfl, hworld⟩
  rw [← show _ = (r, p) from hx, ← show _ = (r', q) from hy]
  refine h.follows_render (fun stage hstage ↦ ?_) (fun _ _ ↦ id) (fun _ _ ↦ rfl) ?_ ?_ ?_
    (fun _ _ _ ↦ endsAlike_of_deliver) _ _ _ _ (.refl hstart)
  · rintro rfl
    exact absurd hstage (by decide)
  · intro w v hwv
    obtain ⟨hdir, hdir', hkept⟩ := hopen w v hwv
    rw [hdir, hdir']
    exact ⟨.ok fun _ _ _ ↦ ⟨_, isAbsolute_freshName _ _ _, rfl, rfl⟩, hkept⟩
  -- a failure that was not delivered: both runs have reached the same stages, and the last one is
  -- not among them
  · intro e e' events events' p q hgoes hfails
    obtain ⟨hstages, hreached⟩ := Likeness.stages_eq hgoes.events
    have hleft : p.journal.stages = events.filterMap Event.stage? := hgoes.left.stages_eq
    have hright : q.journal.stages = events'.filterMap Event.stage? := hgoes.right.stages_eq
    have hfinalizing : .finalizing ∉ p.journal.stages := fun hmem ↦
      hreached _ (hleft ▸ hmem) rfl
    refine ⟨?_, .inr ⟨hfinalizing, ?_, e, e', rfl, rfl, ?_⟩, fun _ _ _ _ h ↦ nomatch h⟩
    · rw [hgoes.left.jobs_eq, hgoes.right.jobs_eq]
      exact Likeness.forall₂_jobs hgoes.events
    · rwa [hright, ← hstages, ← hleft]
    · cases hfails with
      | plain hkind | job hkind => exact hkind
  · intro _ _ _ _ _ _ _ h
    exact ⟨h.jobs, h.stages, h.traces⟩

end Studio

/-! ### The sample in two places -/

namespace Sample

variable [Scalar α]

/-- A studio in one directory is like the same studio in another one. -/
theorem studios_studioIn {refuses : Job α → Bool}
    (hrefuses : ∀ job, refuses job.pathless = refuses job) (dir dir' : Path) (step step' : ℕ) :
    (Likeness.moved (fun w v ↦ List.Forall₂ (Path.Corresponds dir dir') w.1 v.1) (fun _ ↦ True) dir
      dir').Studios (studioIn refuses dir step) (studioIn refuses dir' step') where
  run {i j} hij := by
    have hsame : refuses i = refuses j := by rw [← hrefuses, hij.pathless_eq, hrefuses]
    rintro ⟨files, reports⟩ ⟨files', reports'⟩ hfiles
    show ResultsAlike _ _ (ite _ _ _ : Except Failure Unit × List Path × ℕ).1
      (ite _ _ _ : Except Failure Unit × List Path × ℕ).1 ∧ List.Forall₂ _
      (ite _ _ _ : Except Failure Unit × List Path × ℕ).2.1
      (ite _ _ _ : Except Failure Unit × List Path × ℕ).2.1
    rw [hsame]
    split_ifs
    · exact ⟨.error rfl, hfiles⟩
    · exact ⟨.ok rfl, .cons hij.output hfiles⟩
  probe _ := .pure rfl
  resolve _ := .pure (.ok (.inl ⟨trivial, rfl⟩))
  draw _ hpath := fun _ _ hfiles ↦ ⟨.ok rfl, .cons hpath hfiles⟩
  report _ := fun _ _ hfiles ↦ ⟨trivial, hfiles⟩

/-- The sample is rendered here, and there with more reports. Both renders leave the same trace. -/
theorem endsAlike_sample : ∃ report report' q q' trace,
    ((studioIn isWipe ⟨"here"⟩ 0).render (project : Project Exact) media ⟨"out.mp4"⟩ {}
      { trace := true }).Ends ⟨{}, [], 0⟩ (.ok report) q ∧
    ((studioIn isWipe ⟨"there"⟩ 1).render (project : Project Exact) media ⟨"result.mp4"⟩ {}
      { trace := true }).Ends ⟨{}, [], 0⟩ (.ok report') q' ∧
    report.trace? = some (traceFile report.output, trace) ∧
    report'.trace? = some (traceFile report'.output, trace) := by
  have hhere : ∃ report q, ((studioIn isWipe ⟨"here"⟩ 0).render (project : Project Exact) media
      ⟨"out.mp4"⟩ {} { trace := true }).Ends ⟨{}, [], 0⟩ (.ok report) q :=
    RenderT.exists_ends (by rw [outcome_render (by cbv)]; decide +kernel)
  have hthere : ∃ report q, ((studioIn isWipe ⟨"there"⟩ 1).render (project : Project Exact) media
      ⟨"result.mp4"⟩ {} { trace := true }).Ends ⟨{}, [], 0⟩ (.ok report) q :=
    RenderT.exists_ends (by rw [outcome_render (by cbv)]; decide +kernel)
  have hwipe (job : Job Exact) : isWipe job.pathless = isWipe job := by cases job <;> rfl
  obtain ⟨report, q, h⟩ := hhere
  obtain ⟨report', q', h'⟩ := hthere
  obtain ⟨trace, htrace, htrace'⟩ := (Studio.endsAlike_of_ends_render
    (studios_studioIn hwipe ⟨"here"⟩ ⟨"there"⟩ 0 1) (fun _ _ hfiles ↦ ⟨rfl, rfl, hfiles⟩) .nil h
      h').traces rfl rfl report report' rfl rfl
  exact ⟨report, report', q, q', trace, h, h', htrace, htrace'⟩

end Sample

end Splice
