import Splice.Proofs.Render.Success
import Splice.Proofs.Render.Tasks

/-!
# The work of a render

The jobs of a render in which no job fails are the work that the composition asks for, and nothing
else (`Composition.Performs`). They are those of the entries, then those of the merges, then those
of the overlays and the sounds (`Studio.does_of_ends_assemble`); before the first of them and after
the last one only stages and the result get into the journal.
-/

namespace Splice

variable {α σ : Type}

/-! ### Work -/

/-- Every path takes one merge. -/
theorem Merged.length_eq {path last : Path} {paths : List Path} {jobs : List (Job α)}
    (h : Merged path paths jobs last) : jobs.length = paths.length := by
  induction h with
  | nil => rfl
  | cons _ _ _ ih => rw [List.length_cons, List.length_cons, ih]

/-- The jobs of a render do the work of a composition, and nothing else. -/
structure Composition.Performs [Scalar α] (c : Composition α) (media : Manifest) (total : α)
    (jobs : List (Job α)) (skipped : List SkippedAudio) : Prop where
  /-- There is one job for every task, in the order of the tasks. -/
  tasks : List.Forall₂ (Task.DoneBy total) (c.tasks media) jobs
  /-- The first jobs render the entries; those after them merge the files of the entries, in the
  order of the entries, each with all that is merged so far. -/
  merges : ∃ first rest merges others base, jobs = (first :: rest) ++ (merges ++ others) ∧
    (first :: rest).length = c.entries.length ∧ merges.length = c.entries.length - 1 ∧
    Merged first.output (rest.map Job.output) merges base
  /-- The sounds that are left out are those whose source is a video, in the order of starts. -/
  skipped : skipped = c.layers.audio.filterMap (Clip.leftOut? media)

/-- The work of a render from that of its parts: the entries, the merges of their pieces, and the
overlays and sounds. -/
theorem Composition.performs_append [Scalar α] {c : Composition α} {media : Manifest} {total : α}
    {first : Piece α} {rest : List (Piece α)} {base : Path} {entries merges others : List (Job α)}
    (hlabels : (first :: rest).map Piece.clip? = c.entries.map Entry.label)
    (hentries : List.Forall₂ (Task.DoneBy total) (c.entries.map Entry.task) entries)
    (houtputs : entries.map Job.output = (first :: rest).map (·.rendered.path))
    (hmerges : List.Forall₂ (Task.DoneBy total)
      ((Seam.all c.blendAfter? ((first :: rest).map Piece.clip?)).map Task.merge) merges)
    (hmerged : Merged first.rendered.path (rest.map (·.rendered.path)) merges base)
    (hothers : List.Forall₂ (Task.DoneBy total) (c.layers.overlays.flatMap Clip.paintTasks ++
      c.layers.audio.flatMap (Clip.soundTasks media)) others) :
    c.Performs media total (entries ++ (merges ++ others))
      (c.layers.audio.filterMap (Clip.leftOut? media)) where
  tasks := by
    rw [hlabels] at hmerges
    exact List.rel_append hentries (List.rel_append hmerges hothers)
  merges := by
    -- the jobs of the entries are as many as the pieces, and the first piece is what is merged onto
    rcases entries with - | ⟨job, jobs⟩
    · cases houtputs
    · rw [List.map_cons, List.map_cons, List.cons.injEq] at houtputs
      obtain ⟨hfirst, hrest⟩ := houtputs
      have hlength := hentries.length_eq
      rw [List.length_map] at hlength
      rw [← hfirst, ← hrest] at hmerged
      refine ⟨job, jobs, merges, others, base, rfl, hlength.symm, ?_, hmerged⟩
      rw [hmerged.length_eq, List.length_map, hlength, List.length_cons, Nat.add_sub_cancel]
  skipped := rfl

/-! ### Renders -/

namespace Studio

variable [Scalar α] {studio : Studio (StateM σ) α} {p q : Situation α σ} {project : Project α}
  {media : Manifest}

/-- The jobs of an assembly, part after part. -/
theorem does_of_ends_assemble [LawfulScalar α] {session : Session (StateM σ) α}
    {c : Composition α} {file : RenderedFile α}
    (h : (studio.assemble session c).Ends p (.ok file) q) :
    p.Does (fun jobs ↦ c.Performs session.media file.duration jobs
      (c.layers.audio.filterMap (Clip.leftOut? session.media)))
      (c.layers.audio.filterMap (Clip.leftOut? session.media)) q := by
  obtain ⟨pieces, base, painted, p₁, p₂, p₃, p₄, p₅, p₆, p₇, hreach₁, hentries, hreach₂, hmerge,
    hreach₃, hoverlays, hreach₄, hsounds⟩ := ends_assemble h
  obtain ⟨_, hrun, -⟩ := Session.ends_renderEntries hentries
  have hlabels := hrun.labels_eq
  have hrendered := Session.does_renderEntries file.duration hentries
  obtain ⟨first, rest, rfl, hmerged⟩ := Session.does_mergePieces file.duration hmerge
  obtain ⟨hpainted, hpaints⟩ := Session.carries_addOverlays hoverlays
  obtain ⟨hfile, hmixed⟩ := Session.carries_addSounds hsounds
  -- all lengths are compared with that of the result, which the mixes are told
  have htotal : base.duration = file.duration := (hfile.trans hpainted).symm
  rw [hpainted, htotal] at hmixed
  rw [htotal] at hpaints
  have hreach {stage : Stage} {t u : Situation α σ} (h : t.Adds [.reached stage] u) : t.Idles u :=
    ⟨_, h, List.forall_mem_singleton.2 ⟨rfl, rfl⟩⟩
  have hdecorated : p₄.Does (List.Forall₂ (Task.DoneBy file.duration)
      (c.layers.overlays.flatMap Clip.paintTasks ++
        c.layers.audio.flatMap (Clip.soundTasks session.media)))
      (c.layers.audio.filterMap (Clip.leftOut? session.media)) q :=
    (hpaints.surround (hreach hreach₃) (hreach hreach₄)).trans hmixed
      fun _ _ hx hy ↦ List.rel_append hx hy
  refine (hrendered.surround (hreach hreach₁) (hreach hreach₂)).trans
    (hmerged.append hdecorated) ?_
  rintro entries _ ⟨hentries, houtputs⟩ ⟨merges, others, rfl, ⟨hmerges, hmerged⟩, hothers⟩
  exact Composition.performs_append hlabels hentries houtputs hmerges hmerged hothers

variable [LawfulScalar α]

/-- After the assembly no job is done, and the report says how long the result is. -/
theorem does_of_ends_renderPlanned {c : Composition α} {destination workdir : Path}
    {options : RenderOptions} {report : RenderReport α}
    (h : (studio.renderPlanned project media c destination options workdir).Ends p (.ok report) q) :
    p.Does (fun jobs ↦ c.Performs media report.duration jobs
      (c.layers.audio.filterMap (Clip.leftOut? media)))
      (c.layers.audio.filterMap (Clip.leftOut? media)) q := by
  obtain ⟨-, rendered, t, hassemble, hduration, hfinished⟩ := ends_renderPlanned h
  rw [hduration]
  exact (does_of_ends_assemble hassemble).surround (Situation.Adds.refl p).idles
    ⟨_, hfinished, by simp [Event.job?, Event.leftOut?]⟩

/-- In a successful render in which no job fails, the jobs do the work of the composition. -/
theorem performs_of_ends_render {destination : Path} {settings : OutputSettings α}
    {options : RenderOptions} {report : RenderReport α}
    (h : (studio.render project media destination settings options).Ends p (.ok report) q) :
    ∃ events, p.Adds events q ∧ ((∀ e ∈ events, e.isFailure = false) →
      (Composition.ofProject project report.canvas).Performs media report.duration
        (events.filterMap Event.job?) (events.filterMap Event.leftOut?)) := by
  obtain ⟨workdir, t, u, hprepared, hplanned, hclosed⟩ := ends_render h
  have hidle : p.Idles t := ⟨_, hprepared, by simp [Event.job?, Event.leftOut?]⟩
  obtain ⟨events, hadds, hdone⟩ :=
    (does_of_ends_renderPlanned hplanned).surround hidle hclosed.idles
  refine ⟨events, hadds, fun hclean ↦ ?_⟩
  obtain ⟨hjobs, hskipped⟩ := hdone hclean
  rw [hskipped]
  exact hjobs

end Studio

/-- A studio whose engine does every job. -/
def Sample.willing [Scalar α] : Studio (StateM Unit) α :=
  let studio : Studio (StateM Unit) α := studio
  { studio with engine := { studio.engine with run := fun _ ↦ pure (.ok ()) } }

/-- The sample is rendered without a failure: five entries, four merges, one of them a wipe, a
demoted video, a text and a sound. -/
theorem Studio.performs_sample : ∃ report q,
    (Sample.willing.render (Sample.project : Project Exact) Sample.media ⟨"out.mp4"⟩ {} {}).Ends
      ⟨{}, ()⟩ (.ok report) q ∧ (∀ e ∈ q.journal.events, e.isFailure = false) ∧
    (Composition.ofProject Sample.project report.canvas).Performs Sample.media report.duration
      (q.journal.events.filterMap Event.job?) (q.journal.events.filterMap Event.leftOut?) := by
  have hclean : ∃ report q,
      (Sample.willing.render (Sample.project : Project Exact) Sample.media ⟨"out.mp4"⟩ {} {}).Ends
        ⟨{}, ()⟩ (.ok report) q ∧ ∀ e ∈ q.journal.events, e.isFailure = false := by
    have hcanvas : ((Sample.willing.canvas (Sample.project : Project Exact) Sample.media {}).run
        ()).1 = .ok Sample.canvas := by
      cbv
    refine RenderT.exists_ends_and ?_ ?_
    · rw [Sample.outcome_render hcanvas]
      decide +kernel
    · rw [Sample.outcome_render hcanvas]
      decide +kernel
  obtain ⟨report, q, hends, hclean⟩ := hclean
  obtain ⟨events, hadds, hperforms⟩ := performs_of_ends_render hends
  obtain rfl : q.journal.events = events := hadds
  exact ⟨report, q, hends, hclean, hperforms hclean⟩

end Splice
