import Splice.Proofs.Plan.PaintOrder
import Splice.Proofs.Render.BlendedEdges
import Splice.Proofs.Render.Traces

/-!
# Fades at the edges

A clip of the base fades in and out, except at an edge where it is blended with its neighbour, and
an overlay fades at both ends (`Composition.FadesAtCuts`). The fades are settled when a clip is
rendered, from the decisions; whether a cut is blended shows only in the merges that come after.
That these agree is the theory of blended edges, so what is left is to follow the jobs of a
successful render: `Situation.Finishes` gives the ones that were done, whatever failed in between,
and one induction each goes along the entries, the merges and the overlays.
-/

namespace Splice

variable {α σ : Type}

/-! ### Fades -/

/-- The fades of a clip in a segment whose edges blend as given. -/
structure Fades.FitEdges [Scalar α] (fades : Fades α) (effects : Effects α)
    (blended : BlendedEdges) : Prop where
  blendsIn : blended.incoming = true → fades.videoIn = 0.0 ∧ fades.audioIn = 0.0
  fadesIn : blended.incoming = false →
    fades.videoIn = effects.fadeIn ∧ fades.audioIn = effects.audioFadeIn
  blendsOut : blended.outgoing = true → fades.videoOut = 0.0 ∧ fades.audioOut = 0.0
  fadesOut : blended.outgoing = false →
    fades.videoOut = effects.fadeOut ∧ fades.audioOut = effects.audioFadeOut

/-- The fades that a session gives a clip fit its edges: a blended edge has none, another keeps the
clip's own. -/
theorem Session.fitEdges_fadesOf [Scalar α] (effects : Effects α) (blended : BlendedEdges) :
    (fadesOf effects blended).FitEdges effects blended where
  blendsIn h := by simp [fadesOf, h]
  fadesIn h := by simp [fadesOf, h]
  blendsOut h := by simp [fadesOf, h]
  fadesOut h := by simp [fadesOf, h]

/-- The edges of the entry at a place that blend, where steps merge the entries. -/
def MergeStep.blendsAt (steps : List (MergeStep α)) (place : ℕ) : BlendedEdges :=
  .around (fun before ↦ steps[before]?.any isTransition) place

/-! ### Jobs that were done -/

/-- The job that was done. -/
def Event.done? : Event α → Option (Job α)
  | .ran job none => some job
  | _ => none

/-- The segment that a job renders. -/
def Job.segment? : Job α → Option (Job.Segment α)
  | .segment job => some job
  | _ => none

/-- The job that renders an entry. The fades of a clip are those of the plan. -/
def Entry.CutBy [Scalar α] (c : Composition α) (entry : Entry α) (job : Job α) : Prop :=
  ∀ index clip, entry = .clip index clip → ∃ segment, job = .segment segment ∧ job.Serves clip ∧
    segment.fades = Session.fadesOf clip.effects (c.blendedEdges index)

/-- Whether a job blends two files. -/
def Job.isTransition : Job α → Bool
  | .transition _ => true
  | _ => false

/-- A segment that is rendered for an overlay. It keeps all fades of the clip. -/
def Clip.InsetBy [Scalar α] (clip : Clip α) (segment : Job.Segment α) : Prop :=
  (Job.segment segment).Serves clip ∧ segment.fades =
    { videoIn := clip.effects.fadeIn
      videoOut := clip.effects.fadeOut
      audioIn := clip.effects.audioFadeIn
      audioOut := clip.effects.audioFadeOut }

/-- How a render cuts and joins the base, and which segments it paints over it: the jobs for the
entries, the jobs and the steps of the merges, and the segments among all jobs that follow. -/
structure Composition.FadesAtCuts [Scalar α] (c : Composition α) (cuts merges : List (Job α))
    (steps : List (MergeStep α)) (insets : List (Job.Segment α)) : Prop where
  /-- There is one job for every entry. -/
  length_eq : cuts.length = c.entries.length
  /-- The merges join the files of the entries in their order. -/
  merged : ∃ first rest base, cuts = first :: rest ∧
    Merged first.output (rest.map Job.output) merges base
  /-- Every merge has a step, and both are by a transition or both are not. -/
  kinds : merges.map Job.isTransition = steps.map MergeStep.isTransition
  /-- A clip of the base fades where no transition joins it to its neighbour. -/
  base : ∀ i clip, c.layers.base[i]? = some clip → ∃ place segment,
    c.entries[place]? = some (.clip i clip) ∧ cuts[place]? = some (.segment segment) ∧
    (Job.segment segment).Serves clip ∧
    segment.fades.FitEdges clip.effects (MergeStep.blendsAt steps place)
  /-- There is one more segment for every video among the overlays, with all its fades. -/
  overlays : List.Forall₂ Clip.InsetBy (c.layers.overlays.filter Clip.isVideo) insets
  /-- The videos that were demoted from the base are among these overlays. -/
  demoted : ∀ demotion ∈ c.layers.demotions,
    ∃ clip ∈ c.layers.overlays.filter Clip.isVideo, clip.id = demotion.clipId

/-- The events of a render in which the fades fit the cuts. -/
def Composition.FadesIn [Scalar α] (c : Composition α) (events : List (Event α)) : Prop :=
  ∃ cuts merges others steps,
    events.filterMap Event.done? = cuts ++ (merges ++ others) ∧
    events.filterMap Event.step? = c.entries.map Entry.step ++ steps ∧
    c.FadesAtCuts cuts merges steps (others.filterMap Job.segment?)

/-- Events that do no job and take no step, before and after, leave the fades fitting. -/
theorem Composition.FadesIn.surround [Scalar α] {c : Composition α}
    {before events after : List (Event α)} (h : c.FadesIn events)
    (hbefore : ∀ e ∈ before, e.done? = none ∧ e.step? = none)
    (hafter : ∀ e ∈ after, e.done? = none ∧ e.step? = none) :
    c.FadesIn (before ++ events ++ after) := by
  obtain ⟨cuts, merges, others, steps, hdone, hsteps, hfades⟩ := h
  refine ⟨cuts, merges, others, steps, ?_, ?_, hfades⟩
  · rw [List.filterMap_append, List.filterMap_append,
      List.filterMap_eq_nil_iff.2 fun e he ↦ (hbefore e he).1,
      List.filterMap_eq_nil_iff.2 fun e he ↦ (hafter e he).1, List.append_nil]
    exact hdone
  · rw [List.filterMap_append, List.filterMap_append,
      List.filterMap_eq_nil_iff.2 fun e he ↦ (hbefore e he).2,
      List.filterMap_eq_nil_iff.2 fun e he ↦ (hafter e he).2, List.append_nil]
    exact hsteps

namespace Situation

variable {p q r : Situation α σ}

/-- The jobs are those that were done, whether others failed or not. -/
def Finishes (p : Situation α σ) (jobs : List (Job α)) (q : Situation α σ) : Prop :=
  ∃ events, p.Adds events q ∧ events.filterMap Event.done? = jobs

/-- The jobs done one stretch after the other are those of both stretches. -/
theorem Finishes.trans {a b : List (Job α)} (h : p.Finishes a q) (h' : q.Finishes b r) :
    p.Finishes (a ++ b) r := by
  obtain ⟨first, hfirst, rfl⟩ := h
  obtain ⟨rest, hrest, rfl⟩ := h'
  exact ⟨first ++ rest, hfirst.trans hrest, List.filterMap_append⟩

/-- The segments are those among the jobs that were done. -/
def Insets (p : Situation α σ) (segments : List (Job.Segment α)) (q : Situation α σ) : Prop :=
  ∃ jobs, p.Finishes jobs q ∧ jobs.filterMap Job.segment? = segments

theorem Insets.trans {a b : List (Job.Segment α)} (h : p.Insets a q) (h' : q.Insets b r) :
    p.Insets (a ++ b) r := by
  obtain ⟨first, hfirst, rfl⟩ := h
  obtain ⟨rest, hrest, rfl⟩ := h'
  exact ⟨first ++ rest, hfirst.trans hrest, List.filterMap_append⟩

/-- The segments of a run are among the jobs that its own events say were done. -/
theorem Adds.insets {events : List (Event α)} (h : p.Adds events q) :
    p.Insets ((events.filterMap Event.done?).filterMap Job.segment?) q :=
  ⟨_, ⟨events, h, rfl⟩, rfl⟩

end Situation

namespace Session

open RenderT (ends_bind_ok ends_pure not_ends_throw)

variable {s : Session (StateM σ) α} {p q : Situation α σ} {base file left right : RenderedFile α}

/-! ### Entries -/

section Entries

variable [Scalar α]

/-- A segment that is made is one job, with the fades that its blended edges leave it. -/
theorem finishes_makeSegment {clip : Clip α} {media : MediaClip α} {path : Path}
    {blended : BlendedEdges} (hcontent : clip.content = .video media)
    (h : (s.makeSegment clip media path blended).Ends p (.ok file) q) :
    ∃ job : Job.Segment α, ((Job.segment job).Serves clip ∧
      job.fades = fadesOf clip.effects blended) ∧ job.output = file.path ∧
      p.Adds [.ran (.segment job) none] q := by
  obtain ⟨-, job, hplays, houtput, hadds⟩ := ends_makeSegment h
  have hfades : job.fades = fadesOf clip.effects blended := by
    rw [Clip.effects, hcontent]
    exact hplays.fades_eq
  exact ⟨job, ⟨hplays.serves hcontent, hfades⟩, houtput, hadds⟩

/-- An entry takes one job that is done, and its piece is what that job wrote. -/
theorem finishes_renderEntry {c : Composition α} {entry : Entry α} {piece : Piece α}
    (h : (s.renderEntry c entry).Ends p (.ok piece) q) :
    ∃ job, entry.CutBy c job ∧ job.output = piece.rendered.path ∧ p.Finishes [job] q := by
  cases entryDone_of_ends_renderEntry h with
  | clip hcontent hsource hsegment hstep =>
    obtain ⟨job, hjob, houtput, hadds⟩ := finishes_makeSegment hcontent hsegment
    refine ⟨.segment job, ?_, houtput, _, (hsource.trans hadds).trans hstep, rfl⟩
    rintro _ _ ⟨⟩
    exact ⟨job, rfl, hjob⟩
  | filler hfiller hstep =>
    obtain ⟨-, job, -, houtput, hadds⟩ := ends_renderFiller hfiller
    refine ⟨.blank job, ?_, houtput, _, hadds.trans hstep, rfl⟩
    rintro _ _ ⟨⟩

/-- The entries take one job each, in their order. -/
theorem finishes_renderEntries {c : Composition α} {entries : List (Entry α)}
    {pieces : List (Piece α)} (h : (entries.mapM (s.renderEntry c)).Ends p (.ok pieces) q) :
    ∃ jobs, List.Forall₂ (Entry.CutBy c) entries jobs ∧
      jobs.map Job.output = pieces.map (·.rendered.path) ∧ p.Finishes jobs q := by
  induction entries generalizing p pieces with
  | nil =>
    obtain ⟨hpieces, rfl⟩ := ends_pure.1 h
    rw [Except.ok.inj hpieces]
    exact ⟨[], .nil, rfl, [], .refl _, rfl⟩
  | cons entry rest ih =>
    obtain ⟨piece, t, hentry, pieces, hrest, rfl⟩ := RenderT.ends_mapM_cons_ok.1 h
    obtain ⟨job, hjob, houtput, hfinish⟩ := finishes_renderEntry hentry
    obtain ⟨jobs, hjobs, houtputs, hfinishes⟩ := ih hrest
    exact ⟨job :: jobs, .cons hjob hjobs, congrArg₂ List.cons houtput houtputs,
      hfinish.trans hfinishes⟩

end Entries

/-! ### Merges -/

section Merges

variable [Scalar α]

/-- A merge is one job that is done, which blends if there is a seam. -/
def FinishesMerge (p : Situation α σ) (seam? : Option (Seam α)) (left right file : RenderedFile α)
    (q : Situation α σ) : Prop :=
  ∃ job : Job α, job.isTransition = seam?.isSome ∧ job.isMerge = true ∧
    job.inputs = [left.path, right.path] ∧ job.output = file.path ∧ p.Finishes [job] q

/-- A blend ends with one job that is done, in the requested style or in the fallback. -/
theorem finishes_mergeByTransition {seam : Seam α} {style : TransitionStyle} {duration : α}
    {fromId toId : String}
    (h : (s.mergeByTransition left right style duration fromId toId).Ends p (.ok file) q) :
    FinishesMerge p (some seam) left right file q := by
  obtain ⟨path, used, usedFallback, t, hdone, rfl, hstep⟩ := exists_of_ends_mergeByTransition h
  cases hdone with
  | first hjob hran =>
    obtain ⟨-, hinputs, hadds⟩ := eq_of_ends_blendJob hjob
    exact ⟨_, rfl, rfl, hinputs, rfl, _, (hadds.trans hran).trans hstep, rfl⟩
  | second hjob hfailed hsecond hran =>
    obtain ⟨-, -, hadds⟩ := eq_of_ends_blendJob hjob
    obtain ⟨-, hinputs, hadds'⟩ := eq_of_ends_blendJob hsecond
    exact ⟨_, rfl, rfl, hinputs, rfl, _,
      ((hadds.trans hfailed).trans (hadds'.trans hran)).trans hstep, rfl⟩

theorem finishes_mergeByConcat (h : (s.mergeByConcat left right).Ends p (.ok file) q) :
    FinishesMerge p none left right file q := by
  obtain ⟨job, hinputs, rfl, hadds⟩ := exists_of_ends_mergeByConcat h
  exact ⟨.concat job, rfl, rfl, hinputs, rfl, _, hadds, rfl⟩

/-- However a merge was made, it is one job that is done, and it blends exactly at a seam. -/
theorem MergeDone.finishes {seam? : Option (Seam α)} (h : MergeDone s left right p q file seam?) :
    FinishesMerge p seam? left right file q := by
  cases h with
  | transition h => exact finishes_mergeByTransition h
  | concat h => exact finishes_mergeByConcat h

/-- Merging pieces onto a file takes one job for each, which blends where the labels have a seam. -/
theorem finishes_mergeOnto {blendAfter? : ℕ → Option (TransitionStyle × α)}
    {last? : Option (ℕ × String)} {pieces : List (Piece α)}
    (h : (s.mergeOnto blendAfter? left last? pieces).Ends p (.ok file) q) :
    ∃ jobs : List (Job α), jobs.map Job.isTransition =
        (Seam.between blendAfter? last? (pieces.map Piece.clip?)).map Option.isSome ∧
      Merged left.path (pieces.map (·.rendered.path)) jobs file.path ∧ p.Finishes jobs q := by
  -- the label of the last piece goes along with the file, as it decides whether the next one blends
  induction pieces generalizing p left last? with
  | nil =>
    obtain ⟨hfile, rfl⟩ := ends_pure.1 h
    rw [Except.ok.inj hfile]
    exact ⟨[], rfl, .nil, [], .refl _, rfl⟩
  | cons next rest ih =>
    obtain ⟨merged, t, hmerge, hrest⟩ := exists_mergeDone_of_ends_mergeOnto h
    obtain ⟨job, hkind, hjob, hinputs, houtput, hfinish⟩ := hmerge.finishes
    obtain ⟨jobs, hkinds, hmerged, hfinishes⟩ := ih hrest
    exact ⟨job :: jobs, congrArg₂ List.cons hkind hkinds,
      .cons hjob hinputs (houtput ▸ hmerged), hfinish.trans hfinishes⟩

/-- The pieces of the base are merged from the first on, by the kinds of job that their labels ask
for. -/
theorem finishes_mergePieces {blendAfter? : ℕ → Option (TransitionStyle × α)}
    {pieces : List (Piece α)} (h : (s.mergePieces blendAfter? pieces).Ends p (.ok file) q) :
    ∃ (first : Piece α) (rest : List (Piece α)) (jobs : List (Job α)), pieces = first :: rest ∧
      jobs.map Job.isTransition =
        (Seam.all blendAfter? (pieces.map Piece.clip?)).map Option.isSome ∧
      Merged first.rendered.path (rest.map (·.rendered.path)) jobs file.path ∧
      p.Finishes jobs q := by
  cases pieces with
  | nil => exact absurd h not_ends_throw
  | cons first rest =>
    obtain ⟨jobs, hkinds, hmerged, hfinishes⟩ := finishes_mergeOnto h
    exact ⟨first, rest, jobs, rfl, hkinds, hmerged, hfinishes⟩

end Merges

/-! ### Overlays and sounds -/

section Decorations

variable [Scalar α]

/-- In a success no job failed. -/
def Clean (failure? : Option Failure) (events : List (Event α)) : Prop :=
  failure? = none → ∀ e ∈ events, e.isFailure = false

omit [Scalar α] in
theorem bearing_clean : RenderT.Bearing (Clean (α := α)) where
  nil _ _ := List.forall_mem_nil _
  append ha hb hnone := List.forall_mem_append.2 ⟨ha rfl, hb hnone⟩
  quiet _ _ hfailure _ := List.forall_mem_singleton.2 hfailure
  failed _ _ _ hnone := nomatch hnone

omit [Scalar α] in
/-- Where no job failed, the jobs that were done are all jobs. -/
theorem filterMap_done?_of_clean {events : List (Event α)}
    (h : ∀ e ∈ events, e.isFailure = false) :
    events.filterMap Event.done? = events.filterMap Event.job? := by
  refine List.filterMap_congr fun e he ↦ ?_
  have hfailure := h e he
  rcases e with _ | ⟨job, - | failure⟩ | _ | _ | _ | _
  case ran.some => cases hfailure
  all_goals rfl

/-- The jobs of tasks other than segments are no segments. -/
theorem filterMap_segment?_of_tasks {total : α} {tasks : List (Task α)} {jobs : List (Job α)}
    (h : List.Forall₂ (Task.DoneBy total) tasks jobs)
    (htasks : ∀ task ∈ tasks, task.operation ≠ "segment") : jobs.filterMap Job.segment? = [] := by
  induction h with
  | nil => rfl
  | cons hdone _ ih =>
    rw [List.forall_mem_cons] at htasks
    cases hdone with
    | segment => exact absurd rfl htasks.1
    | _ => exact ih htasks.2

omit [Scalar α] in
/-- A success in which no job fails does its tasks. -/
theorem exists_clean_of_does {β : Type} {x : RenderT α (StateM σ) β} {b : β}
    {P : List (Job α) → Prop} {skipped : List SkippedAudio} (hclean : x.Leaves Clean)
    (h : x.Ends p (.ok b) q) (hdoes : p.Does P skipped q) :
    ∃ events, p.Adds events q ∧ (∀ e ∈ events, e.isFailure = false) ∧
      P (events.filterMap Event.job?) := by
  obtain ⟨events, hadds, hdone⟩ := hdoes
  obtain ⟨events', hadds', hevents⟩ := hclean p _ q h
  obtain rfl : events = events' := List.append_cancel_left (hadds.symm.trans hadds')
  exact ⟨events, hadds, hevents rfl, (hdone (hevents rfl)).1⟩

/-- Tasks other than segments bring no segment along. -/
theorem insets_of_does {β : Type} {x : RenderT α (StateM σ) β} {b : β} {total : α}
    {tasks : List (Task α)} {skipped : List SkippedAudio} (hclean : x.Leaves Clean)
    (h : x.Ends p (.ok b) q) (hdoes : p.Does (List.Forall₂ (Task.DoneBy total) tasks) skipped q)
    (htasks : ∀ task ∈ tasks, task.operation ≠ "segment") : p.Insets [] q := by
  obtain ⟨events, hadds, hevents, hdone⟩ := exists_clean_of_does hclean h hdoes
  exact ⟨_, ⟨events, hadds, filterMap_done?_of_clean hevents⟩,
    filterMap_segment?_of_tasks hdone htasks⟩

/-- Trimming and mixing a sound renders no segment. -/
theorem operation_ne_of_mem_soundTasks {media : Manifest} {clip : Clip α}
    {task : Task α} (h : task ∈ clip.soundTasks media) : task.operation ≠ "segment" := by
  rw [Clip.soundTasks] at h
  split at h
  · split_ifs at h
    · rcases List.mem_pair.1 h with rfl | rfl <;> simp [Task.operation]
    · cases h
  · cases h

/-- Mixing sounds in brings no segment along. -/
theorem insets_addSounds [LawfulScalar α] {clips : List (Clip α)}
    (h : (s.addSounds base clips).Ends p (.ok file) q) : p.Insets [] q := by
  refine insets_of_does (leaves_addSounds bearing_clean base clips) h (carries_addSounds h).2 ?_
  intro task htask
  obtain ⟨clip, -, hmem⟩ := List.mem_flatMap.1 htask
  exact operation_ne_of_mem_soundTasks hmem

/-- A video over the base brings one segment along, with all fades of the clip. -/
theorem insets_paintVideo {clip : Clip α} {media : MediaClip α}
    (hcontent : clip.content = .video media)
    (h : (s.paintVideo base clip media).Ends p (.ok file) q) :
    ∃ segment, clip.InsetBy segment ∧ p.Insets [segment] q := by
  obtain ⟨input, t, hsource, h⟩ := ends_bind_ok.1 h
  obtain ⟨segment, u, hsegment, h⟩ := ends_bind_ok.1 h
  obtain ⟨job, v, hjob, h⟩ := ends_bind_ok.1 h
  obtain ⟨painted, w, hrun, h⟩ := ends_bind_ok.1 h
  obtain ⟨cut, hcut, -, hadds⟩ := finishes_makeSegment hcontent hsegment
  have hpainted : p.Insets [cut] w := (((adds_of_ends_source hsource).trans hadds).trans
    ((adds_of_ends_paintJob hjob).trans (ends_run hrun).2)).insets
  refine ⟨cut, hcut, ?_⟩
  dsimp only at h
  split_ifs at h
  · exact hpainted.trans (insets_of_does (leaves_mixSound bearing_clean _ _ _ _) h
      (carries_mixSound h).2 (by simp [Task.operation]))
  · obtain ⟨-, rfl⟩ := ends_pure.1 h
    exact hpainted

/-- A video brings one segment along, and nothing else does. -/
theorem insets_addOverlay {clip : Clip α} (h : (s.addOverlay base clip).Ends p (.ok file) q) :
    ∃ segments, List.Forall₂ Clip.InsetBy ([clip].filter Clip.isVideo) segments ∧
      p.Insets segments q := by
  cases hcontent : clip.content with
  | video media =>
    have hvideo : clip.isVideo = true := by rw [Clip.isVideo, Clip.video?, hcontent]; rfl
    rw [addOverlay, hcontent] at h
    obtain ⟨segment, hinset, hq⟩ := insets_paintVideo hcontent h
    rw [List.filter_singleton, hvideo]
    exact ⟨[segment], .cons hinset .nil, hq⟩
  | image _ | text _ | shape _ | audio _ =>
    have hvideo : clip.isVideo = false := by rw [Clip.isVideo, Clip.video?, hcontent]; rfl
    rw [List.filter_singleton, hvideo]
    refine ⟨[], .nil, insets_of_does (leaves_addOverlay bearing_clean base clip) h
      (carries_addOverlay h).2 ?_⟩
    rw [Clip.paintTasks, hcontent]
    simp [Task.operation]

/-- The overlays bring one segment along for each video among them, in their order. -/
theorem insets_addOverlays {clips : List (Clip α)}
    (h : (s.addOverlays base clips).Ends p (.ok file) q) :
    ∃ segments, List.Forall₂ Clip.InsetBy (clips.filter Clip.isVideo) segments ∧
      p.Insets segments q := by
  induction clips generalizing p base with
  | nil =>
    obtain ⟨-, rfl⟩ := ends_pure.1 h
    exact ⟨[], .nil, (Situation.Adds.refl _).insets⟩
  | cons clip rest ih =>
    rw [addOverlays, List.foldlM_cons] at h
    obtain ⟨middle, t, hclip, hrest⟩ := ends_bind_ok.1 h
    obtain ⟨first, hfirst, hinset⟩ := insets_addOverlay hclip
    obtain ⟨segments, hsegments, hinsets⟩ := ih hrest
    rw [← List.singleton_append, List.filter_append]
    exact ⟨first ++ segments, List.rel_append hfirst hsegments, hinset.trans hinsets⟩

end Decorations

end Session

/-! ### Cuts -/

section Cuts

variable [Scalar α]

/-- The steps of merges are by a transition where there is a seam. -/
theorem SequenceRun.kinds_eq {blendAfter? : ℕ → Option (TransitionStyle × α)} {running result : α}
    {last? : Option (ℕ × String)} {pieces : List (Piece α)} {events : List (Event α)}
    (h : SequenceRun blendAfter? running last? pieces result events) :
    (events.filterMap Event.step?).map MergeStep.isTransition =
      (Seam.between blendAfter? last? (pieces.map Piece.clip?)).map Option.isSome := by
  induction h with
  | nil => rfl
  | cons head _ ih =>
    obtain ⟨step, hstep, hblend, -⟩ := head.exists_step
    have hkind := step.isSome_blend?
    rw [hblend, Option.isSome_map] at hkind
    rw [List.filterMap_append, hstep, List.singleton_append, List.map_cons, ih, ← hkind]
    rfl

omit [Scalar α] in
/-- Steps of the same kinds as the seams blend at the same edges. -/
theorem MergeStep.blendsAt_eq {steps : List (MergeStep α)} {seams : List (Option (Seam α))}
    (h : steps.map isTransition = seams.map Option.isSome) (place : ℕ) :
    blendsAt steps place = Seam.blendsAt seams place := by
  have hplace (k : ℕ) : steps[k]?.any isTransition = seams[k]?.any Option.isSome := by
    have hk := congrArg (fun kinds ↦ (kinds[k]?).any id) h
    simp only [List.getElem?_map, Option.any_map] at hk
    exact hk
  exact congrArg (BlendedEdges.around · place) (funext hplace)

omit [Scalar α] in
/-- What has a job has it at its own place. -/
theorem exists_job_of_forall₂ {β : Type} {R : β → Job α → Prop} {items : List β}
    {jobs : List (Job α)} (h : List.Forall₂ R items jobs) {place : ℕ} {item : β}
    (hplace : items[place]? = some item) : ∃ job, jobs[place]? = some job ∧ R item job := by
  obtain ⟨hlt, rfl⟩ := List.getElem?_eq_some_iff.1 hplace
  have hjobs : place < jobs.length := h.length_eq ▸ hlt
  exact ⟨jobs[place], List.getElem?_eq_getElem hjobs, h.get hlt hjobs⟩

/-- The videos that were demoted are painted. -/
theorem Layers.exists_overlay_of_demotion {clips : List (Clip α)} {fps : α}
    {demotion : Demotion α} (h : demotion ∈ (ofClips clips fps).demotions) :
    ∃ clip ∈ (ofClips clips fps).overlays.filter Clip.isVideo, clip.id = demotion.clipId := by
  rw [ofClips_eq] at h
  obtain ⟨⟨clip, cursor⟩, hclip, rfl⟩ := List.mem_map.1 h
  have hdemoted : clip ∈ demoted clips fps := List.mem_map_of_mem hclip
  refine ⟨clip, List.mem_filter.2 ⟨?_, isVideo_of_mem_demoted hdemoted⟩, rfl⟩
  rw [overlays_eq, List.mem_mergeSort]
  exact List.mem_append_left _ (List.mem_append_right _ hdemoted)

variable [LawfulScalar α] {project : Project α} {canvas : Canvas α}

/-- The fades of a render from its parts: the jobs of the entries, those of the merges with their
steps, and the segments of the overlays. -/
theorem Composition.fadesAtCuts_of_parts {cuts merges : List (Job α)} {steps : List (MergeStep α)}
    {insets : List (Job.Segment α)} {first : Piece α} {rest : List (Piece α)} {base : Path}
    (hcuts : List.Forall₂ (Entry.CutBy (ofProject project canvas))
      (ofProject project canvas).entries cuts)
    (houtputs : cuts.map Job.output = (first :: rest).map (·.rendered.path))
    (hmerged : Merged first.rendered.path (rest.map (·.rendered.path)) merges base)
    (hjobs : merges.map Job.isTransition = (ofProject project canvas).seams.map Option.isSome)
    (hsteps : steps.map MergeStep.isTransition =
      (ofProject project canvas).seams.map Option.isSome)
    (hinsets : List.Forall₂ Clip.InsetBy
      ((ofProject project canvas).layers.overlays.filter Clip.isVideo) insets) :
    (ofProject project canvas).FadesAtCuts cuts merges steps insets where
  length_eq := hcuts.length_eq.symm
  merged := by
    rcases cuts with - | ⟨job, jobs⟩
    · cases houtputs
    · rw [List.map_cons, List.map_cons, List.cons.injEq] at houtputs
      rw [← houtputs.1, ← houtputs.2] at hmerged
      exact ⟨job, jobs, base, rfl, hmerged⟩
  kinds := hjobs.trans hsteps.symm
  base i clip hclip := by
    obtain ⟨place, hplace⟩ := Entry.exists_place hclip
    obtain ⟨job, hjob, hcut⟩ := exists_job_of_forall₂ hcuts hplace
    obtain ⟨segment, rfl, hserves, hfades⟩ := hcut i clip rfl
    refine ⟨place, segment, hplace, hjob, hserves, ?_⟩
    -- the merges blend where the decisions said they would
    rw [MergeStep.blendsAt_eq hsteps, blendsAt_eq hplace, hfades]
    exact Session.fitEdges_fadesOf _ _
  overlays := hinsets
  demoted _ := Layers.exists_overlay_of_demotion

end Cuts

/-! ### Renders -/

namespace Studio

variable [Scalar α] [LawfulScalar α] {studio : Studio (StateM σ) α} {p q : Situation α σ}
  {project : Project α} {canvas : Canvas α} {media : Manifest} {destination : Path}
  {options : RenderOptions} {report : RenderReport α}

/-- The assembly of a render cuts, merges and paints with fades that fit. -/
theorem fadesIn_of_ends_assemble {session : Session (StateM σ) α} {file : RenderedFile α}
    (h : (studio.assemble session (.ofProject project canvas)).Ends p (.ok file) q) :
    ∃ events, p.Adds events q ∧ (Composition.ofProject project canvas).FadesIn events := by
  obtain ⟨_, _, rendering, merging, hrendering, hmerging, before, between, after, hbefore,
    hbetween, hafter, hadds⟩ := exists_runs_of_ends_assemble h
  obtain ⟨pieces, base, painted, p₁, p₂, p₃, p₄, p₅, p₆, p₇, hreach₁, hentries, hreach₂, hmerge,
    hreach₃, hoverlays, hreach₄, hsounds⟩ := ends_assemble h
  obtain ⟨cuts, hcuts, houtputs, hcut⟩ := Session.finishes_renderEntries hentries
  obtain ⟨first, rest, merges, rfl, hjobs, hmerged, hmerge⟩ := Session.finishes_mergePieces hmerge
  obtain ⟨insets, hinsets, hpainted⟩ := Session.insets_addOverlays hoverlays
  have hdecorated : p₄.Insets (insets ++ []) q :=
    (hreach₃.insets.trans hpainted).trans (hreach₄.insets.trans (Session.insets_addSounds hsounds))
  obtain ⟨others, hothers, hsegments⟩ := hdecorated
  have hstart : p.Finishes [] p₁ := ⟨_, hreach₁, rfl⟩
  have hturn : p₂.Finishes [] p₃ := ⟨_, hreach₂, rfl⟩
  obtain ⟨events, hevents, hdone⟩ : p.Finishes (cuts ++ (merges ++ others)) q :=
    (hstart.trans hcut).trans ((hturn.trans hmerge).trans hothers)
  obtain rfl := List.append_cancel_left (hevents.symm.trans hadds)
  refine ⟨_, hadds, cuts, merges, others, merging.filterMap Event.step?, hdone, ?_, ?_⟩
  · -- all that is no step falls away
    rw [← hrendering.steps_eq]
    simp only [List.filterMap_append, Event.filterMap_step?_of_quiet hbefore,
      Event.filterMap_step?_of_quiet hbetween, Event.filterMap_step?_of_quiet hafter,
      List.nil_append, List.append_nil]
  · obtain ⟨_, hrun, -⟩ := Session.ends_renderEntries hentries
    rw [hrun.labels_eq] at hjobs
    have hsteps := hmerging.kinds_eq
    rw [hsegments, List.append_nil]
    refine Composition.fadesAtCuts_of_parts hcuts houtputs hmerged hjobs ?_ hinsets
    rw [Composition.seams, ← hrendering.labels_eq]
    exact hsteps

/-- In a successful render a clip of the base fades at those of its edges that no transition merges,
and the videos over it fade as they are told to. -/
theorem fadesIn_of_ends_render {settings : OutputSettings α}
    (h : (studio.render project media destination settings options).Ends p (.ok report) q) :
    ∃ events, p.Adds events q ∧ (Composition.ofProject project report.canvas).FadesIn events := by
  obtain ⟨workdir, t, u, hbefore, hplanned, hafter⟩ := ends_render h
  obtain ⟨-, rendered, v, hassemble, -, hdelivered⟩ := ends_renderPlanned hplanned
  obtain ⟨events, hadds, hfades⟩ := fadesIn_of_ends_assemble hassemble
  exact ⟨_, (hbefore.trans hadds).trans (hdelivered.trans hafter),
    hfades.surround (by simp [Event.done?, Event.step?]) (by simp [Event.done?, Event.step?])⟩

/-- The sample, in which the first cut is blended in the fallback style. -/
theorem fadesIn_sample : ∃ report q,
    (Sample.studio.render (Sample.project : Project Exact) Sample.media ⟨"out.mp4"⟩ {} {}).Ends
      ⟨{}, ()⟩ (.ok report) q ∧
    ∃ events, (⟨{}, ()⟩ : Situation Exact Unit).Adds events q ∧
      (Composition.ofProject (Sample.project : Project Exact) report.canvas).FadesIn events := by
  obtain ⟨report, q, h⟩ := Sample.exists_ends_render
  exact ⟨report, q, h, fadesIn_of_ends_render h⟩

end Studio

end Splice
