import Mathlib.Tactic.SplitIfs
import Splice.Proofs.Render.Duration
import Splice.Proofs.Render.Outcomes
import Splice.Proofs.Render.Tasks
import Splice.Proofs.Timeline.Ranges

/-!
# Well-formed jobs

Validation looks at the times, the placement and the sources of clips, and never at their effects.
Every job of a render is well formed nevertheless (`Job.IsWellFormed`), in exact numbers, whatever
the effects hold and however the render ends (`Studio.wellFormed_of_ends_render`).

The session is walked through once more, with one lemma `wellFormed_…` for each of its operations.
What a job is made of comes from three places: the ranges of the accessors, the times of a clip
without faults, and what the earlier part of the run has come to. Only the last one is an invariant
of the run: what is there always lasts (`MergeRun.isIn`), which bounds the mixes from above.
-/

namespace Splice

open Exact (number isIn_number)

/-! ### Conditions on jobs -/

/-- An adjustment of colors in finite numbers. -/
structure ColorBalance.IsFinite (c : ColorBalance Exact) : Prop where
  brightness : c.brightness.IsIn Set.univ
  contrast : c.contrast.IsIn Set.univ
  saturation : c.saturation.IsIn Set.univ
  gamma : c.gamma.IsIn Set.univ

/-- Fades of finite lengths, none of them negative. -/
structure Fades.IsWellFormed (f : Fades Exact) : Prop where
  videoIn : f.videoIn.IsIn (Set.Ici 0)
  videoOut : f.videoOut.IsIn (Set.Ici 0)
  audioIn : f.audioIn.IsIn (Set.Ici 0)
  audioOut : f.audioOut.IsIn (Set.Ici 0)

/-- The stay of something painted: long enough to be seen, along curves that can be drawn. -/
structure IsVisible (start stop : Exact) (x y opacity : Curve Exact) : Prop where
  start_isIn : start.IsIn (Set.Ici 0)
  length_isIn : (stop - start).IsIn (Set.Ici (1 / 20))
  x_isWithin : x.IsWithin Set.univ
  y_isWithin : y.IsWithin Set.univ
  opacity_isWithin : opacity.IsWithin (Set.Icc 0 1)

/-- A positive frame rate. -/
def Encoding.IsWellFormed (e : Encoding Exact) : Prop := e.fps.IsIn (Set.Ioi 0)

namespace Job

/-- A filler lasts. -/
structure Blank.IsWellFormed (j : Job.Blank Exact) : Prop where
  duration : j.duration.IsIn (Set.Ioi 0)
  encoding : j.encoding.IsWellFormed

/-- A segment that can be cut out of its source, sped up and colored by finite numbers. -/
structure Segment.IsWellFormed (j : Job.Segment Exact) : Prop where
  seek : j.seek.IsIn (Set.Ici 0)
  sourceDuration : j.sourceDuration.IsIn (Set.Ioi 0)
  outputDuration : j.outputDuration.IsIn (Set.Ici (1 / 20))
  color : j.color.IsFinite
  hue : j.hue.IsIn Set.univ
  blur : j.blur.IsIn Set.univ
  opacity : j.opacity.IsIn (Set.Icc 0 1)
  speed : j.speed.IsIn (Set.Icc (1 / 4) 4)
  volume : j.volume.IsIn Set.univ
  fades : j.fades.IsWellFormed
  encoding : j.encoding.IsWellFormed

/-- A blend that lasts, and does not begin before the first file does. -/
structure Transition.IsWellFormed (j : Job.Transition Exact) : Prop where
  duration : j.duration.IsIn (Set.Ioi 0)
  offset : j.offset.IsIn (Set.Ici 0)
  encoding : j.encoding.IsWellFormed

/-- A picture is painted while it can be seen. -/
structure Overlay.IsWellFormed (j : Job.Overlay Exact) : Prop where
  visible : IsVisible j.start j.stop j.x j.y j.opacity
  encoding : j.encoding.IsWellFormed

/-- So is a text. -/
structure Text.IsWellFormed (j : Job.Text Exact) : Prop where
  visible : IsVisible j.start j.stop j.x j.y j.opacity
  encoding : j.encoding.IsWellFormed

/-- The start of a sound is not validated: it may be an infinity, but it is never negative. -/
structure AudioTrim.IsWellFormed (j : Job.AudioTrim Exact) : Prop where
  start : 0.0 ≤ j.start
  duration : j.duration.IsIn (Set.Ici (1 / 20))
  volume : j.volume.IsIn (Set.Ioi 0)
  fadeIn : j.fadeIn.IsIn (Set.Ici 0)
  fadeOut : j.fadeOut.IsIn (Set.Ici 0)

/-- A sound is mixed in from a time of the timeline on, into something that lasts. -/
structure AudioMix.IsWellFormed (j : Job.AudioMix Exact) : Prop where
  time : j.time.IsIn (Set.Ici 0)
  maxDuration : j.maxDuration.IsIn (Set.Ioi 0)

/-- A job that an engine can be asked to do. A concatenation has no numbers to go wrong. -/
inductive IsWellFormed : Job Exact → Prop
  | blank {j : Job.Blank Exact} (h : j.IsWellFormed) : IsWellFormed (.blank j)
  | segment {j : Job.Segment Exact} (h : j.IsWellFormed) : IsWellFormed (.segment j)
  | transition {j : Job.Transition Exact} (h : j.IsWellFormed) : IsWellFormed (.transition j)
  | concat (j : Job.Concat) : IsWellFormed (.concat j)
  | overlay {j : Job.Overlay Exact} (h : j.IsWellFormed) : IsWellFormed (.overlay j)
  | text {j : Job.Text Exact} (h : j.IsWellFormed) : IsWellFormed (.text j)
  | audioTrim {j : Job.AudioTrim Exact} (h : j.IsWellFormed) : IsWellFormed (.audioTrim j)
  | audioMix {j : Job.AudioMix Exact} (h : j.IsWellFormed) : IsWellFormed (.audioMix j)

end Job

/-- All jobs among the events are well formed, those that failed too. -/
def JobsWellFormed (_ : Option Failure) (events : List (Event Exact)) : Prop :=
  ∀ job ∈ events.filterMap Event.job?, job.IsWellFormed

namespace JobsWellFormed

/-- A condition on every job goes on over everything that a run adds. -/
theorem additive : RenderT.Additive JobsWellFormed where
  nil _ := List.forall_mem_nil _
  append ha hb := by
    rw [JobsWellFormed, List.filterMap_append]
    exact List.forall_mem_append.2 ⟨ha, hb⟩

theorem of_job {job : Job Exact} {ended? failure? : Option Failure} (h : job.IsWellFormed) :
    JobsWellFormed ended? [.ran job failure?] := List.forall_mem_singleton.2 h

theorem of_no_job {event : Event Exact} (h : event.job? = none) : JobsWellFormed none [event] := by
  rw [JobsWellFormed, List.filterMap_cons, h]
  exact List.forall_mem_nil _

end JobsWellFormed

/-! ### Lengths in the course of the merges -/

/-- Two files that last make one that lasts. -/
theorem MergeRun.isIn {left right merged : Exact} {seam? : Option (Seam Exact)}
    {events : List (Event Exact)} (h : MergeRun left right seam? merged events)
    (hleft : left.IsIn (Set.Ioi 0)) (hright : right.IsIn (Set.Ioi 0))
    (hseam : ∀ seam ∈ seam?, seam.2.1.IsIn (Set.Ioi 0)) : merged.IsIn (Set.Ioi 0) := by
  obtain ⟨l, hl, rfl⟩ := hleft
  obtain ⟨r, hr, rfl⟩ := hright
  have hblended {duration : Exact} (hduration : duration.IsIn (Set.Ioi 0)) :
      (blendedLength (number l) (number r) duration).IsIn (Set.Ioi 0) := by
    obtain ⟨d, -, rfl⟩ := hduration
    rw [blendedLength, Exact.number_add, Exact.number_sub, leastMerged_eq, Exact.max_number]
    exact isIn_number (Set.mem_Ioi.2 (lt_max_of_lt_right (by norm_num)))
  cases h with
  | blend => exact hblended (hseam _ rfl)
  | fallback => exact hblended (hseam _ rfl)
  | concat =>
    rw [Exact.number_add]
    exact isIn_number (Set.mem_Ioi.2 (add_pos hl hr))

/-- What is there lasts after every merge, by induction on the merges. -/
theorem SequenceRun.isIn {blendAfter? : ℕ → Option (TransitionStyle × Exact)}
    {running result : Exact} {last? : Option (ℕ × String)} {pieces : List (Piece Exact)}
    {events : List (Event Exact)} (h : SequenceRun blendAfter? running last? pieces result events)
    (hrunning : running.IsIn (Set.Ioi 0))
    (hpieces : ∀ piece ∈ pieces, piece.rendered.duration.IsIn (Set.Ioi 0))
    (hblend : ∀ i blend, blendAfter? i = some blend → blend.2.IsIn (Set.Ioi 0)) :
    result.IsIn (Set.Ioi 0) := by
  induction h with
  | nil => exact hrunning
  | cons head _ ih =>
    obtain ⟨hnext, hrest⟩ := List.forall_mem_cons.1 hpieces
    refine ih (head.isIn hrunning hnext ?_) hrest
    rintro ⟨style, duration, fromId, toId⟩ hseam
    obtain ⟨i, -, -, hi⟩ := Piece.transitionTo?_eq_some hseam
    exact hblend i _ hi

/-! ### Sessions -/

namespace Session

open JobsWellFormed (additive of_job of_no_job)
open RenderT (Leaves ends_bind_ok ends_pure)

variable {σ : Type} {s : Session (StateM σ) Exact} {p q : Situation Exact σ}

/-- It is enough that the one job is well formed. -/
theorem wellFormed_run {job : Job Exact} (h : job.IsWellFormed) :
    (s.run job).Leaves JobsWellFormed :=
  leaves_run (of_job h) fun _ ↦ of_job h

theorem wellFormed_attempt {job : Job Exact} (h : job.IsWellFormed) :
    (s.attempt job).Leaves JobsWellFormed := by
  intro p r q hattempt
  obtain ⟨rfl, rfl⟩ := ends_attempt.1 hattempt
  exact ⟨_, rfl, of_job h⟩

/-! ### Entries -/

/-- A filler lasts, by the plan. -/
theorem wellFormed_renderFiller (hfps : s.canvas.fps.IsIn (Set.Ioi 0)) {filler : Filler Exact}
    (h : filler.duration.IsIn (Set.Ioi 0)) :
    (s.renderFiller filler).Leaves JobsWellFormed :=
  (leaves_freshPath additive _ _).bind additive fun _ ↦
    Leaves.bind additive (wellFormed_run (.blank ⟨h, hfps⟩)) fun _ ↦ .pure additive _

/-- No fade is negative: the accessors see to that, and a blended edge has none. -/
theorem isWellFormed_fadesOf (effects : Effects Exact) (blended : BlendedEdges) :
    (fadesOf effects blended).IsWellFormed := by
  -- at a blended edge the fade is zero
  have hzero (edge : Bool) {length : Exact} (h : length.IsIn (Set.Ici 0)) :
      (if edge then 0.0 else length).IsIn (Set.Ici 0) := by
    cases edge with
    | false => exact h
    | true => exact ⟨0, Set.self_mem_Ici, zero_eq⟩
  exact ⟨hzero _ effects.isIn_fadeIn, hzero _ effects.isIn_fadeOut,
    hzero _ effects.isIn_audioFadeIn, hzero _ effects.isIn_audioFadeOut⟩

/-- Every number of a segment comes from an accessor or from the window of the source, and each of
these has its range. -/
theorem isWellFormed_of_ends_segmentOf (hfps : s.canvas.fps.IsIn (Set.Ioi 0)) {clip : Clip Exact}
    {media : MediaClip Exact} (hissues : clip.issues = []) (hcontent : clip.content = .video media)
    {path output : Path} {blended : BlendedEdges} {job : Job.Segment Exact}
    (h : (s.segmentOf clip.duration media path blended output).Ends p (.ok job) q) :
    job.IsWellFormed := by
  obtain ⟨start, hstart⟩ := Clip.trimStart_of_issues hissues hcontent
  obtain ⟨_, d, _, times⟩ := Clip.exists_times hissues
  rw [segmentOf, times.duration_eq, ends_bind_ok] at h
  obtain ⟨hasAudio, t, -, h⟩ := h
  obtain ⟨crop?, u, -, h⟩ := ends_bind_ok.1 h
  obtain ⟨hjob, rfl⟩ := ends_pure.1 h
  rw [Except.ok.inj hjob]
  exact {
    seek := MediaClip.isIn_excerpt_start hstart (number d)
    sourceDuration := MediaClip.isIn_excerpt_sourceDuration hstart
    outputDuration := MediaClip.isIn_excerpt_outputDuration hstart
    color := ⟨Exact.isIn_finiteElse _ _, Exact.isIn_finiteElse _ _, Exact.isIn_finiteElse _ _,
      Exact.isIn_finiteElse _ _⟩
    hue := Exact.isIn_finiteElse _ _
    blur := Exact.isIn_finiteElse _ _
    opacity := media.look.effects.isIn_opacity
    speed := media.look.effects.isIn_speed
    volume := media.look.effects.isIn_volume
    fades := isWellFormed_fadesOf _ _
    encoding := hfps }

/-- So the job of a segment is well formed. -/
theorem wellFormed_makeSegment (hfps : s.canvas.fps.IsIn (Set.Ioi 0)) {clip : Clip Exact}
    {media : MediaClip Exact} (hissues : clip.issues = []) (hcontent : clip.content = .video media)
    (path : Path) (blended : BlendedEdges) :
    (s.makeSegment clip media path blended).Leaves JobsWellFormed := by
  refine (leaves_freshPath additive _ _).bind additive fun output ↦
    Leaves.bind_of_ends additive ?_ fun p job t hjob ↦
      (wellFormed_run (.segment (isWellFormed_of_ends_segmentOf hfps hissues hcontent
        hjob))).bind additive fun _ ↦ .pure additive _
  exact (leaves_hasAudio additive path).bind additive fun _ ↦
    (leaves_cropOf additive _ path).bind additive fun _ ↦ .pure additive _

/-- A segment is never shorter than the shortest one. -/
theorem isIn_of_ends_makeSegment {clip : Clip Exact} {media : MediaClip Exact}
    (hissues : clip.issues = []) (hcontent : clip.content = .video media) {path : Path}
    {blended : BlendedEdges} {file : RenderedFile Exact}
    (h : (s.makeSegment clip media path blended).Ends p (.ok file) q) :
    file.duration.IsIn (Set.Ici (1 / 20)) := by
  obtain ⟨start, hstart⟩ := Clip.trimStart_of_issues hissues hcontent
  obtain ⟨_, d, _, times⟩ := Clip.exists_times hissues
  rw [(ends_makeSegment h).1, times.duration_eq]
  exact MediaClip.isIn_excerpt_outputDuration hstart

/-- An entry of a plan: its clip is a clip of the base, without faults, and its filler has a length.
-/
theorem wellFormed_renderEntry {project : Project Exact} {canvas : Canvas Exact}
    (hvalid : project.issues = []) (hfps : s.canvas.fps.IsIn (Set.Ioi 0)) {entry : Entry Exact}
    (hentry : entry ∈ (Composition.ofProject project canvas).entries) :
    (s.renderEntry (.ofProject project canvas) entry).Leaves JobsWellFormed := by
  have hrecord (step : MergeStep Exact) (piece : Piece Exact) :
      (RenderT.record (.merged step) >>= fun _ ↦ pure piece :
        RenderT Exact (StateM σ) (Piece Exact)).Leaves JobsWellFormed :=
    (Leaves.record (of_no_job rfl)).bind additive fun _ ↦ .pure additive _
  cases entry with
  | clip index clip =>
    have hbase : clip ∈ (Composition.ofProject project canvas).layers.base :=
      List.mem_of_getElem? (Entry.getElem?_of_mem_ofBase hentry)
    obtain ⟨hissues, -⟩ := Composition.exists_times_of_mem_base hvalid clip hbase
    rw [renderEntry]
    cases hvideo : clip.video? with
    | none => exact .throw additive _
    | some media =>
      exact (leaves_source additive _).bind additive fun input ↦
        (wellFormed_makeSegment hfps hissues (Clip.content_of_video? hvideo) _ _).bind additive
          fun _ ↦ hrecord _ _
  | filler filler =>
    obtain ⟨d, hd, hduration⟩ := Composition.exists_duration_of_mem_entries hvalid hentry
    exact (wellFormed_renderFiller hfps ⟨d, lt_trans (by norm_num) hd, hduration⟩).bind additive
      fun _ ↦ hrecord _ _

/-! ### Merges -/

variable {left right : RenderedFile Exact}

/-- Whatever the file on the left is, a blend does not begin before it. -/
theorem isWellFormed_of_ends_blendJob (hfps : s.canvas.fps.IsIn (Set.Ioi 0))
    {style : TransitionStyle} {duration : Exact} {job : Job.Transition Exact}
    (hleft : left.duration.IsIn (Set.Ioi 0)) (hduration : duration.IsIn (Set.Ioi 0))
    (h : (s.blendJob left right style duration).Ends p (.ok job) q) : job.IsWellFormed := by
  obtain ⟨output, t, -, h⟩ := ends_bind_ok.1 h
  obtain ⟨hjob, rfl⟩ := ends_pure.1 h
  rw [Except.ok.inj hjob]
  refine ⟨hduration, ?_, hfps⟩
  obtain ⟨l, -, hl⟩ := hleft
  obtain ⟨d, -, rfl⟩ := hduration
  show (Scalar.max (left.duration - number d) 0.0).IsIn _
  rw [hl, Exact.number_sub]
  exact (Exact.isIn_univ _).max_zero

/-- A blend in the requested style, and a second one in the fallback: both jobs have the same
numbers. -/
theorem wellFormed_blendFiles (hfps : s.canvas.fps.IsIn (Set.Ioi 0)) (style : TransitionStyle)
    {duration : Exact} (hleft : left.duration.IsIn (Set.Ioi 0))
    (hduration : duration.IsIn (Set.Ioi 0)) :
    (s.blendFiles left right style duration).Leaves JobsWellFormed := by
  have hjob (style : TransitionStyle) :
      (s.blendJob left right style duration).Leaves JobsWellFormed :=
    (leaves_freshPath additive _ _).bind additive fun _ ↦ .pure additive _
  refine (hjob style).bind_of_ends additive fun p job t h ↦
    (wellFormed_attempt (.transition (isWellFormed_of_ends_blendJob hfps hleft hduration h))).bind
      additive fun failure? ↦ ?_
  cases failure? with
  | none => exact .pure additive _
  | some e =>
    dsimp only
    split_ifs
    · refine (hjob .fallback).bind_of_ends additive fun p second t h ↦ ?_
      exact (wellFormed_run (.transition (isWellFormed_of_ends_blendJob hfps hleft hduration
        h))).bind additive fun _ ↦ .pure additive _
    · exact .throw additive _

/-- A merge without a blend has no numbers. -/
theorem wellFormed_mergeByConcat : (s.mergeByConcat left right).Leaves JobsWellFormed :=
  (leaves_freshPath additive _ _).bind additive fun _ ↦
    (leaves_freshPath additive _ _).bind additive fun _ ↦
      (wellFormed_run (.concat _)).bind additive fun _ ↦
        (Leaves.record (of_no_job rfl)).bind additive fun _ ↦ .pure additive _

/-- All merges, by induction on the pieces. That what is there lasts has to be carried along, since
it bounds the next blend. -/
theorem wellFormed_mergeOnto (hfps : s.canvas.fps.IsIn (Set.Ioi 0))
    {blendAfter? : ℕ → Option (TransitionStyle × Exact)}
    (hblend : ∀ i blend, blendAfter? i = some blend → blend.2.IsIn (Set.Ioi 0))
    {running : RenderedFile Exact} (hrunning : running.duration.IsIn (Set.Ioi 0))
    {pieces : List (Piece Exact)}
    (hpieces : ∀ piece ∈ pieces, piece.rendered.duration.IsIn (Set.Ioi 0))
    (last? : Option (ℕ × String)) :
    (s.mergeOnto blendAfter? running last? pieces).Leaves JobsWellFormed := by
  induction pieces generalizing running last? with
  | nil => exact .pure additive _
  | cons next rest ih =>
    obtain ⟨hnext, hrest⟩ := List.forall_mem_cons.1 hpieces
    rw [mergeOnto]
    -- only a seam has a length, and its length is that of a planned transition
    rcases hseam : Piece.transitionTo? blendAfter? last? next.clip? with
      - | ⟨style, duration, fromId, toId⟩
    · refine wellFormed_mergeByConcat.bind_of_ends additive fun p merged t hmerge ↦ ?_
      obtain ⟨_, hrun, -⟩ := ends_mergeByConcat hmerge
      refine ih (hrun.isIn hrunning hnext ?_) hrest _
      rintro _ ⟨⟩
    · obtain ⟨i, -, -, hi⟩ := Piece.transitionTo?_eq_some hseam
      have hduration : duration.IsIn (Set.Ioi 0) := hblend i _ hi
      have hleaves : (s.mergeByTransition running next.rendered style duration fromId
          toId).Leaves JobsWellFormed :=
        (wellFormed_blendFiles hfps style hrunning hduration).bind additive fun _ ↦
          (Leaves.record (of_no_job rfl)).bind additive fun _ ↦ .pure additive _
      refine hleaves.bind_of_ends additive fun p merged t hmerge ↦ ?_
      obtain ⟨_, hrun, -⟩ := ends_mergeByTransition hmerge
      refine ih (hrun.isIn hrunning hnext ?_) hrest _
      rintro _ ⟨⟩
      exact hduration

/-- The first piece lasts like every other one. -/
theorem wellFormed_mergePieces (hfps : s.canvas.fps.IsIn (Set.Ioi 0))
    {blendAfter? : ℕ → Option (TransitionStyle × Exact)}
    (hblend : ∀ i blend, blendAfter? i = some blend → blend.2.IsIn (Set.Ioi 0))
    {pieces : List (Piece Exact)}
    (hpieces : ∀ piece ∈ pieces, piece.rendered.duration.IsIn (Set.Ioi 0)) :
    (s.mergePieces blendAfter? pieces).Leaves JobsWellFormed := by
  cases pieces with
  | nil => exact .throw additive _
  | cons first rest =>
    obtain ⟨hfirst, hrest⟩ := List.forall_mem_cons.1 hpieces
    exact wellFormed_mergeOnto hfps hblend hfirst hrest _

/-! ### Sounds -/

variable {base : RenderedFile Exact} {clip : Clip Exact}

/-- A mix starts at the time of its clip and ends with what is there. -/
theorem wellFormed_mixSound (hbase : base.duration.IsIn (Set.Ioi 0)) {time : Exact}
    (htime : time.IsIn (Set.Ici 0)) (path : Path) (label : String) :
    (s.mixSound base path time label).Leaves JobsWellFormed := by
  refine (leaves_hasAudio additive path).bind additive fun hasAudio ↦ ?_
  cases hasAudio with
  | false => exact .throw_bind additive _ _
  | true =>
    exact (leaves_hasAudio additive _).bind additive fun _ ↦
      (leaves_freshPath additive _ _).bind additive fun _ ↦
        Leaves.bind additive (wellFormed_run (.audioMix ⟨htime, hbase⟩)) fun _ ↦ .pure additive _

/-- A sound is cut to the duration of its clip, which is at least the shortest one. -/
theorem wellFormed_mixClip (hissues : clip.issues = []) (hbase : base.duration.IsIn (Set.Ioi 0))
    {audio : AudioClip Exact} (hvolume : audio.effects.volume.IsIn (Set.Ioi 0)) :
    (s.mixClip base clip audio).Leaves JobsWellFormed := by
  obtain ⟨start, d, _, times⟩ := Clip.exists_times hissues
  have hduration : (Scalar.max clip.duration leastSegment).IsIn (Set.Ici (1 / 20)) := by
    rw [times.duration_eq, leastSegment_eq, Exact.max_number]
    exact isIn_number (le_max_right d (1 / 20))
  refine (leaves_asset additive _).bind additive fun _ ↦
    (leaves_freshPath additive _ _).bind additive fun _ ↦
      Leaves.bind additive (wellFormed_run (.audioTrim ?_)) fun _ ↦
        wellFormed_mixSound hbase ⟨start, times.start_nonneg, times.start_eq⟩ _ _
  exact ⟨Exact.zero_le_max_zero _, hduration, hvolume, audio.effects.isIn_audioFadeIn,
    audio.effects.isIn_audioFadeOut⟩

/-- A sound is mixed in only if it can be heard. -/
theorem wellFormed_addSound (hissues : clip.issues = [])
    (hbase : base.duration.IsIn (Set.Ioi 0)) : (s.addSound base clip).Leaves JobsWellFormed := by
  rw [addSound]
  split
  · rename_i audio _
    split_ifs with hsource hvolume
    · exact (Leaves.record (of_no_job rfl)).bind additive fun _ ↦ .pure additive _
    · exact .pure additive _
    · obtain ⟨v, -, hv⟩ := audio.effects.isIn_volume
      rw [hv, zero_eq, Exact.number_le, not_le] at hvolume
      exact wellFormed_mixClip hissues hbase ⟨v, hvolume, hv⟩
  · exact .pure additive _

/-- All sounds; the length of what is there does not change. -/
theorem wellFormed_addSounds {clips : List (Clip Exact)}
    (hissues : ∀ clip ∈ clips, clip.issues = []) (hbase : base.duration.IsIn (Set.Ioi 0)) :
    (s.addSounds base clips).Leaves JobsWellFormed := by
  refine Leaves.foldlM_of_ends additive (I := fun file ↦ file.duration.IsIn (Set.Ioi 0))
    (fun file hfile clip hclip ↦ wellFormed_addSound (hissues clip hclip) hfile) ?_ hbase
  intro file hfile clip _ p file' q hends
  rw [(keeps_addSound hends).1]
  exact hfile

/-! ### Overlays -/

/-- A clip without faults is placed along finite curves. -/
theorem isVisible_placementOf (hissues : clip.issues = []) (look : Look Exact) {length : Exact}
    (hlength : length.IsIn (Set.Ici (1 / 20))) :
    IsVisible clip.startTime (clip.startTime + length) (s.placementOf clip look).x
      (s.placementOf clip look).y (s.placementOf clip look).opacity := by
  obtain ⟨start, _, _, times⟩ := Clip.exists_times hissues
  obtain ⟨l, hl, rfl⟩ := hlength
  refine ⟨⟨start, times.start_nonneg, times.start_eq⟩, ?_, look.isWithin_place_x _ _ _,
    look.isWithin_place_y _ _ _, look.isWithin_place_opacity _ _ _⟩
  rw [times.start_eq, Exact.number_add, Exact.number_sub, add_sub_cancel_left]
  exact isIn_number hl

/-- What is no video stays for its duration. -/
theorem isVisible_overlayEnd (hissues : clip.issues = []) (look : Look Exact) :
    IsVisible clip.startTime clip.overlayEnd (s.placementOf clip look).x
      (s.placementOf clip look).y (s.placementOf clip look).opacity := by
  obtain ⟨_, d, _, times⟩ := Clip.exists_times hissues
  refine isVisible_placementOf hissues look ?_
  rw [times.duration_eq, leastSegment_eq, Exact.max_number]
  exact isIn_number (le_max_right d (1 / 20))

/-- What paints a clip is one job, and then the code goes on. -/
theorem wellFormed_paint (hfps : s.canvas.fps.IsIn (Set.Ioi 0)) {look : Look Exact} {stop : Exact}
    (hvisible : IsVisible clip.startTime stop (s.placementOf clip look).x
      (s.placementOf clip look).y (s.placementOf clip look).opacity)
    (source : Job.OverlayPicture) (mode : FitMode) (rotation : Exact)
    {f : Path → RenderT Exact (StateM σ) (RenderedFile Exact)}
    (hf : ∀ path, (f path).Leaves JobsWellFormed) :
    (do
      let job ← s.paintJob clip base source (s.placementOf clip look) stop mode rotation
      let path ← s.run (.overlay job)
      f path).Leaves JobsWellFormed := by
  refine (leaves_paintJob additive _ _ _ _ _ _ _).bind_of_ends additive fun p job t hjob ↦
    Leaves.bind additive (wellFormed_run (.overlay ?_)) hf
  obtain ⟨output, u, -, hjob⟩ := ends_bind_ok.1 hjob
  obtain ⟨hjob, -⟩ := ends_pure.1 hjob
  rw [Except.ok.inj hjob]
  exact ⟨hvisible, hfps⟩

/-- An overlaid video stays for the length of its segment. -/
theorem wellFormed_paintVideo (hfps : s.canvas.fps.IsIn (Set.Ioi 0)) (hissues : clip.issues = [])
    (hbase : base.duration.IsIn (Set.Ioi 0)) {media : MediaClip Exact}
    (hcontent : clip.content = .video media) :
    (s.paintVideo base clip media).Leaves JobsWellFormed := by
  obtain ⟨start, _, _, times⟩ := Clip.exists_times hissues
  refine (leaves_source additive _).bind additive fun input ↦
    (wellFormed_makeSegment hfps hissues hcontent _ _).bind_of_ends additive
      fun p segment t hsegment ↦ ?_
  have hvisible := isVisible_placementOf (s := s) hissues media.look
    (isIn_of_ends_makeSegment hissues hcontent hsegment)
  refine wellFormed_paint hfps hvisible _ _ _ fun path ↦ ?_
  dsimp only
  split_ifs
  · refine wellFormed_mixSound ?_ ⟨start, times.start_nonneg, times.start_eq⟩ _ _
    exact hbase
  · exact .pure additive _

/-- An overlay of any kind. -/
theorem wellFormed_addOverlay (hfps : s.canvas.fps.IsIn (Set.Ioi 0)) (hissues : clip.issues = [])
    (hbase : base.duration.IsIn (Set.Ioi 0)) :
    (s.addOverlay base clip).Leaves JobsWellFormed := by
  rw [addOverlay]
  split
  · rename_i media hcontent
    exact wellFormed_paintVideo hfps hissues hbase hcontent
  · exact (leaves_asset additive _).bind additive fun _ ↦
      wellFormed_paint hfps (isVisible_overlayEnd hissues _) _ _ _ fun _ ↦ .pure additive _
  · exact (leaves_freshPath additive _ _).bind additive fun _ ↦
      Leaves.bind additive (wellFormed_run (.text ⟨isVisible_overlayEnd hissues _, hfps⟩))
        fun _ ↦ .pure additive _
  · refine (leaves_freshPath additive _ _).bind additive fun _ ↦ Leaves.bind additive ?_ fun _ ↦
      wellFormed_paint hfps (isVisible_overlayEnd hissues _) _ _ _ fun _ ↦ .pure additive _
    exact (Leaves.perform additive _).bind additive fun _ ↦ .record (of_no_job rfl)
  · exact .pure additive _

/-- All overlays; the length of what is there does not change. -/
theorem wellFormed_addOverlays (hfps : s.canvas.fps.IsIn (Set.Ioi 0)) {clips : List (Clip Exact)}
    (hissues : ∀ clip ∈ clips, clip.issues = []) (hbase : base.duration.IsIn (Set.Ioi 0)) :
    (s.addOverlays base clips).Leaves JobsWellFormed := by
  refine Leaves.foldlM_of_ends additive (I := fun file ↦ file.duration.IsIn (Set.Ioi 0))
    (fun file hfile clip hclip ↦ wellFormed_addOverlay hfps (hissues clip hclip) hfile) ?_ hbase
  intro file hfile clip _ p file' q hends
  rw [(keeps_addOverlay hends).1]
  exact hfile

end Session

/-! ### The frame rate -/

/-- A frame rate can be used if it is a positive number. -/
theorem isUsableRate_iff {fps : Exact} : isUsableRate fps = true ↔ fps.IsIn (Set.Ioi 0) := by
  rw [isUsableRate, Bool.and_eq_true, Exact.isFinite_iff, decide_eq_true_iff, zero_eq]
  constructor
  · rintro ⟨⟨q, rfl⟩, hpos⟩
    exact ⟨q, (Exact.number_lt 0 q).1 hpos, rfl⟩
  · rintro ⟨q, hpos, rfl⟩
    exact ⟨⟨q, rfl⟩, (Exact.number_lt 0 q).2 hpos⟩

namespace Canvas

/-- Every known platform has a frame rate that can be used. -/
theorem isUsableRate_of_platform {settings : OutputSettings Exact} {preset : Preset Exact}
    (h : settings.platform? = some preset) : isUsableRate preset.fps = true := by
  obtain ⟨name, -, hname⟩ := Option.bind_eq_some_iff.1 h
  have hall : ∀ preset ∈ (Preset.all : List (Preset Exact)), isUsableRate preset.fps = true := by
    decide +kernel
  rw [Preset.ofName?] at hname
  exact hall preset (List.mem_of_find?_eq_some hname)

/-- Wherever the frame rate of a canvas comes from, it can be used. -/
theorem isIn_fps_resolve (settings : OutputSettings Exact) (video? : Option (MediaInfo Exact)) :
    (resolve settings video?).fps.IsIn (Set.Ioi 0) := by
  have husable (s : OutputSettings Exact) : ∀ fps ∈ s.usable.fps?, isUsableRate fps = true :=
    fun fps h ↦ (Option.filter_eq_some_iff.1 h).2
  have hvideo : ∀ fps ∈ ((video?.map fun info : MediaInfo Exact ↦
      info.settings.usable).getD {}).fps?, isUsableRate fps = true := by
    cases video? with
    | none => exact nofun
    | some info => exact husable info.settings
  have hplatform : ∀ fps ∈ ((settings.platform?.map Preset.settings).getD {}).fps?,
      isUsableRate fps = true := by
    cases hpreset : settings.platform? with
    | none => exact nofun
    | some preset =>
      rintro _ ⟨⟩
      exact isUsableRate_of_platform hpreset
  rw [← isUsableRate_iff]
  show isUsableRate (((settings.usable.fps?.or _).or _).getD _) = true
  -- the rate is asked for, named by a platform, looked up in the video, or the default one
  rcases hrate : (settings.usable.fps?.or _).or _ with - | fps
  · decide +kernel
  · rw [Option.or_eq_some_iff, Option.or_eq_some_iff] at hrate
    rcases hrate with (hasked | ⟨-, hnamed⟩) | ⟨-, hlooked⟩
    · exact husable settings fps hasked
    · exact hplatform fps hnamed
    · exact hvideo fps hlooked

end Canvas

/-! ### Studios -/

namespace Studio

open JobsWellFormed (additive of_no_job)
open RenderT (Leaves ends_bind_ok)

variable {σ : Type} {studio : Studio (StateM σ) Exact} {project : Project Exact}
  {canvas : Canvas Exact}

/-- So the canvas of a render has a positive frame rate, wherever it comes from. -/
theorem isIn_fps_of_canvas {media : Manifest} {settings : OutputSettings Exact} {w : σ}
    (h : ((studio.canvas project media settings).run w).1 = .ok canvas) :
    canvas.fps.IsIn (Set.Ioi 0) := by
  have hlooked (look : StateM σ (Option (MediaInfo Exact))) (w : σ) :
      ((Canvas.resolveWith settings look).run w).1.fps.IsIn (Set.Ioi 0) := by
    rw [Canvas.resolveWith]
    split_ifs
    · exact Canvas.isIn_fps_resolve _ _
    · exact Canvas.isIn_fps_resolve _ _
  rw [Studio.canvas] at h
  -- without a video nothing is looked at; with one its source is resolved first, which may fail
  cases hfirst : project.firstVideo? with
  | none =>
    rw [hfirst] at h
    rw [← Except.ok.inj h]
    exact hlooked _ w
  | some video =>
    rw [hfirst] at h
    dsimp only at h
    rw [StateT.run_bind] at h
    rcases hrun : (studio.storage.source media video.sourceId).run w with ⟨answer, after⟩
    rw [hrun] at h
    cases answer with
    | error e => cases h
    | ok path =>
      rw [← Except.ok.inj h]
      exact hlooked _ after

theorem wellFormed_reach (stage : Stage) :
    (studio.reach stage : RenderT Exact (StateM σ) Unit).Leaves JobsWellFormed :=
  (Leaves.observe additive _).bind additive fun _ ↦ .record (of_no_job rfl)

/-- An assembly, stage by stage: the pieces last by the plan, hence the base, which the overlays do
not change, hence the mixes. -/
theorem wellFormed_assemble (hvalid : project.issues = []) {s : Session (StateM σ) Exact}
    (hfps : s.canvas.fps.IsIn (Set.Ioi 0)) :
    (studio.assemble s (.ofProject project canvas)).Leaves JobsWellFormed := by
  have hblend (i : ℕ) (blend : TransitionStyle × Exact)
      (h : (Composition.ofProject project canvas).blendAfter? i = some blend) :
      blend.2.IsIn (Set.Ioi 0) := by
    obtain ⟨d, hd, hpos, -⟩ := Composition.exists_length_of_blendAfter? hvalid h
    exact ⟨d, hpos, hd⟩
  refine (wellFormed_reach _).bind additive fun _ ↦
    (Leaves.mapM_of_mem additive fun entry hentry ↦
      Session.wellFormed_renderEntry hvalid hfps hentry).bind_of_ends additive
        fun p pieces t hentries ↦ ?_
  obtain ⟨_, hrun, -⟩ := Session.ends_renderEntries hentries
  -- the plan bounds the pieces from below, which is more than that they last
  have hpieces : ∀ piece ∈ pieces, piece.rendered.duration.IsIn (Set.Ioi 0) := by
    intro piece hpiece
    obtain ⟨r, hr⟩ := Composition.exists_measured_of_run hvalid (fun _ h ↦ h) hrun piece hpiece
    exact ⟨r, lt_trans (by norm_num) hr.floor_lt, hr.duration_eq⟩
  refine (wellFormed_reach _).bind additive fun _ ↦
    (Session.wellFormed_mergePieces hfps hblend hpieces).bind_of_ends additive
      fun p base t hmerge ↦ ?_
  obtain ⟨first, rest, _, rfl, hsequence, -⟩ := Session.ends_mergePieces hmerge
  obtain ⟨hfirst, hrest⟩ := List.forall_mem_cons.1 hpieces
  have hbase : base.duration.IsIn (Set.Ioi 0) := hsequence.isIn hfirst hrest hblend
  have hissues := project.issues_clip hvalid
  refine (wellFormed_reach _).bind additive fun _ ↦
    (Session.wellFormed_addOverlays hfps (fun clip hclip ↦
      hissues clip (Layers.mem_of_mem_overlays _ _ hclip)) hbase).bind_of_ends additive
        fun p painted t hpainted ↦ (wellFormed_reach _).bind additive fun _ ↦
          Session.wellFormed_addSounds (fun clip hclip ↦
            hissues clip (Layers.mem_of_mem_audio _ _ hclip)) ?_
  rw [(Session.keeps_addOverlays hpainted).1]
  exact hbase

/-- The delivery has no jobs. -/
theorem wellFormed_renderPlanned (hvalid : project.issues = [])
    (hfps : canvas.fps.IsIn (Set.Ioi 0)) (media : Manifest) (destination : Path)
    (options : RenderOptions) (workdir : Path) :
    (studio.renderPlanned project media (.ofProject project canvas) destination options
      workdir).Leaves JobsWellFormed := by
  refine Leaves.bind additive (wellFormed_assemble hvalid hfps) fun rendered ↦
    (wellFormed_reach _).bind additive fun _ ↦ (Leaves.perform additive _).bind additive
      fun output ↦ (Leaves.record (of_no_job rfl)).bind additive fun _ ↦ ?_
  have hcomplete (report : RenderReport Exact) :
      (studio.reach .complete >>= fun _ ↦ pure report :
        RenderT Exact (StateM σ) (RenderReport Exact)).Leaves JobsWellFormed :=
    (wellFormed_reach _).bind additive fun _ ↦ .pure additive report
  cases options.trace with
  | false => exact (Leaves.pure additive none).bind additive fun _ ↦ hcomplete _
  | true =>
    exact ((leaves_leaveTrace additive _ _ _ _).map additive some).bind additive
      fun _ ↦ hcomplete _

/-- Every job that a render gives to the engine is well formed, however the render ends and
whatever the engine, the storage and the workspace answer. -/
theorem wellFormed_of_ends_render {media : Manifest} {destination : Path}
    {settings : OutputSettings Exact} {options : RenderOptions} {p q : Situation Exact σ}
    {r : Except Failure (RenderReport Exact)}
    (h : (studio.render project media destination settings options).Ends p r q) :
    ∃ events, p.Adds events q ∧ ∀ job ∈ events.filterMap Event.job?, job.IsWellFormed := by
  refine Leaves.bind additive (wellFormed_reach _) (fun _ ↦
    Leaves.bind_of_ends additive (.ofExcept additive _) fun p _ t hcheck ↦
      (wellFormed_reach _).bind additive fun _ ↦
        Leaves.bind_of_ends additive (.perform additive _) fun p canvas t hcanvas ↦
          (wellFormed_reach _).bind additive fun _ ↦ leaves_inFreshDir (fun _ ↦ additive.nil _)
            fun dir ↦ ?_) p r q h
  have hvalid := issues_of_check (RenderT.ends_ofExcept.1 hcheck).1.symm
  have hfps := isIn_fps_of_canvas (RenderT.ends_perform.1 hcanvas).1.symm
  exact wellFormed_renderPlanned hvalid hfps media destination options dir

end Studio

namespace Sample

/-- Effects that are out of range, infinite or no number. -/
def wild : Effects Exact where
  opacity? := some .nan
  brightness? := some (.infinite false)
  contrast? := some .nan
  volume? := some (.infinite true)
  fadeIn? := some (number (-1))
  audioFadeOut? := some .nan
  speed? := some (number 100)
  blur? := some (.infinite false)

/-- Two videos that blend, a picture over them and a sound, all of them with wild effects. -/
def wildProject : Project Exact where
  tracks := [⟨none, [
    video "a" 0.0 2.0 none
      { wild with transition? := some "fade", transitionDuration? := some 9.0 },
    video "b" 2.0 1.0 none wild,
    ⟨"title", 0.0, 0.01, 1, none, .text ⟨none, none, none, look wild⟩⟩,
    ⟨"music", 0.0, 0.01, 0, none, .audio ⟨"sound", .infinite false, wild⟩⟩]⟩]
  outputSettings? := none

end Sample

/-- Wild effects do no harm. -/
theorem Studio.wellFormed_sample : ∃ report q,
    (Sample.studio.render Sample.wildProject Sample.media ⟨"out.mp4"⟩ {} {}).Ends
      ⟨{}, ()⟩ (.ok report) q ∧
    ∃ events, Situation.Adds ⟨{}, ()⟩ events q ∧
      ∀ job ∈ events.filterMap Event.job?, job.IsWellFormed := by
  have hends : ∃ report q,
      (Sample.studio.render Sample.wildProject Sample.media ⟨"out.mp4"⟩ {} {}).Ends
        ⟨{}, ()⟩ (.ok report) q := by
    have hcanvas : ((Sample.studio.canvas Sample.wildProject Sample.media {}).run ()).1 =
        .ok Sample.canvas := by cbv
    have hcheck : Sample.wildProject.check {} = .ok () := by
      rw [Project.check, if_neg (by decide +kernel), if_pos (by decide +kernel)]
    refine RenderT.exists_ends ?_
    rw [outcome_render hcheck hcanvas, Composition.ofProject, Layers.ofClips_of_sorted
      (by decide +kernel) (by decide +kernel) (by decide +kernel)]
    decide +kernel
  obtain ⟨report, q, h⟩ := hends
  exact ⟨report, q, h, wellFormed_of_ends_render h⟩

end Splice
