import Mathlib.Data.List.Forall2
import Splice.Job.Graph
import Splice.Proofs.Render.EdgeFades

/-!
# Rotations

The angles by which the jobs of a render turn a clip. A clip of the base is turned in the segment
that is cut from it, a picture or a shape in the job that paints it, once each. A video among the
overlays takes both jobs, and both read the rotation of the clip: the segment is turned before it is
painted, and painting turns it again, so that it is seen at twice its angle (`Clip.TurnedBy`).

That a job does a task says nothing of its steps, so a task is given the angles that its job must
have (`Task.TurnedBy`). Only segments and overlays have any. For these the jobs are followed to
where they are made; for all other tasks it is enough that they are done.
-/

namespace Splice

variable {α σ : Type}

/-! ### Angles of jobs -/

/-- The angle by which a step turns the picture of a segment. -/
def VideoFilter.angle? : VideoFilter α → Option α
  | rotate degrees => some degrees
  | _ => none

/-- The angle by which a step turns the picture of an overlay. -/
def LayerFilter.angle? : LayerFilter α → Option α
  | rotate degrees => some degrees
  | _ => none

/-- An optional step, seen through a partial function. -/
theorem filterMap_listIf {β γ : Type} (f : β → Option γ) (holds : Bool) (item : β) :
    (listIf holds item).filterMap f = if holds then (f item).toList else [] := by
  cases holds with
  | false => rfl
  | true =>
    show [item].filterMap f = (f item).toList
    cases h : f item <;> simp [h]

section Angles

variable [Scalar α]

/-- The angles by which the steps of a job turn a picture. -/
def Job.angles : Job α → List α
  | segment job => job.videoFilters.filterMap VideoFilter.angle?
  | overlay job => job.layerFilters.filterMap LayerFilter.angle?
  | _ => []

/-- The angle of a rotation that can be seen. -/
def visibleAngles (rotation : α) : List α := listIf (isRotated rotation) rotation

/-- Among the steps of a segment only the rotation turns the picture. -/
theorem Job.angles_segment (job : Job.Segment α) :
    (segment job).angles = visibleAngles job.rotation := by
  simp only [angles, Segment.videoFilters, List.filterMap_append, filterMap_listIf,
    VideoFilter.angle?]
  cases job.crop? <;> simp [List.filterMap_cons, VideoFilter.angle?, visibleAngles, listIf]

/-- The steps for the opacity turn nothing. -/
theorem Job.Overlay.filterMap_opacityFilters (job : Job.Overlay α) :
    job.opacityFilters.filterMap LayerFilter.angle? = [] := by
  rw [opacityFilters]
  split
  · simp [filterMap_listIf, LayerFilter.angle?]
  · rfl

/-- Nor do those for the margins. -/
theorem Job.Overlay.filterMap_padFilters (job : Job.Overlay α) :
    job.padFilters.filterMap LayerFilter.angle? = [] := by
  rw [padFilters]
  split <;> rfl

/-- So an overlay is turned by its rotation, if by anything. -/
theorem Job.angles_overlay (job : Job.Overlay α) :
    (overlay job).angles = visibleAngles job.rotation := by
  rw [angles, Overlay.layerFilters, List.filterMap_append, List.filterMap_append,
    List.filterMap_append, job.filterMap_opacityFilters, job.filterMap_padFilters,
    filterMap_listIf, List.append_nil, List.append_nil]
  rfl

/-- A merge turns nothing. -/
theorem Job.angles_of_isMerge {job : Job α} (h : job.isMerge = true) : job.angles = [] := by
  cases job with
  | transition | concat => rfl
  | _ => cases h

/-! ### Angles of clips -/

/-- The angle by which a clip is to be turned, if it has a picture and is turned at all. Texts are
not turned. -/
def Clip.angles (clip : Clip α) : List α :=
  match clip.content with
  | .video media => visibleAngles media.look.rotation
  | .image media => visibleAngles media.look.rotation
  | .shape shape => visibleAngles shape.look.rotation
  | .text _ => []
  | .audio _ => []

/-- Whether a task is to make a picture of a clip that may be turned. -/
def Task.isPicture : Task α → Bool
  | segment _ => true
  | overlay _ => true
  | _ => false

/-- The angles that the job of a task must have. -/
def Task.angles : Task α → List α
  | segment clip => clip.angles
  | overlay clip => clip.angles
  | _ => []

/-- A job that carries out a task and turns the picture as it is to be turned. -/
structure Task.TurnedBy (total : α) (task : Task α) (job : Job α) : Prop where
  done : task.DoneBy total job
  angles_eq : job.angles = task.angles

/-- A task that makes no picture is turned by any job that does it. -/
theorem Task.TurnedBy.of_doneBy {total : α} {task : Task α} {job : Job α}
    (h : task.DoneBy total job) (hpicture : task.isPicture = false) : task.TurnedBy total job where
  done := h
  angles_eq := by
    cases h with
    | segment | overlay => cases hpicture
    | _ => rfl

/-- All angles of a list of jobs are those of the tasks. -/
theorem Task.flatMap_angles {total : α} {tasks : List (Task α)} {jobs : List (Job α)}
    (h : List.Forall₂ (TurnedBy total) tasks jobs) :
    jobs.flatMap Job.angles = tasks.flatMap angles := by
  induction h with
  | nil => rfl
  | cons hturned _ ih => rw [List.flatMap_cons, List.flatMap_cons, hturned.angles_eq, ih]

/-- The tasks of an overlay turn it once if it is not a video. -/
theorem Clip.flatMap_angles_paintTasks {clip : Clip α} (h : clip.isVideo = false) :
    clip.paintTasks.flatMap Task.angles = clip.angles := by
  rw [isVideo, video?] at h
  rw [paintTasks]
  cases hcontent : clip.content with
  | video => rw [hcontent] at h; cases h
  | image | shape => exact List.append_nil _
  | text | audio => rw [angles, hcontent]; rfl

/-- The tasks of a video turn it twice. -/
theorem Clip.flatMap_angles_paintTasks_video {clip : Clip α} (h : clip.isVideo = true) :
    clip.paintTasks.flatMap Task.angles = clip.angles ++ clip.angles := by
  rw [isVideo, video?] at h
  rw [paintTasks]
  cases hcontent : clip.content with
  | video =>
    -- the mix of its sound turns nothing
    have hmix : (if 0.0 < clip.effects.volume then [Task.mix clip] else []).flatMap Task.angles =
        [] := by split_ifs <;> rfl
    rw [List.flatMap_append, hmix, List.append_nil, List.flatMap_cons, List.flatMap_singleton]
    rfl
  | image | text | shape | audio => rw [hcontent] at h; cases h

/-- How the jobs that paint an overlay turn it. -/
structure Clip.TurnedBy (total : α) (clip : Clip α) (jobs : List (Job α)) : Prop where
  /-- There is one job for every task of the overlay. -/
  tasks : List.Forall₂ (Task.TurnedBy total) clip.paintTasks jobs
  /-- All but videos are turned once. -/
  once : clip.isVideo = false → jobs.flatMap Job.angles = clip.angles
  /-- A video is turned in its segment, and again where this is painted. -/
  twice : clip.isVideo = true → jobs.flatMap Job.angles = clip.angles ++ clip.angles

/-- How often an overlay is turned follows from its tasks. -/
theorem Clip.TurnedBy.of_tasks {total : α} {clip : Clip α} {jobs : List (Job α)}
    (h : List.Forall₂ (Task.TurnedBy total) clip.paintTasks jobs) : clip.TurnedBy total jobs where
  tasks := h
  once hvideo := (Task.flatMap_angles h).trans (Clip.flatMap_angles_paintTasks hvideo)
  twice hvideo := (Task.flatMap_angles h).trans (Clip.flatMap_angles_paintTasks_video hvideo)

/-- How the jobs of a render turn the clips of a composition: the jobs of the entries, those of the
merges, those of every overlay, and those of the sounds. -/
structure Composition.TurnedBy (c : Composition α) (media : Manifest) (total : α)
    (cuts merges : List (Job α)) (paints : List (List (Job α))) (sounds : List (Job α)) :
    Prop where
  /-- There is one job for every entry. -/
  entries : List.Forall₂ (Task.TurnedBy total) (c.entries.map Entry.task) cuts
  /-- A clip of the base is turned in its segment. -/
  base : ∀ i clip, c.layers.base[i]? = some clip → ∃ (place : ℕ) (segment : Job.Segment α),
    c.entries[place]? = some (.clip i clip) ∧ cuts[place]? = some (.segment segment) ∧
    (Job.segment segment).Serves clip ∧ (Job.segment segment).angles = clip.angles
  /-- Merges turn nothing. -/
  merges : ∀ job ∈ merges, job.isMerge = true ∧ job.angles = []
  /-- An overlay is turned by the jobs that paint it. -/
  overlays : List.Forall₂ (Clip.TurnedBy total) c.layers.overlays paints
  /-- Sounds are cut and mixed in. -/
  sounds : List.Forall₂ (Task.TurnedBy total)
    (c.layers.audio.flatMap (Clip.soundTasks media)) sounds

/-- All jobs of a render, sorted by the clips that they are done for. -/
def Composition.Turns (c : Composition α) (media : Manifest) (jobs : List (Job α)) : Prop :=
  ∃ total cuts merges paints sounds, jobs = cuts ++ (merges ++ (paints.flatten ++ sounds)) ∧
    c.TurnedBy media total cuts merges paints sounds

end Angles

namespace Situation

variable {p q r : Situation α σ}

/-- The jobs are all that were given to the engine. -/
def Issues (p : Situation α σ) (jobs : List (Job α)) (q : Situation α σ) : Prop :=
  ∃ events, p.Adds events q ∧ events.filterMap Event.job? = jobs

theorem Issues.trans {a b : List (Job α)} (h : p.Issues a q) (h' : q.Issues b r) :
    p.Issues (a ++ b) r := by
  obtain ⟨first, hfirst, rfl⟩ := h
  obtain ⟨rest, hrest, rfl⟩ := h'
  exact ⟨first ++ rest, hfirst.trans hrest, List.filterMap_append⟩

end Situation

namespace Session

open RenderT (ends_bind_ok ends_pure)

variable [Scalar α] {s : Session (StateM σ) α} {p q : Situation α σ} {base file : RenderedFile α}

/-! ### Entries -/

/-- The segment of a video is turned by the rotation of the clip. -/
theorem turned_makeSegment (total : α) {clip : Clip α} {media : MediaClip α} {path : Path}
    {blended : BlendedEdges} (hcontent : clip.content = .video media)
    (h : (s.makeSegment clip media path blended).Ends p (.ok file) q) :
    ∃ job : Job.Segment α, (Task.segment clip).TurnedBy total (.segment job) ∧
      p.Adds [.ran (.segment job) none] q := by
  obtain ⟨-, job, hplays, -, hadds⟩ := ends_makeSegment h
  have hangles : (Job.segment job).angles = clip.angles := by
    rw [Job.angles_segment, hplays.rotation_eq, Clip.angles, hcontent]
  exact ⟨job, ⟨.segment (hplays.serves hcontent), hangles⟩, hadds⟩

/-- An entry is turned in its segment; a filler has nothing to turn. -/
theorem turned_renderEntry (total : α) {c : Composition α} {entry : Entry α} {piece : Piece α}
    (h : (s.renderEntry c entry).Ends p (.ok piece) q) :
    ∃ job, entry.task.TurnedBy total job ∧ p.Issues [job] q := by
  cases entryDone_of_ends_renderEntry h with
  | clip hcontent hsource hsegment hstep =>
    obtain ⟨job, hturned, hadds⟩ := turned_makeSegment total hcontent hsegment
    exact ⟨_, hturned, _, (hsource.trans hadds).trans hstep, rfl⟩
  | filler hfiller hstep =>
    obtain ⟨-, job, hduration, -, hadds⟩ := ends_renderFiller hfiller
    exact ⟨_, .of_doneBy (.blank hduration) rfl, _, hadds.trans hstep, rfl⟩

/-- All entries, by induction. -/
theorem turned_renderEntries (total : α) {c : Composition α} {entries : List (Entry α)}
    {pieces : List (Piece α)} (h : (entries.mapM (s.renderEntry c)).Ends p (.ok pieces) q) :
    ∃ jobs, List.Forall₂ (Task.TurnedBy total) (entries.map Entry.task) jobs ∧
      p.Issues jobs q := by
  induction entries generalizing p pieces with
  | nil =>
    obtain ⟨-, rfl⟩ := ends_pure.1 h
    exact ⟨[], .nil, [], .refl _, rfl⟩
  | cons entry rest ih =>
    obtain ⟨piece, t, hentry, pieces, hrest, -⟩ := RenderT.ends_mapM_cons_ok.1 h
    obtain ⟨job, hjob, hissue⟩ := turned_renderEntry total hentry
    obtain ⟨jobs, hjobs, hissues⟩ := ih hrest
    exact ⟨job :: jobs, .cons hjob hjobs, hissue.trans hissues⟩

/-! ### Overlays and sounds -/

omit [Scalar α] in
/-- The job that paints a clip takes the rotation that it is given. The segment of a video has taken
it before. -/
theorem rotation_of_ends_paintJob {clip : Clip α} {source : Job.OverlayPicture}
    {placement : Placement α} {stop rotation : α} {mode : FitMode} {job : Job.Overlay α}
    (h : (s.paintJob clip base source placement stop mode rotation).Ends p (.ok job) q) :
    job.rotation = rotation := by
  obtain ⟨output, t, hfresh, h⟩ := ends_bind_ok.1 h
  obtain ⟨hjob, rfl⟩ := ends_pure.1 h
  rw [Except.ok.inj hjob]

/-- The job that paints a clip turns it by the rotation that it is given. -/
theorem turned_paintJob (total : α) {clip : Clip α} {source : Job.OverlayPicture}
    {placement : Placement α} {stop rotation : α} {mode : FitMode} {job : Job.Overlay α}
    (hangles : clip.angles = visibleAngles rotation)
    (h : (s.paintJob clip base source placement stop mode rotation).Ends p (.ok job) q) :
    (Task.overlay clip).TurnedBy total (.overlay job) where
  done := .overlay (serves_of_ends_paintJob h)
  angles_eq := by rw [Job.angles_overlay, rotation_of_ends_paintJob h, ← hangles]; rfl

/-- A success that does tasks other than segments and overlays turns nothing. -/
theorem turned_of_does {β : Type} {x : RenderT α (StateM σ) β} {b : β} {total : α}
    {tasks : List (Task α)} {skipped : List SkippedAudio} (hclean : x.Leaves Clean)
    (h : x.Ends p (.ok b) q) (hdoes : p.Does (List.Forall₂ (Task.DoneBy total) tasks) skipped q)
    (htasks : ∀ task ∈ tasks, task.isPicture = false) :
    ∃ jobs, List.Forall₂ (Task.TurnedBy total) tasks jobs ∧ p.Issues jobs q := by
  obtain ⟨events, hadds, -, hdone⟩ := exists_clean_of_does hclean h hdoes
  refine ⟨_, ?_, events, hadds, rfl⟩
  refine ((List.forall₂_and_left _ _).2 ⟨htasks, hdone⟩).imp fun _ _ hboth ↦ ?_
  exact .of_doneBy hboth.2 hboth.1

/-- Sounds make no picture. -/
theorem isPicture_of_mem_soundTasks {media : Manifest} {clip : Clip α} {task : Task α}
    (h : task ∈ clip.soundTasks media) : task.isPicture = false := by
  rw [Clip.soundTasks] at h
  split at h
  · split_ifs at h
    · rcases List.mem_pair.1 h with rfl | rfl <;> rfl
    · cases h
  · cases h

/-- All sounds, which turn nothing. -/
theorem turned_addSounds [LawfulScalar α] {clips : List (Clip α)}
    (h : (s.addSounds base clips).Ends p (.ok file) q) :
    ∃ jobs, List.Forall₂ (Task.TurnedBy base.duration)
      (clips.flatMap (Clip.soundTasks s.media)) jobs ∧ p.Issues jobs q := by
  refine turned_of_does (leaves_addSounds bearing_clean base clips) h (carries_addSounds h).2 ?_
  intro task htask
  obtain ⟨clip, -, hmem⟩ := List.mem_flatMap.1 htask
  exact isPicture_of_mem_soundTasks hmem

/-- An overlaid video: the segment is turned, and then what paints it. -/
theorem turned_paintVideo {clip : Clip α} {media : MediaClip α}
    (hcontent : clip.content = .video media)
    (h : (s.paintVideo base clip media).Ends p (.ok file) q) :
    ∃ jobs, List.Forall₂ (Task.TurnedBy base.duration) clip.paintTasks jobs ∧
      p.Issues jobs q := by
  -- the segment, the painting and the mix, each with its own run
  obtain ⟨input, t, hsource, h⟩ := ends_bind_ok.1 h
  obtain ⟨segment, u, hsegment, h⟩ := ends_bind_ok.1 h
  obtain ⟨job, v, hjob, h⟩ := ends_bind_ok.1 h
  obtain ⟨painted, w, hrun, h⟩ := ends_bind_ok.1 h
  obtain ⟨cut, hcut, hadds⟩ := turned_makeSegment base.duration hcontent hsegment
  -- the segment is turned already, and it is painted with the same rotation
  have hpaint : (Task.overlay clip).TurnedBy base.duration (.overlay job) :=
    turned_paintJob base.duration (by rw [Clip.angles, hcontent]) hjob
  have hpainted : p.Issues [.segment cut, .overlay job] w :=
    ⟨_, ((adds_of_ends_source hsource).trans hadds).trans
      ((adds_of_ends_paintJob hjob).trans (ends_run hrun).2), rfl⟩
  rw [Clip.paintTasks, hcontent]
  dsimp only at h
  dsimp only
  split_ifs at h ⊢
  · obtain ⟨mixes, hmixes, hissues⟩ := turned_of_does (leaves_mixSound bearing_clean _ _ _ _) h
      (carries_mixSound h).2 (by simp [Task.isPicture])
    exact ⟨_, .cons hcut (.cons hpaint hmixes), hpainted.trans hissues⟩
  · obtain ⟨-, rfl⟩ := ends_pure.1 h
    exact ⟨_, .cons hcut (.cons hpaint .nil), hpainted⟩

theorem turned_paintPicture {clip : Clip α} {media : MediaClip α}
    (hcontent : clip.content = .image media)
    (h : (s.paintPicture base clip media).Ends p (.ok file) q) :
    ∃ jobs, List.Forall₂ (Task.TurnedBy base.duration) clip.paintTasks jobs ∧
      p.Issues jobs q := by
  obtain ⟨path, t, hasset, h⟩ := ends_bind_ok.1 h
  obtain ⟨job, u, hjob, h⟩ := ends_bind_ok.1 h
  obtain ⟨painted, v, hrun, h⟩ := ends_bind_ok.1 h
  obtain ⟨-, rfl⟩ := ends_pure.1 h
  have hpaint : (Task.overlay clip).TurnedBy base.duration (.overlay job) :=
    turned_paintJob base.duration (by rw [Clip.angles, hcontent]) hjob
  rw [Clip.paintTasks, hcontent]
  exact ⟨_, .cons hpaint .nil, _, (adds_of_ends_asset hasset).trans
    ((adds_of_ends_paintJob hjob).trans (ends_run hrun).2), rfl⟩

/-- A shape is drawn upright, and turned where it is painted. -/
theorem turned_paintShape {clip : Clip α} {shape : ShapeClip α}
    (hcontent : clip.content = .shape shape)
    (h : (s.paintShape base clip shape).Ends p (.ok file) q) :
    ∃ jobs, List.Forall₂ (Task.TurnedBy base.duration) clip.paintTasks jobs ∧
      p.Issues jobs q := by
  obtain ⟨drawing, t, hfresh, h⟩ := ends_bind_ok.1 h
  obtain ⟨_, u, hdraw, h⟩ := ends_bind_ok.1 h
  obtain ⟨job, v, hjob, h⟩ := ends_bind_ok.1 h
  obtain ⟨painted, w, hrun, h⟩ := ends_bind_ok.1 h
  obtain ⟨-, rfl⟩ := ends_pure.1 h
  have hpaint : (Task.overlay clip).TurnedBy base.duration (.overlay job) :=
    turned_paintJob base.duration (by rw [Clip.angles, hcontent]) hjob
  rw [Clip.paintTasks, hcontent]
  exact ⟨_, .cons hpaint .nil, _, ((adds_of_ends_freshPath hfresh).trans
    (adds_of_ends_drawInto hdraw)).trans ((adds_of_ends_paintJob hjob).trans (ends_run hrun).2),
    rfl⟩

/-- An overlay of any kind. Texts are not turned, so for them it is enough that their tasks are
done. -/
theorem turned_addOverlay {clip : Clip α} (h : (s.addOverlay base clip).Ends p (.ok file) q) :
    ∃ jobs, clip.TurnedBy base.duration jobs ∧ p.Issues jobs q := by
  -- the angles follow from the tasks, so the cases need not speak of them
  suffices hturned : ∃ jobs, List.Forall₂ (Task.TurnedBy base.duration) clip.paintTasks jobs ∧
      p.Issues jobs q by
    obtain ⟨jobs, hjobs, hissues⟩ := hturned
    exact ⟨jobs, .of_tasks hjobs, hissues⟩
  cases hcontent : clip.content with
  | video media =>
    rw [addOverlay, hcontent] at h
    exact turned_paintVideo hcontent h
  | image media =>
    rw [addOverlay, hcontent] at h
    exact turned_paintPicture hcontent h
  | shape shape =>
    rw [addOverlay, hcontent] at h
    exact turned_paintShape hcontent h
  | text _ | audio _ =>
    refine turned_of_does (leaves_addOverlay bearing_clean base clip) h (carries_addOverlay h).2 ?_
    rw [Clip.paintTasks, hcontent]
    simp [Task.isPicture]

/-- All overlays, with the jobs of each of them kept together. -/
theorem turned_addOverlays {clips : List (Clip α)}
    (h : (s.addOverlays base clips).Ends p (.ok file) q) :
    ∃ paints, List.Forall₂ (Clip.TurnedBy base.duration) clips paints ∧
      p.Issues paints.flatten q := by
  induction clips generalizing p base with
  | nil =>
    obtain ⟨-, rfl⟩ := ends_pure.1 h
    exact ⟨[], .nil, [], .refl _, rfl⟩
  | cons clip rest ih =>
    rw [addOverlays, List.foldlM_cons] at h
    obtain ⟨middle, t, hclip, hrest⟩ := ends_bind_ok.1 h
    obtain ⟨jobs, hjobs, hissue⟩ := turned_addOverlay hclip
    obtain ⟨paints, hpaints, hissues⟩ := ih hrest
    rw [(keeps_addOverlay hclip).1] at hpaints
    exact ⟨jobs :: paints, .cons hjobs hpaints, hissue.trans hissues⟩

end Session

/-! ### Merges -/

section Merges

variable [Scalar α]

/-- The jobs of a merge merge, the one that failed too. -/
theorem MergeRun.isMerge_of_mem {left right result : α} {seam? : Option (Seam α)}
    {events : List (Event α)} (h : MergeRun left right seam? result events) :
    ∀ job ∈ events.filterMap Event.job?, job.isMerge = true := by
  cases h with
  | blend | concat => exact List.forall_mem_singleton.2 rfl
  | fallback => exact List.forall_mem_cons.2 ⟨rfl, List.forall_mem_singleton.2 rfl⟩

/-- The jobs of merges merge, those that failed too. -/
theorem SequenceRun.isMerge_of_mem {blendAfter? : ℕ → Option (TransitionStyle × α)}
    {running result : α} {last? : Option (ℕ × String)} {pieces : List (Piece α)}
    {events : List (Event α)} (h : SequenceRun blendAfter? running last? pieces result events) :
    ∀ job ∈ events.filterMap Event.job?, job.isMerge = true := by
  induction h with
  | nil => exact List.forall_mem_nil _
  | cons head _ ih =>
    rw [List.filterMap_append]
    exact List.forall_mem_append.2 ⟨head.isMerge_of_mem, ih⟩

/-- All merges, which turn nothing. -/
theorem Session.turned_mergePieces {s : Session (StateM σ) α} {p q : Situation α σ}
    {file : RenderedFile α} {blendAfter? : ℕ → Option (TransitionStyle × α)}
    {pieces : List (Piece α)} (h : (s.mergePieces blendAfter? pieces).Ends p (.ok file) q) :
    ∃ jobs : List (Job α), (∀ job ∈ jobs, job.isMerge = true ∧ job.angles = []) ∧
      p.Issues jobs q := by
  obtain ⟨first, rest, events, -, hrun, hadds⟩ := ends_mergePieces h
  refine ⟨_, fun job hjob ↦ ?_, events, hadds, rfl⟩
  have hmerge := hrun.isMerge_of_mem job hjob
  exact ⟨hmerge, Job.angles_of_isMerge hmerge⟩

end Merges

/-! ### Renders -/

section Renders

variable [Scalar α]

/-- The parts of a render put together. A clip of the base is found at its place among the entries.
-/
theorem Composition.turnedBy_of_parts {project : Project α} {canvas : Canvas α} {media : Manifest}
    {total : α} {cuts merges : List (Job α)} {paints : List (List (Job α))} {sounds : List (Job α)}
    (hcuts : List.Forall₂ (Task.TurnedBy total)
      ((ofProject project canvas).entries.map Entry.task) cuts)
    (hmerges : ∀ job ∈ merges, job.isMerge = true ∧ job.angles = [])
    (hpaints : List.Forall₂ (Clip.TurnedBy total) (ofProject project canvas).layers.overlays paints)
    (hsounds : List.Forall₂ (Task.TurnedBy total)
      ((ofProject project canvas).layers.audio.flatMap (Clip.soundTasks media)) sounds) :
    (ofProject project canvas).TurnedBy media total cuts merges paints sounds where
  entries := hcuts
  base i clip hclip := by
    -- fillers stand between the clips, so the place among the entries is another one
    obtain ⟨place, hplace⟩ := Entry.exists_place hclip
    have htask : ((ofProject project canvas).entries.map Entry.task)[place]? =
        some (.segment clip) := by
      rw [List.getElem?_map]
      exact congrArg (Option.map Entry.task) hplace
    obtain ⟨job, hjob, hdone, hangles⟩ := exists_job_of_forall₂ hcuts htask
    cases hdone with
    | segment hserves => exact ⟨place, _, hplace, hjob, hserves, hangles⟩
  merges := hmerges
  overlays := hpaints
  sounds := hsounds

namespace Studio

variable {studio : Studio (StateM σ) α} {p q : Situation α σ} {project : Project α}
  {canvas : Canvas α} {media : Manifest}

variable [LawfulScalar α]

/-- An assembly, part after part. -/
theorem turns_of_ends_assemble {session : Session (StateM σ) α} {file : RenderedFile α}
    (h : (studio.assemble session (.ofProject project canvas)).Ends p (.ok file) q) :
    ∃ jobs, p.Issues jobs q ∧ (Composition.ofProject project canvas).Turns session.media jobs := by
  obtain ⟨pieces, base, painted, p₁, p₂, p₃, p₄, p₅, p₆, p₇, hreach₁, hentries, hreach₂, hmerge,
    hreach₃, hoverlays, hreach₄, haudio⟩ := ends_assemble h
  obtain ⟨cuts, hcuts, hcut⟩ := Session.turned_renderEntries base.duration hentries
  obtain ⟨merges, hmerges, hmerged⟩ := Session.turned_mergePieces hmerge
  obtain ⟨paints, hpaints, hpaint⟩ := Session.turned_addOverlays hoverlays
  obtain ⟨sounds, hsounds, hsound⟩ := Session.turned_addSounds haudio
  rw [(Session.keeps_addOverlays hoverlays).1] at hsounds
  refine ⟨_, ?_, base.duration, cuts, merges, paints, sounds, rfl,
    Composition.turnedBy_of_parts hcuts hmerges hpaints hsounds⟩
  have hreach {stage : Stage} {t u : Situation α σ} (h : t.Adds [.reached stage] u) :
      t.Issues [] u := ⟨_, h, rfl⟩
  exact ((hreach hreach₁).trans hcut).trans (((hreach hreach₂).trans hmerged).trans
    (((hreach hreach₃).trans hpaint).trans ((hreach hreach₄).trans hsound)))

/-- The jobs of a successful render turn every clip of the base, every picture and every shape once,
by the rotation of the clip, and every video among the overlays twice. -/
theorem turns_of_ends_render {destination : Path} {settings : OutputSettings α}
    {options : RenderOptions} {report : RenderReport α}
    (h : (studio.render project media destination settings options).Ends p (.ok report) q) :
    ∃ jobs, p.Issues jobs q ∧ (Composition.ofProject project report.canvas).Turns media jobs := by
  obtain ⟨workdir, t, u, hbefore, hplanned, hafter⟩ := ends_render h
  obtain ⟨-, rendered, v, hassemble, -, hdelivered⟩ := ends_renderPlanned hplanned
  obtain ⟨jobs, hjobs, hturns⟩ := turns_of_ends_assemble hassemble
  -- before and after the assembly there are no jobs
  have hprepared : p.Issues [] t := ⟨_, hbefore, rfl⟩
  have hfinished : v.Issues [] q := ⟨_, hdelivered.trans hafter, rfl⟩
  have hissues := (hprepared.trans hjobs).trans hfinished
  rw [List.nil_append, List.append_nil] at hissues
  exact ⟨jobs, hissues, hturns⟩

end Studio

end Renders

/-! ### A video on its side -/

namespace Sample

/-- A video on its side. -/
def front : Clip Exact :=
  ⟨"front", 0.0, 1.0, 2, none, .video ⟨"source", 0.0, none, { look {} with rotation := 90.0 }⟩⟩

/-- The video over another one, which is upside down, and over a tilted picture. -/
def tilted : Project Exact where
  tracks := [⟨none, [
    ⟨"back", 0.0, 2.0, 0, none, .video ⟨"source", 0.0, none, { look {} with rotation := 180.0 }⟩⟩,
    ⟨"logo", 0.0, 1.0, 1, none, .image ⟨"photo", 0.0, none, { look {} with rotation := 45.0 }⟩⟩,
    front]⟩]
  outputSettings? := none

/-- The media of these clips. -/
def tiltedMedia : Manifest := ⟨[("source", "source.mp4")], [("photo", "photo.png")]⟩

/-- The sample is rendered, by evaluation: the angle of the video on its side stands twice. -/
theorem exists_ends_tilted : ∃ report q,
    (studio.render tilted tiltedMedia ⟨"out.mp4"⟩ {} {}).Ends ⟨{}, ()⟩ (.ok report) q ∧
    q.journal.jobs.map (fun job ↦ (job.output.text, job.angles)) = [
      ("work/000_segment_back.mp4", [180.0]), ("work/001_segment_front.mp4", [90.0]),
      ("work/002_overlay_front.mp4", [90.0]), ("work/003_mix_front.mp4", []),
      ("work/004_overlay_logo.mp4", [45.0])] := by
  have hcanvas : ((studio.canvas tilted tiltedMedia {}).run ()).1 = .ok canvas := by cbv
  have hcheck : tilted.check {} = .ok () := by
    rw [Project.check, if_neg (by decide +kernel), if_pos (by decide +kernel)]
  have houtcome : (studio.render tilted tiltedMedia ⟨"out.mp4"⟩ {} {}).outcome ⟨{}, ()⟩ = _ :=
    Studio.outcome_render hcheck hcanvas
  rw [Composition.ofProject, Layers.ofClips_of_sorted (by decide +kernel) (by decide +kernel)
    (by decide +kernel)] at houtcome
  refine RenderT.exists_ends_and ?_ ?_
  · rw [houtcome]
    decide +kernel
  · rw [houtcome]
    decide +kernel

end Sample

/-- A picture that is turned once, a video upside down that is turned once, and a video on its side
that is turned twice. -/
theorem Studio.turns_tilted : ∃ report q,
    (Sample.studio.render Sample.tilted Sample.tiltedMedia ⟨"out.mp4"⟩ {} {}).Ends ⟨{}, ()⟩
      (.ok report) q ∧
    ∃ jobs, Situation.Issues ⟨{}, ()⟩ jobs q ∧
      (Composition.ofProject Sample.tilted report.canvas).Turns Sample.tiltedMedia jobs := by
  obtain ⟨report, q, h, -⟩ := Sample.exists_ends_tilted
  exact ⟨report, q, h, turns_of_ends_render h⟩

/-- Two jobs turn a picture by the angle of the video on its side, which no other clip has. -/
theorem Studio.turned_twice_tilted : ∃ report q,
    (Sample.studio.render Sample.tilted Sample.tiltedMedia ⟨"out.mp4"⟩ {} {}).Ends ⟨{}, ()⟩
      (.ok report) q ∧
    (q.journal.jobs.map Job.angles).count Sample.front.angles = 2 ∧
    Sample.front.angles = [90.0] ∧
    ∀ clip ∈ Sample.tilted.clips, clip.angles = Sample.front.angles → clip.id = "front" := by
  obtain ⟨report, q, h, hjobs⟩ := Sample.exists_ends_tilted
  have hangles := congrArg (List.map Prod.snd) hjobs
  rw [List.map_map] at hangles
  refine ⟨report, q, h, ?_, by decide +kernel, by decide +kernel⟩
  rw [show q.journal.jobs.map Job.angles = _ from hangles]
  decide +kernel

end Splice
