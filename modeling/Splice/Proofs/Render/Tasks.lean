import Mathlib.Data.List.Forall2
import Splice.Proofs.Render.Assembly
import Splice.Proofs.Render.Lineage
import Splice.Proofs.Render.Outcomes

/-!
# Tasks

What a composition asks for is a list of tasks (`Composition.tasks`), computed from the composition
and the manifest alone: one for every entry, one for every seam between two entries, those of every
overlay in the order of painting, and those of every sound in the order of starts.

Every operation of a session does its tasks in their order (`Situation.Does`): the lemmas `does_…`
and `carries_…` give the jobs of one operation, and two inductions, on the list of pieces
(`Session.does_mergeOnto`) and on the list of clips (`Session.carries_foldlM`), give those of the
loops. Only a blend can go on after a failure, by doing its job again, so that only there the
assumption is used that no job fails.
-/

namespace Splice

variable {α σ : Type}

/-! ### Tasks -/

/-- One job that a render has to do. -/
inductive Task (α : Type) where
  | segment (clip : Clip α)
  | blank (filler : Filler α)
  | merge (seam? : Option (Seam α))
  | overlay (clip : Clip α)
  | text (clip : Clip α)
  | trim (clip : Clip α)
  | mix (clip : Clip α)

/-- The name of the operation that carries out a task. -/
def Task.operation : Task α → String
  | segment _ => "segment"
  | blank _ => "blank"
  | merge (some _) => "transition"
  | merge none => "concat"
  | overlay _ => "overlay"
  | text _ => "text"
  | trim _ => "audio_trim"
  | mix _ => "audio_mix"

/-- The task of an entry of the base sequence. -/
def Entry.task : Entry α → Task α
  | clip _ c => .segment c
  | filler f => .blank f

/-- What is asked for between the entries of the base sequence: a transition, or none. -/
def Composition.seams (c : Composition α) : List (Option (Seam α)) :=
  Seam.all c.blendAfter? (c.entries.map Entry.label)

/-- The sound that is left out for a clip, if its source is a video. -/
def Clip.leftOut? (media : Manifest) (clip : Clip α) : Option SkippedAudio :=
  match clip.content with
  | .audio audio =>
    if media.hasSource audio.sourceId then some ⟨clip.id, audio.sourceId⟩ else none
  | _ => none

section Scalar

variable [Scalar α]

/-- A volume is a number, so that a sound that is not muted can be heard. -/
theorem Effects.zero_lt_volume [LawfulScalar α] (effects : Effects α)
    (h : ¬ effects.volume ≤ 0.0) : 0.0 < effects.volume := by
  by_contra hsilent
  refine h (Scalar.le_of_not_lt (Scalar.isNaN_of_isFinite ?_) ?_ hsilent)
  · rw [Scalar.isFinite, LawfulScalar.denote_zero]
    rfl
  · rw [volume, Scalar.finiteElse]
    cases hvolume : effects.volume?.filter Scalar.isFinite with
    | none =>
      rw [Option.getD_none, Scalar.isNaN, LawfulScalar.denote_one]
      rfl
    | some x => exact Scalar.isNaN_of_isFinite (Option.filter_eq_some_iff.1 hvolume).2

/-- The tasks of an overlay. -/
def Clip.paintTasks (clip : Clip α) : List (Task α) :=
  match clip.content with
  | .video _ =>
    [.segment clip, .overlay clip] ++ if 0.0 < clip.effects.volume then [.mix clip] else []
  | .image _ => [.overlay clip]
  | .shape _ => [.overlay clip]
  | .text _ => [.text clip]
  | .audio _ => []

/-- The tasks of a sound. -/
def Clip.soundTasks (media : Manifest) (clip : Clip α) : List (Task α) :=
  match clip.content with
  | .audio audio =>
    if media.hasSource audio.sourceId = false ∧ 0.0 < audio.effects.volume then
      [.trim clip, .mix clip]
    else []
  | _ => []

/-- All tasks of a composition, in their order. -/
def Composition.tasks (c : Composition α) (media : Manifest) : List (Task α) :=
  c.entries.map Entry.task ++ (c.seams.map Task.merge ++
    (c.layers.overlays.flatMap Clip.paintTasks ++
      c.layers.audio.flatMap (Clip.soundTasks media)))

/-- A job that carries out a task, in a render whose result is as long as given. -/
inductive Task.DoneBy (total : α) : Task α → Job α → Prop
  | segment {clip : Clip α} {job : Job.Segment α} (h : (Job.segment job).Serves clip) :
    DoneBy total (.segment clip) (.segment job)
  | blank {filler : Filler α} {job : Job.Blank α} (h : job.duration = filler.duration) :
    DoneBy total (.blank filler) (.blank job)
  | blend {style : TransitionStyle} {duration : α} {fromId toId : String}
    {job : Job.Transition α} (hstyle : job.style = style) (hduration : job.duration = duration) :
    DoneBy total (.merge (some (style, duration, fromId, toId))) (.transition job)
  | concat {job : Job.Concat} : DoneBy total (.merge none) (.concat job)
  | overlay {clip : Clip α} {job : Job.Overlay α} (h : (Job.overlay job).Serves clip) :
    DoneBy total (.overlay clip) (.overlay job)
  | text {clip : Clip α} {job : Job.Text α} (h : (Job.text job).Serves clip) :
    DoneBy total (.text clip) (.text job)
  | trim {clip : Clip α} {job : Job.AudioTrim α} (h : (Job.audioTrim job).Serves clip) :
    DoneBy total (.trim clip) (.audioTrim job)
  | mix {clip : Clip α} {job : Job.AudioMix α} (htime : job.time = clip.startTime)
    (hvolume : job.volume = 1.0) (hduration : job.maxDuration = total) :
    DoneBy total (.mix clip) (.audioMix job)

/-- A job that plays what a clip plays takes its times from the clip. -/
theorem Job.Segment.Plays.serves {clip : Clip α} {media : MediaClip α} {blended : BlendedEdges}
    {job : Job.Segment α} (hcontent : clip.content = .video media)
    (h : job.Plays media clip.duration blended) : (Job.segment job).Serves clip :=
  ⟨media, hcontent, h.seek_eq, h.sourceDuration_eq, h.outputDuration_eq⟩

end Scalar

/-! ### What is done -/

/-- Unless a job failed, the jobs that were added to the journal have a property, and the given
sounds were left out. -/
def Situation.Does (p : Situation α σ) (P : List (Job α) → Prop) (skipped : List SkippedAudio)
    (q : Situation α σ) : Prop :=
  ∃ events, p.Adds events q ∧ ((∀ e ∈ events, e.isFailure = false) →
    P (events.filterMap Event.job?) ∧ events.filterMap Event.leftOut? = skipped)

namespace Situation

variable {p q r : Situation α σ} {P Q R : List (Job α) → Prop} {a b : List SkippedAudio}

/-- What is done in two steps, if the property of the whole follows from those of the parts. -/
theorem Does.trans (h : p.Does P a q) (h' : q.Does Q b r)
    (happend : ∀ x y, P x → Q y → R (x ++ y)) : p.Does R (a ++ b) r := by
  obtain ⟨first, hfirst, hdone⟩ := h
  obtain ⟨rest, hrest, hdone'⟩ := h'
  refine ⟨first ++ rest, hfirst.trans hrest, fun hclean ↦ ?_⟩
  obtain ⟨hclean, hclean'⟩ := List.forall_mem_append.1 hclean
  obtain ⟨hP, ha⟩ := hdone hclean
  obtain ⟨hQ, hb⟩ := hdone' hclean'
  rw [List.filterMap_append, List.filterMap_append, ha, hb]
  exact ⟨happend _ _ hP hQ, rfl⟩

/-- What is done in two steps, when nothing more is known of the whole. -/
theorem Does.append (h : p.Does P a q) (h' : q.Does Q b r) :
    p.Does (fun jobs ↦ ∃ x y, jobs = x ++ y ∧ P x ∧ Q y) (a ++ b) r :=
  h.trans h' fun x y hx hy ↦ ⟨x, y, rfl, hx, hy⟩

/-- Nothing was done. -/
def Idles (p q : Situation α σ) : Prop :=
  ∃ events, p.Adds events q ∧ ∀ e ∈ events, e.job? = none ∧ e.leftOut? = none

theorem Adds.idles (h : p.Adds [] q) : p.Idles q := ⟨[], h, List.forall_mem_nil _⟩

/-- Where nothing was done, no job was. -/
theorem Idles.does (h : p.Idles q) (hP : P []) : p.Does P [] q := by
  obtain ⟨events, hadds, hidle⟩ := h
  refine ⟨events, hadds, fun _ ↦ ?_⟩
  rw [List.filterMap_eq_nil_iff.2 fun e he ↦ (hidle e he).1,
    List.filterMap_eq_nil_iff.2 fun e he ↦ (hidle e he).2]
  exact ⟨hP, rfl⟩

/-- Idle steps before and after change nothing about what is done. -/
theorem Does.surround {s : Situation α σ} (h : q.Does P a r) (hbefore : p.Idles q)
    (hafter : r.Idles s) : p.Does P a s := by
  -- both idle steps count as doing an empty list of jobs
  have hdone := ((hbefore.does (P := (· = [])) rfl).trans h
    (R := P) fun x y hx hy ↦ hx ▸ hy).trans (hafter.does (P := (· = [])) rfl)
      (R := P) fun x y hx hy ↦ by rwa [hy, List.append_nil]
  rwa [List.nil_append, List.append_nil] at hdone

end Situation

namespace RenderT

variable {β γ : Type} {p s : Situation α σ} {x : RenderT α (StateM σ) β}
  {K : Situation α σ → Prop}

/-- A run that can be evaluated succeeds in a situation with every property that evaluation shows.
-/
theorem exists_ends_and (h : (x.outcome p).1.isOk = true) (hK : K (x.outcome p).2) :
    ∃ b q, x.Ends p (.ok b) q ∧ K q := by
  obtain ⟨b, q, hx⟩ := exists_ends h
  refine ⟨b, q, hx, ?_⟩
  rwa [show x.outcome p = (.ok b, q) from hx] at hK

end RenderT

namespace Session

open RenderT (ends_bind_ok ends_pure not_ends_throw)

variable {s : Session (StateM σ) α} {p q : Situation α σ} {base file left right : RenderedFile α}

/-! ### Entries -/

/-- Events with one job and nothing left out. -/
theorem does_of_adds {job : Job α} {events : List (Event α)} {P : List (Job α) → Prop}
    (h : p.Adds events q) (hjobs : events.filterMap Event.job? = [job])
    (hskipped : events.filterMap Event.leftOut? = []) (hP : P [job]) : p.Does P [] q :=
  ⟨events, h, fun _ ↦ ⟨hjobs ▸ hP, hskipped⟩⟩

/-- The job that paints a clip has the times of the clip. -/
theorem serves_of_ends_paintJob [Scalar α] {clip : Clip α} {source : Job.OverlayPicture}
    {placement : Placement α} {stop rotation : α} {mode : FitMode} {job : Job.Overlay α}
    (h : (s.paintJob clip base source placement stop mode rotation).Ends p (.ok job) q) :
    (Job.overlay job).Serves clip := by
  obtain ⟨output, t, hfresh, h⟩ := ends_bind_ok.1 h
  obtain ⟨hjob, rfl⟩ := ends_pure.1 h
  rw [Except.ok.inj hjob]
  rfl

variable [Scalar α]

/-- A segment is one job, which serves its clip and writes the file of the segment. -/
theorem does_makeSegment {clip : Clip α} {media : MediaClip α} {path : Path}
    {blended : BlendedEdges} (hcontent : clip.content = .video media)
    (h : (s.makeSegment clip media path blended).Ends p (.ok file) q) :
    ∃ job : Job.Segment α, (Job.segment job).Serves clip ∧ job.output = file.path ∧
      p.Adds [.ran (.segment job) none] q := by
  obtain ⟨-, job, hplays, houtput, hadds⟩ := ends_makeSegment h
  exact ⟨job, hplays.serves hcontent, houtput, hadds⟩

/-- An entry is one job, which does its task and writes the file of its piece. -/
theorem does_renderEntry (total : α) {c : Composition α} {entry : Entry α} {piece : Piece α}
    (h : (s.renderEntry c entry).Ends p (.ok piece) q) :
    p.Does (fun jobs ↦ ∃ job, jobs = [job] ∧ entry.task.DoneBy total job ∧
      job.output = piece.rendered.path) [] q := by
  cases entryDone_of_ends_renderEntry h with
  | clip hcontent hsource hsegment hstep =>
    obtain ⟨job, hserves, houtput, hadds⟩ := does_makeSegment hcontent hsegment
    exact does_of_adds ((hsource.trans hadds).trans hstep) rfl rfl
      ⟨_, rfl, .segment hserves, houtput⟩
  | filler hfiller hstep =>
    obtain ⟨-, job, hduration, houtput, hadds⟩ := ends_renderFiller hfiller
    exact does_of_adds (hadds.trans hstep) rfl rfl ⟨_, rfl, .blank hduration, houtput⟩

/-- Every entry is rendered by one job, which writes the file of its piece. -/
theorem does_renderEntries (total : α) {c : Composition α} {entries : List (Entry α)}
    {pieces : List (Piece α)} (h : (entries.mapM (s.renderEntry c)).Ends p (.ok pieces) q) :
    p.Does (fun jobs ↦ List.Forall₂ (Task.DoneBy total) (entries.map Entry.task) jobs ∧
      jobs.map Job.output = pieces.map (·.rendered.path)) [] q := by
  induction entries generalizing p pieces with
  | nil =>
    obtain ⟨hpieces, rfl⟩ := ends_pure.1 h
    rw [Except.ok.inj hpieces]
    exact (Situation.Adds.refl _).idles.does ⟨.nil, rfl⟩
  | cons entry rest ih =>
    obtain ⟨piece, t, hentry, pieces, hrest, rfl⟩ := RenderT.ends_mapM_cons_ok.1 h
    refine (does_renderEntry total hentry).trans (ih hrest) ?_
    rintro _ jobs ⟨job, rfl, hdone, houtput⟩ ⟨htasks, houtputs⟩
    exact ⟨.cons hdone htasks, congrArg₂ List.cons houtput houtputs⟩

/-! ### Merges -/

/-- A job that merges two files, as asked for, into a third one. -/
def Merges (total : α) (seam? : Option (Seam α)) (left right merged : Path) (jobs : List (Job α)) :
    Prop :=
  ∃ job, jobs = [job] ∧ (Task.merge seam?).DoneBy total job ∧ job.isMerge = true ∧
    job.inputs = [left, right] ∧ job.output = merged

/-- The job of a blend takes the two files in their order. -/
theorem eq_of_ends_blendJob {style : TransitionStyle} {duration : α} {job : Job.Transition α}
    (h : (s.blendJob left right style duration).Ends p (.ok job) q) :
    (job.style = style ∧ job.duration = duration) ∧
      (Job.transition job).inputs = [left.path, right.path] ∧ p.Adds [] q := by
  obtain ⟨output, t, hfresh, h⟩ := ends_bind_ok.1 h
  obtain ⟨hjob, rfl⟩ := ends_pure.1 h
  rw [Except.ok.inj hjob]
  exact ⟨⟨rfl, rfl⟩, rfl, adds_of_ends_freshPath hfresh⟩

/-- A merge by a transition is one job, unless it fails and is done again. -/
theorem does_mergeByTransition (total : α) {style : TransitionStyle} {duration : α}
    {fromId toId : String}
    (h : (s.mergeByTransition left right style duration fromId toId).Ends p (.ok file) q) :
    p.Does (Merges total (some (style, duration, fromId, toId)) left.path right.path file.path)
      [] q := by
  obtain ⟨path, used, usedFallback, t, hdone, rfl, hstep⟩ := exists_of_ends_mergeByTransition h
  cases hdone with
  | first hjob hran =>
    obtain ⟨⟨hstyle, hduration⟩, hinputs, hadds⟩ := eq_of_ends_blendJob hjob
    exact does_of_adds ((hadds.trans hran).trans hstep) rfl rfl
      ⟨_, rfl, .blend hstyle hduration, rfl, hinputs, rfl⟩
  | second hjob hfailed hsecond hran =>
    obtain ⟨-, -, hadds⟩ := eq_of_ends_blendJob hjob
    obtain ⟨-, -, hadds'⟩ := eq_of_ends_blendJob hsecond
    refine ⟨_, ((hadds.trans hfailed).trans (hadds'.trans hran)).trans hstep, fun hclean ↦ ?_⟩
    cases hclean _ List.mem_cons_self

/-- A merge without a blend is one job. -/
theorem does_mergeByConcat (total : α)
    (h : (s.mergeByConcat left right).Ends p (.ok file) q) :
    p.Does (Merges total none left.path right.path file.path) [] q := by
  obtain ⟨job, hinputs, rfl, hadds⟩ := exists_of_ends_mergeByConcat h
  exact does_of_adds hadds rfl rfl ⟨_, rfl, .concat, rfl, hinputs, rfl⟩

/-- A merge does the task of its seam, whichever way it is done. -/
theorem MergeDone.does (total : α) {seam? : Option (Seam α)}
    (h : MergeDone s left right p q file seam?) :
    p.Does (Merges total seam? left.path right.path file.path) [] q := by
  cases h with
  | transition h => exact does_mergeByTransition total h
  | concat h => exact does_mergeByConcat total h

/-- The pieces are merged one after another, each as asked for. -/
theorem does_mergeOnto (total : α) {blendAfter? : ℕ → Option (TransitionStyle × α)}
    {last? : Option (ℕ × String)} {pieces : List (Piece α)}
    (h : (s.mergeOnto blendAfter? left last? pieces).Ends p (.ok file) q) :
    p.Does (fun jobs ↦ List.Forall₂ (Task.DoneBy total)
        ((Seam.between blendAfter? last? (pieces.map Piece.clip?)).map Task.merge) jobs ∧
      Merged left.path (pieces.map (·.rendered.path)) jobs file.path) [] q := by
  induction pieces generalizing p left last? with
  | nil =>
    obtain ⟨hfile, rfl⟩ := ends_pure.1 h
    rw [Except.ok.inj hfile]
    exact (Situation.Adds.refl _).idles.does ⟨.nil, .nil⟩
  | cons next rest ih =>
    obtain ⟨merged, t, hmerge, hrest⟩ := exists_mergeDone_of_ends_mergeOnto h
    refine (hmerge.does total).trans (ih hrest) ?_
    rintro _ jobs ⟨job, rfl, hdone, hjob, hinputs, houtput⟩ ⟨htasks, hmerged⟩
    exact ⟨.cons hdone htasks, .cons hjob hinputs (houtput ▸ hmerged)⟩

/-- All merges: the first piece is what the others are merged onto. -/
theorem does_mergePieces (total : α) {blendAfter? : ℕ → Option (TransitionStyle × α)}
    {pieces : List (Piece α)} (h : (s.mergePieces blendAfter? pieces).Ends p (.ok file) q) :
    ∃ first rest, pieces = first :: rest ∧
      p.Does (fun jobs ↦ List.Forall₂ (Task.DoneBy total)
          ((Seam.all blendAfter? (pieces.map Piece.clip?)).map Task.merge) jobs ∧
        Merged first.rendered.path (rest.map (·.rendered.path)) jobs file.path) [] q := by
  cases pieces with
  | nil => exact absurd h not_ends_throw
  | cons first rest => exact ⟨first, rest, rfl, does_mergeOnto total h⟩

/-! ### Overlays and sounds -/

/-- The jobs carry out tasks on a file, in their order, and what comes out is as long. -/
def Carries (p : Situation α σ) (base : RenderedFile α) (tasks : List (Task α))
    (skipped : List SkippedAudio) (file : RenderedFile α) (q : Situation α σ) : Prop :=
  file.duration = base.duration ∧
    p.Does (List.Forall₂ (Task.DoneBy base.duration) tasks) skipped q

theorem Carries.refl (p : Situation α σ) (base : RenderedFile α) : Carries p base [] [] base p :=
  ⟨rfl, (Situation.Adds.refl p).idles.does .nil⟩

/-- Tasks that are done one after another on the same file, whose length stays. -/
theorem Carries.trans {r : Situation α σ} {middle : RenderedFile α} {a b : List (Task α)}
    {x y : List SkippedAudio} (h : Carries p base a x middle q) (h' : Carries q middle b y file r) :
    Carries p base (a ++ b) (x ++ y) file r := by
  obtain ⟨hduration, hdone⟩ := h
  obtain ⟨hduration', hdone'⟩ := h'
  rw [hduration] at hdone'
  exact ⟨hduration'.trans hduration, hdone.trans hdone' fun _ _ hx hy ↦ List.rel_append hx hy⟩

/-- What one clip asks for is done clip after clip. -/
theorem carries_foldlM {add : RenderedFile α → Clip α → RenderT α (StateM σ) (RenderedFile α)}
    {tasks : Clip α → List (Task α)} {skipped : Clip α → List SkippedAudio}
    (hadd : ∀ {p q : Situation α σ} {base file : RenderedFile α} {clip : Clip α},
      (add base clip).Ends p (.ok file) q → Carries p base (tasks clip) (skipped clip) file q)
    {clips : List (Clip α)} (h : (clips.foldlM add base).Ends p (.ok file) q) :
    Carries p base (clips.flatMap tasks) (clips.flatMap skipped) file q := by
  induction clips generalizing p base with
  | nil =>
    obtain ⟨hfile, rfl⟩ := ends_pure.1 h
    rw [Except.ok.inj hfile]
    exact .refl _ _
  | cons clip rest ih =>
    rw [List.foldlM_cons] at h
    obtain ⟨middle, t, hclip, hrest⟩ := ends_bind_ok.1 h
    rw [List.flatMap_cons, List.flatMap_cons]
    exact (hadd hclip).trans (ih hrest)

/-- A sound is mixed in at its time, at its own volume, and up to the end of what is there. -/
theorem carries_mixSound {clip : Clip α} {path : Path}
    (h : (s.mixSound base path clip.startTime clip.id).Ends p (.ok file) q) :
    Carries p base [.mix clip] [] file q := by
  obtain ⟨hfile, job, ⟨htime, hvolume, hduration⟩, hadds⟩ := ends_mixSound h
  exact ⟨hfile, does_of_adds hadds rfl rfl (.cons (.mix htime hvolume hduration) .nil)⟩

/-- A sound that is mixed in takes two jobs: it is cut, and then mixed. -/
theorem carries_mixClip {clip : Clip α} {audio : AudioClip α}
    (hcontent : clip.content = .audio audio)
    (h : (s.mixClip base clip audio).Ends p (.ok file) q) :
    Carries p base [.trim clip, .mix clip] [] file q := by
  obtain ⟨input, t, hasset, h⟩ := ends_bind_ok.1 h
  obtain ⟨output, u, hfresh, h⟩ := ends_bind_ok.1 h
  obtain ⟨trimmed, v, hrun, h⟩ := ends_bind_ok.1 h
  have htrim : Carries p base [.trim clip] [] base v := by
    refine ⟨rfl, does_of_adds ((adds_of_ends_asset hasset).trans
      ((adds_of_ends_freshPath hfresh).trans (ends_run hrun).2)) rfl rfl (.cons (.trim ?_) .nil)⟩
    exact ⟨audio, hcontent, rfl, rfl, rfl⟩
  exact htrim.trans (carries_mixSound h)

/-- A sound has its tasks, or is left out, or is silent. The code and the list of tasks split on the
same conditions, but for the volume, where the code asks for silence and the tasks for sound. -/
theorem carries_addSound [LawfulScalar α] {clip : Clip α}
    (h : (s.addSound base clip).Ends p (.ok file) q) :
    Carries p base (clip.soundTasks s.media) (clip.leftOut? s.media).toList file q := by
  rw [addSound] at h
  rw [Clip.soundTasks, Clip.leftOut?]
  cases hcontent : clip.content with
  | audio audio =>
    rw [hcontent] at h
    dsimp only at h ⊢
    split_ifs at h with hsource hmuted
    · obtain ⟨_, t, hrecord, h⟩ := ends_bind_ok.1 h
      obtain ⟨hfile, rfl⟩ := ends_pure.1 h
      rw [Except.ok.inj hfile, if_neg (by simp [hsource]), if_pos hsource]
      exact ⟨rfl, _, adds_of_ends_record hrecord, fun _ ↦ ⟨.nil, rfl⟩⟩
    · obtain ⟨hfile, rfl⟩ := ends_pure.1 h
      rw [Except.ok.inj hfile, if_neg fun hmixed ↦ Scalar.not_lt_of_le hmuted hmixed.2,
        if_neg hsource]
      exact .refl _ _
    -- a volume that is not at most zero is above it, as it is no NaN
    · have hloud := audio.effects.zero_lt_volume hmuted
      rw [if_pos ⟨Bool.eq_false_iff.2 hsource, hloud⟩, if_neg hsource]
      exact carries_mixClip hcontent h
  | video _ | image _ | text _ | shape _ =>
    rw [hcontent] at h
    obtain ⟨hfile, rfl⟩ := ends_pure.1 h
    rw [Except.ok.inj hfile]
    exact .refl _ _

/-- All sounds, in the order of starts. -/
theorem carries_addSounds [LawfulScalar α] {clips : List (Clip α)}
    (h : (s.addSounds base clips).Ends p (.ok file) q) :
    Carries p base (clips.flatMap (Clip.soundTasks s.media))
      (clips.filterMap (Clip.leftOut? s.media)) file q := by
  rw [List.filterMap_eq_flatMap_toList]
  exact carries_foldlM (fun h ↦ carries_addSound h) h

/-- An overlaid video is cut, painted, and mixed in unless it is silent. -/
theorem carries_paintVideo {clip : Clip α} {media : MediaClip α}
    (hcontent : clip.content = .video media)
    (h : (s.paintVideo base clip media).Ends p (.ok file) q) :
    Carries p base
      ([.segment clip, .overlay clip] ++ if 0.0 < clip.effects.volume then [.mix clip] else []) []
      file q := by
  obtain ⟨input, t, hsource, h⟩ := ends_bind_ok.1 h
  obtain ⟨segment, u, hsegment, h⟩ := ends_bind_ok.1 h
  obtain ⟨job, v, hjob, h⟩ := ends_bind_ok.1 h
  obtain ⟨painted, w, hrun, h⟩ := ends_bind_ok.1 h
  obtain ⟨cut, hserves, -, hcut⟩ := does_makeSegment hcontent hsegment
  have hpainted : Carries p base [.segment clip, .overlay clip] [] ⟨painted, base.duration⟩ w := by
    refine ⟨rfl, _, ((adds_of_ends_source hsource).trans hcut).trans
      ((adds_of_ends_paintJob hjob).trans (ends_run hrun).2), fun _ ↦ ⟨?_, rfl⟩⟩
    exact .cons (.segment hserves) (.cons (.overlay (serves_of_ends_paintJob hjob)) .nil)
  dsimp only at h
  split_ifs at h ⊢
  · exact hpainted.trans (carries_mixSound h)
  · obtain ⟨hfile, rfl⟩ := ends_pure.1 h
    rw [Except.ok.inj hfile]
    exact hpainted

theorem carries_paintPicture {clip : Clip α} {media : MediaClip α}
    (h : (s.paintPicture base clip media).Ends p (.ok file) q) :
    Carries p base [.overlay clip] [] file q := by
  refine ⟨(keeps_paintPicture h).1, ?_⟩
  obtain ⟨path, t, hasset, h⟩ := ends_bind_ok.1 h
  obtain ⟨job, u, hjob, h⟩ := ends_bind_ok.1 h
  obtain ⟨painted, v, hrun, h⟩ := ends_bind_ok.1 h
  obtain ⟨-, rfl⟩ := ends_pure.1 h
  exact does_of_adds ((adds_of_ends_asset hasset).trans
    ((adds_of_ends_paintJob hjob).trans (ends_run hrun).2)) rfl rfl
      (.cons (.overlay (serves_of_ends_paintJob hjob)) .nil)

/-- An overlaid text takes one job. -/
theorem carries_paintText {clip : Clip α} {text : TextClip α} (hcontent : clip.content = .text text)
    (h : (s.paintText base clip text).Ends p (.ok file) q) :
    Carries p base [.text clip] [] file q := by
  refine ⟨(keeps_paintText h).1, ?_⟩
  obtain ⟨output, t, hfresh, h⟩ := ends_bind_ok.1 h
  obtain ⟨painted, u, hrun, h⟩ := ends_bind_ok.1 h
  obtain ⟨-, rfl⟩ := ends_pure.1 h
  exact does_of_adds ((adds_of_ends_freshPath hfresh).trans (ends_run hrun).2) rfl rfl
    (.cons (.text ⟨rfl, text, hcontent, rfl⟩) .nil)

/-- An overlaid shape is drawn without a job, and then painted. -/
theorem carries_paintShape {clip : Clip α} {shape : ShapeClip α}
    (h : (s.paintShape base clip shape).Ends p (.ok file) q) :
    Carries p base [.overlay clip] [] file q := by
  refine ⟨(keeps_paintShape h).1, ?_⟩
  obtain ⟨drawing, t, hfresh, h⟩ := ends_bind_ok.1 h
  obtain ⟨_, u, hdraw, h⟩ := ends_bind_ok.1 h
  obtain ⟨job, v, hjob, h⟩ := ends_bind_ok.1 h
  obtain ⟨painted, w, hrun, h⟩ := ends_bind_ok.1 h
  obtain ⟨-, rfl⟩ := ends_pure.1 h
  exact does_of_adds (((adds_of_ends_freshPath hfresh).trans (adds_of_ends_drawInto hdraw)).trans
    ((adds_of_ends_paintJob hjob).trans (ends_run hrun).2)) rfl rfl
      (.cons (.overlay (serves_of_ends_paintJob hjob)) .nil)

/-- An overlay of any kind has its tasks done. -/
theorem carries_addOverlay {clip : Clip α} (h : (s.addOverlay base clip).Ends p (.ok file) q) :
    Carries p base clip.paintTasks [] file q := by
  rw [addOverlay] at h
  rw [Clip.paintTasks]
  cases hcontent : clip.content with
  | video media =>
    rw [hcontent] at h
    exact carries_paintVideo hcontent h
  | image media =>
    rw [hcontent] at h
    exact carries_paintPicture h
  | text text =>
    rw [hcontent] at h
    exact carries_paintText hcontent h
  | shape shape =>
    rw [hcontent] at h
    exact carries_paintShape h
  | audio audio =>
    rw [hcontent] at h
    obtain ⟨hfile, rfl⟩ := ends_pure.1 h
    rw [Except.ok.inj hfile]
    exact .refl _ _

/-- All overlays, in the order of painting. None of them is left out. -/
theorem carries_addOverlays {clips : List (Clip α)}
    (h : (s.addOverlays base clips).Ends p (.ok file) q) :
    Carries p base (clips.flatMap Clip.paintTasks) [] file q := by
  have hnothing : clips.flatMap (fun _ ↦ ([] : List SkippedAudio)) = [] := by simp
  rw [← hnothing]
  exact carries_foldlM (fun h ↦ carries_addOverlay h) h

end Session

end Splice
