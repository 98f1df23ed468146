import Mathlib.Tactic.SplitIfs
import Splice.Proofs.Render.Run
import Splice.Render.Painting

/-!
# Runs of overlays and sounds

Overlays and sounds are added to the assembled base sequence. Whatever the engine and the storage
answer, what comes out is as long as what went in, and the journal gains neither a step in the
assembly nor a blend (`Session.keeps_addOverlays`, `Session.keeps_addSounds`).
-/

namespace Splice

variable {α σ : Type}

/-- Whether an event has nothing to do with the assembly of the base sequence. -/
def Event.isQuiet : Event α → Bool
  | .merged _ => false
  | .ran (.transition _) _ => false
  | _ => true

/-- All that was added to the journal is quiet. -/
def Situation.AddsQuietly (p q : Situation α σ) : Prop :=
  ∃ events, p.Adds events q ∧ ∀ e ∈ events, e.isQuiet = true

namespace Situation

variable {p q r : Situation α σ}

/-- To add nothing is to add quietly. -/
theorem Adds.quietly (h : p.Adds [] q) : p.AddsQuietly q := ⟨[], h, fun _ h ↦ nomatch h⟩

theorem Adds.quietly_singleton {e : Event α} (h : p.Adds [e] q) (he : e.isQuiet = true) :
    p.AddsQuietly q :=
  ⟨[e], h, fun _ h ↦ List.mem_singleton.1 h ▸ he⟩

theorem AddsQuietly.refl (p : Situation α σ) : p.AddsQuietly p := (Adds.refl p).quietly

/-- What happens in two quiet steps is quiet. -/
theorem AddsQuietly.trans (hpq : p.AddsQuietly q) (hqr : q.AddsQuietly r) : p.AddsQuietly r := by
  obtain ⟨a, ha, hquiet⟩ := hpq
  obtain ⟨b, hb, hquiet'⟩ := hqr
  exact ⟨a ++ b, ha.trans hb, List.forall_mem_append.2 ⟨hquiet, hquiet'⟩⟩

end Situation

namespace Session

open RenderT (ends_bind_ok ends_pure)

variable {s : Session (StateM σ) α} {p q : Situation α σ} {base file : RenderedFile α}

/-- What comes out is as long as what went in, and all that happened is quiet. -/
def Keeps (p : Situation α σ) (base file : RenderedFile α) (q : Situation α σ) : Prop :=
  file.duration = base.duration ∧ p.AddsQuietly q

theorem Keeps.refl (p : Situation α σ) (base : RenderedFile α) : Keeps p base base p :=
  ⟨rfl, .refl p⟩

/-- Lengths are compared from step to step, so a chain of additions keeps the first one. -/
theorem Keeps.trans {r : Situation α σ} {middle : RenderedFile α} (h : Keeps p base middle q)
    (h' : Keeps q middle file r) : Keeps p base file r :=
  ⟨h'.1.trans h.1, h.2.trans h'.2⟩

/-- A job that blends nothing is quiet. -/
theorem quietly_of_ends_run {job : Job α} {path : Path} (h : (s.run job).Ends p (.ok path) q)
    (hjob : (Event.ran job none).isQuiet = true) : p.AddsQuietly q :=
  (ends_run h).2.quietly_singleton hjob

/-- Adding things one after another keeps the length if each of them does. -/
theorem keeps_foldlM {γ : Type} {add : RenderedFile α → γ → RenderT α (StateM σ) (RenderedFile α)}
    (hadd : ∀ {p q : Situation α σ} {base file : RenderedFile α} {c : γ},
      (add base c).Ends p (.ok file) q → Keeps p base file q)
    {cs : List γ} (h : (cs.foldlM add base).Ends p (.ok file) q) : Keeps p base file q := by
  induction cs generalizing p base with
  | nil =>
    obtain ⟨hfile, rfl⟩ := ends_pure.1 h
    rw [Except.ok.inj hfile]
    exact .refl _ _
  | cons c rest ih =>
    rw [List.foldlM_cons] at h
    obtain ⟨middle, t, hc, hrest⟩ := ends_bind_ok.1 h
    exact (hadd hc).trans (ih hrest)

/-! ### Sounds -/

section Sound

variable [Scalar α]

/-- A sound is mixed in by one job, at the given time and up to the end of what is there. -/
theorem ends_mixSound {path : Path} {time : α} {label : String}
    (h : (s.mixSound base path time label).Ends p (.ok file) q) :
    file.duration = base.duration ∧ ∃ job : Job.AudioMix α,
      (job.time = time ∧ job.volume = 1.0 ∧ job.maxDuration = base.duration) ∧
        p.Adds [.ran (.audioMix job) none] q := by
  rw [mixSound, ends_bind_ok] at h
  obtain ⟨hasAudio, t, haudio, h⟩ := h
  cases hasAudio with
  | false => exact nomatch (RenderT.ends_throw_bind.1 h).1
  | true =>
    obtain ⟨baseHasAudio, u, hbase, h⟩ := ends_bind_ok.1 h
    obtain ⟨output, v, hfresh, h⟩ := ends_bind_ok.1 h
    obtain ⟨mixed, w, hrun, h⟩ := ends_bind_ok.1 h
    obtain ⟨hfile, rfl⟩ := ends_pure.1 h
    rw [Except.ok.inj hfile]
    exact ⟨rfl, _, ⟨rfl, rfl, rfl⟩, ((adds_of_ends_hasAudio haudio).trans
      (adds_of_ends_hasAudio hbase)).trans ((adds_of_ends_freshPath hfresh).trans
        (ends_run hrun).2)⟩

/-- A mixed sound does not make the base longer or shorter, even if it goes on past its end. -/
theorem keeps_mixSound {path : Path} {time : α} {label : String}
    (h : (s.mixSound base path time label).Ends p (.ok file) q) : Keeps p base file q := by
  obtain ⟨hduration, job, -, hadds⟩ := ends_mixSound h
  exact ⟨hduration, hadds.quietly_singleton rfl⟩

/-- To cut a sound out of its source first changes nothing about that. -/
theorem keeps_mixClip {clip : Clip α} {audio : AudioClip α}
    (h : (s.mixClip base clip audio).Ends p (.ok file) q) : Keeps p base file q := by
  obtain ⟨input, t, hasset, h⟩ := ends_bind_ok.1 h
  obtain ⟨output, u, hfresh, h⟩ := ends_bind_ok.1 h
  obtain ⟨trimmed, v, hrun, h⟩ := ends_bind_ok.1 h
  obtain ⟨hduration, hquiet⟩ := keeps_mixSound h
  exact ⟨hduration, (((adds_of_ends_asset hasset).quietly.trans
    (adds_of_ends_freshPath hfresh).quietly).trans (quietly_of_ends_run hrun rfl)).trans hquiet⟩

/-- A sound is mixed in, left out, or silent; in all three cases the base keeps its length. -/
theorem keeps_addSound {clip : Clip α} (h : (s.addSound base clip).Ends p (.ok file) q) :
    Keeps p base file q := by
  rw [addSound] at h
  split at h
  -- a sound of a video source, a silent sound, and a sound that is mixed in
  · split_ifs at h
    · obtain ⟨_, t, hrecord, h⟩ := ends_bind_ok.1 h
      obtain ⟨hfile, rfl⟩ := ends_pure.1 h
      rw [Except.ok.inj hfile]
      exact ⟨rfl, (adds_of_ends_record hrecord).quietly_singleton rfl⟩
    · obtain ⟨hfile, rfl⟩ := ends_pure.1 h
      rw [Except.ok.inj hfile]
      exact .refl _ _
    · exact keeps_mixClip h
  · obtain ⟨hfile, rfl⟩ := ends_pure.1 h
    rw [Except.ok.inj hfile]
    exact .refl _ _

theorem keeps_addSounds {clips : List (Clip α)}
    (h : (s.addSounds base clips).Ends p (.ok file) q) : Keeps p base file q :=
  keeps_foldlM keeps_addSound h

end Sound

/-! ### Overlays -/

section Overlay

/-- The job that paints a clip takes a number for its output, and is no event yet. -/
theorem adds_of_ends_paintJob {clip : Clip α} {source : Job.OverlayPicture}
    {placement : Placement α} {stop rotation : α} {mode : FitMode} {job : Job.Overlay α}
    (h : (s.paintJob clip base source placement stop mode rotation).Ends p (.ok job) q) :
    p.Adds [] q := by
  obtain ⟨output, t, hfresh, h⟩ := ends_bind_ok.1 h
  obtain ⟨-, rfl⟩ := ends_pure.1 h
  exact adds_of_ends_freshPath hfresh

variable [Scalar α]

/-- An overlaid video: its segment and its painting are quiet jobs, and so is the sound that is
mixed in. -/
theorem keeps_paintVideo {clip : Clip α} {media : MediaClip α}
    (h : (s.paintVideo base clip media).Ends p (.ok file) q) : Keeps p base file q := by
  obtain ⟨input, t, hsource, h⟩ := ends_bind_ok.1 h
  obtain ⟨segment, u, hsegment, h⟩ := ends_bind_ok.1 h
  obtain ⟨job, v, hjob, h⟩ := ends_bind_ok.1 h
  obtain ⟨painted, w, hrun, h⟩ := ends_bind_ok.1 h
  obtain ⟨-, cut, -, -, hcut⟩ := ends_makeSegment hsegment
  have hquiet : p.AddsQuietly w :=
    (((adds_of_ends_source hsource).quietly.trans (hcut.quietly_singleton rfl)).trans
      (adds_of_ends_paintJob hjob).quietly).trans (quietly_of_ends_run hrun rfl)
  dsimp only at h
  split_ifs at h
  · obtain ⟨hduration, hmix⟩ := keeps_mixSound h
    exact ⟨hduration, hquiet.trans hmix⟩
  · obtain ⟨hfile, rfl⟩ := ends_pure.1 h
    rw [Except.ok.inj hfile]
    exact ⟨rfl, hquiet⟩

theorem keeps_paintPicture {clip : Clip α} {media : MediaClip α}
    (h : (s.paintPicture base clip media).Ends p (.ok file) q) : Keeps p base file q := by
  obtain ⟨path, t, hasset, h⟩ := ends_bind_ok.1 h
  obtain ⟨job, u, hjob, h⟩ := ends_bind_ok.1 h
  obtain ⟨painted, v, hrun, h⟩ := ends_bind_ok.1 h
  obtain ⟨hfile, rfl⟩ := ends_pure.1 h
  rw [Except.ok.inj hfile]
  exact ⟨rfl, ((adds_of_ends_asset hasset).quietly.trans
    (adds_of_ends_paintJob hjob).quietly).trans (quietly_of_ends_run hrun rfl)⟩

/-- An overlaid text is one quiet job. -/
theorem keeps_paintText {clip : Clip α} {text : TextClip α}
    (h : (s.paintText base clip text).Ends p (.ok file) q) : Keeps p base file q := by
  obtain ⟨output, t, hfresh, h⟩ := ends_bind_ok.1 h
  obtain ⟨painted, u, hrun, h⟩ := ends_bind_ok.1 h
  obtain ⟨hfile, rfl⟩ := ends_pure.1 h
  rw [Except.ok.inj hfile]
  exact ⟨rfl, (adds_of_ends_freshPath hfresh).quietly.trans (quietly_of_ends_run hrun rfl)⟩

/-- An overlaid shape is a drawing and one quiet job. -/
theorem keeps_paintShape {clip : Clip α} {shape : ShapeClip α}
    (h : (s.paintShape base clip shape).Ends p (.ok file) q) : Keeps p base file q := by
  obtain ⟨drawing, t, hfresh, h⟩ := ends_bind_ok.1 h
  obtain ⟨_, u, hdraw, h⟩ := ends_bind_ok.1 h
  obtain ⟨job, v, hjob, h⟩ := ends_bind_ok.1 h
  obtain ⟨painted, w, hrun, h⟩ := ends_bind_ok.1 h
  obtain ⟨hfile, rfl⟩ := ends_pure.1 h
  rw [Except.ok.inj hfile]
  exact ⟨rfl, (((adds_of_ends_freshPath hfresh).quietly.trans
    ((adds_of_ends_drawInto hdraw).quietly_singleton rfl)).trans
      (adds_of_ends_paintJob hjob).quietly).trans (quietly_of_ends_run hrun rfl)⟩

/-- An overlay of any kind is painted without a change of the length of the base. -/
theorem keeps_addOverlay {clip : Clip α} (h : (s.addOverlay base clip).Ends p (.ok file) q) :
    Keeps p base file q := by
  rw [addOverlay] at h
  split at h
  · exact keeps_paintVideo h
  · exact keeps_paintPicture h
  · exact keeps_paintText h
  · exact keeps_paintShape h
  · obtain ⟨hfile, rfl⟩ := ends_pure.1 h
    rw [Except.ok.inj hfile]
    exact .refl _ _

theorem keeps_addOverlays {clips : List (Clip α)}
    (h : (s.addOverlays base clips).Ends p (.ok file) q) : Keeps p base file q :=
  keeps_foldlM keeps_addOverlay h

end Overlay

end Session

end Splice
