import Mathlib.Data.List.Nodup
import Splice.Proofs.Render.Provenance

/-!
# Lineage of the result

The jobs of a render as lists. The shapes say which jobs are done for what: those that merge the
base sequence (`Merged`), that paint a clip (`PaintJobs`), that mix a sound in (`SoundJobs`), and
all jobs of a composition from the first entry to the result (`RenderJobs`). In any of these shapes
what is there is handed on from job to job (`Threaded`), so every file that is written leads to the
result (`RenderJobs.reaches`), and since no two jobs write the same file, every entry is merged
exactly once (`Merged.length_filter_reads`).
-/

namespace Splice

variable {α : Type}

/-! ### Threads -/

/-- Jobs that lead from one file to another one: each adds to what is there, or else writes a file
that the next one reads and adds. -/
inductive Threaded : Path → List (Job α) → Path → Prop
  | done {path : Path} : Threaded path [] path
  | composite {path last : Path} {job : Job α} {rest : List (Job α)}
    (hjob : job.isComposite = true) (hbase : job.inputs.head? = some path)
    (tail : Threaded job.output rest last) : Threaded path (job :: rest) last
  | leaf {path last : Path} {leaf job : Job α} {rest : List (Job α)}
    (hleaf : leaf.isComposite = false) (hjob : job.isComposite = true)
    (hbase : job.inputs.head? = some path) (hread : leaf.output ∈ job.inputs)
    (tail : Threaded job.output rest last) : Threaded path (leaf :: job :: rest) last

/-- Jobs that merge files onto what is there, one after another. -/
inductive Merged : Path → List Path → List (Job α) → Path → Prop
  | nil {path : Path} : Merged path [] [] path
  | cons {path next last : Path} {paths : List Path} {job : Job α} {rest : List (Job α)}
    (hjob : job.isMerge = true) (hinputs : job.inputs = [path, next])
    (tail : Merged job.output paths rest last) :
    Merged path (next :: paths) (job :: rest) last

namespace Threaded

variable {path middle last : Path} {jobs a b : List (Job α)}

/-- Where one thread ends, another one may go on. -/
theorem append (ha : Threaded path a middle) (hb : Threaded middle b last) :
    Threaded path (a ++ b) last := by
  induction ha with
  | done => exact hb
  | composite hjob hbase _ ih => exact .composite hjob hbase (ih hb)
  | leaf hleaf hjob hbase hread _ ih => exact .leaf hleaf hjob hbase hread (ih hb)

/-- The file that a thread leads to is the one that is there after its jobs. -/
theorem tip?_eq (h : Threaded path a last) (hjobs : Job.tip? jobs = some path) :
    Job.tip? (jobs ++ a) = some last := by
  induction h generalizing jobs with
  | done => rwa [List.append_nil]
  | composite hjob hbase _ ih =>
    rw [List.append_cons]
    exact ih (Job.tip?_append_composite hjob)
  | leaf hleaf hjob hbase hread _ ih =>
    rw [List.append_cons, List.append_cons]
    exact ih (Job.tip?_append_composite hjob)

end Threaded

/-- A merge adds to what is there. -/
theorem Job.isComposite_of_isMerge {job : Job α} (h : job.isMerge = true) :
    job.isComposite = true := by
  cases job with
  | transition | concat => rfl
  | _ => cases h

theorem Job.kinds_of_isMerge {job : Job α} (h : job.isMerge = true) :
    job.isPaint = false ∧ job.isTrim = false := by
  cases job with
  | transition | concat => exact ⟨rfl, rfl⟩
  | _ => cases h

theorem Job.isPaint_of_leaf {job : Job α} (h : job.isComposite = false) : job.isPaint = false := by
  cases job with
  | overlay | text => cases h
  | _ => rfl

/-- Merges hand on what is there. -/
theorem Merged.threaded {path last : Path} {paths : List Path} {jobs : List (Job α)}
    (h : Merged path paths jobs last) : Threaded path jobs last := by
  induction h with
  | nil => exact .done
  | cons hjob hinputs _ ih =>
    exact .composite (Job.isComposite_of_isMerge hjob) (by rw [hinputs]; rfl) ih

/-- The jobs that do something for each of some things, one after another. -/
inductive OneByOne {γ : Type} (step : Path → γ → List (Job α) → Path → Prop) :
    Path → List γ → List (Job α) → Path → Prop
  | nil {path : Path} : OneByOne step path [] [] path
  | cons {path middle last : Path} {c : γ} {cs : List γ} {first rest : List (Job α)}
    (head : step path c first middle) (tail : OneByOne step middle cs rest last) :
    OneByOne step path (c :: cs) (first ++ rest) last

theorem OneByOne.mono {γ : Type} {step step' : Path → γ → List (Job α) → Path → Prop}
    (h : ∀ path c jobs last, step path c jobs last → step' path c jobs last) {path last : Path}
    {cs : List γ} {jobs : List (Job α)} (hjobs : OneByOne step path cs jobs last) :
    OneByOne step' path cs jobs last := by
  induction hjobs with
  | nil => exact .nil
  | cons head _ ih => exact .cons (h _ _ _ _ head) ih

/-- If each step hands on what is there, so do all of them. -/
theorem OneByOne.threaded {γ : Type} {step : Path → γ → List (Job α) → Path → Prop}
    (h : ∀ path c jobs last, step path c jobs last → Threaded path jobs last) {path last : Path}
    {cs : List γ} {jobs : List (Job α)} (hjobs : OneByOne step path cs jobs last) :
    Threaded path jobs last := by
  induction hjobs with
  | nil => exact .done
  | cons head _ ih => exact (h _ _ _ _ head).append ih

/-! ### Jobs of a session -/

section Shapes

variable [Scalar α]

/-- The job that renders an entry. -/
def Entry.RenderedBy (entry : Entry α) (job : Job α) : Prop :=
  match entry with
  | .clip _ c => job.Serves c ∧ ∃ segment, job = .segment segment
  | .filler f => ∃ blank, job = .blank blank ∧ blank.duration = f.duration

/-- Whether a clip is a sound to be mixed in: its source is no video, and it is not muted. -/
def Clip.isMixed (media : Manifest) (clip : Clip α) : Bool :=
  match clip.content with
  | .audio audio => !media.hasSource audio.sourceId && !decide (audio.effects.volume ≤ 0.0)
  | _ => false

/-- The jobs that mix in a clip, from what is there before to what is there after. -/
inductive SoundJobs (media : Manifest) (base : Path) (clip : Clip α) : List (Job α) → Path → Prop
  | none (hmixed : clip.isMixed media = false) : SoundJobs media base clip [] base
  | mixed {trim : Job.AudioTrim α} {mix : Job.AudioMix α} (hmixed : clip.isMixed media = true)
    (htrim : (Job.audioTrim trim).Serves clip) (hbase : mix.base = base)
    (haudio : mix.audio = trim.output) (htime : mix.time = clip.startTime) :
    SoundJobs media base clip [.audioTrim trim, .audioMix mix] mix.output

/-- The jobs that paint a clip, from what is there before to what is there after, with some of what
is in the log. -/
inductive PaintJobs (media : Manifest) (facts : List (Exchange α)) (base : Path) (clip : Clip α) :
    List (Job α) → Path → Prop
  | silentVideo {video : MediaClip α} {segment : Job.Segment α} {overlay : Job.Overlay α}
    (hcontent : clip.content = .video video) (hvolume : ¬ 0.0 < clip.effects.volume)
    (hsegment : (Job.segment segment).Serves clip)
    (hoverlay : (Job.overlay overlay).Serves clip) (hbase : overlay.base = base)
    (hsource : overlay.source = .video segment.output) :
    PaintJobs media facts base clip [.segment segment, .overlay overlay] overlay.output
  | video {video : MediaClip α} {segment : Job.Segment α} {overlay : Job.Overlay α}
    {mix : Job.AudioMix α}
    (hcontent : clip.content = .video video) (hvolume : 0.0 < clip.effects.volume)
    (hsegment : (Job.segment segment).Serves clip)
    (hoverlay : (Job.overlay overlay).Serves clip) (hbase : overlay.base = base)
    (hsource : overlay.source = .video segment.output) (hmix : mix.base = overlay.output)
    (haudio : mix.audio = segment.output) (htime : mix.time = clip.startTime) :
    PaintJobs media facts base clip [.segment segment, .overlay overlay, .audioMix mix] mix.output
  | image {image : MediaClip α} {overlay : Job.Overlay α} {path : Path} {reference : String}
    (hcontent : clip.content = .image image)
    (hreference : media.reference? clip = some reference)
    (hresolved : .resolved reference (.ok path) ∈ facts)
    (hoverlay : (Job.overlay overlay).Serves clip) (hbase : overlay.base = base)
    (hsource : overlay.source = .image path) :
    PaintJobs media facts base clip [.overlay overlay] overlay.output
  | text {job : Job.Text α} (hjob : (Job.text job).Serves clip) (hbase : job.base = base) :
    PaintJobs media facts base clip [.text job] job.output
  | shape {shape : ShapeClip α} {overlay : Job.Overlay α} {path : Path}
    (hcontent : clip.content = .shape shape) (hdrew : .drew path (.ok ()) ∈ facts)
    (hoverlay : (Job.overlay overlay).Serves clip) (hbase : overlay.base = base)
    (hsource : overlay.source = .image path) :
    PaintJobs media facts base clip [.overlay overlay] overlay.output

/-- Mixing a sound in hands on what is there. -/
theorem SoundJobs.threaded {media : Manifest} {base last : Path} {clip : Clip α}
    {jobs : List (Job α)} (h : SoundJobs media base clip jobs last) : Threaded base jobs last := by
  cases h with
  | none => exact .done
  | mixed _ _ hbase haudio =>
    refine .leaf rfl rfl (congrArg some hbase) ?_ .done
    exact List.mem_cons_of_mem _ (List.mem_singleton.2 haudio.symm)

/-- Painting a clip hands on what is there. -/
theorem PaintJobs.threaded {media : Manifest} {facts : List (Exchange α)} {base last : Path}
    {clip : Clip α} {jobs : List (Job α)} (h : PaintJobs media facts base clip jobs last) :
    Threaded base jobs last := by
  cases h with
  | silentVideo _ _ _ _ hbase hsource =>
    refine .leaf rfl rfl (congrArg some hbase) ?_ .done
    exact List.mem_cons_of_mem _
      (List.mem_singleton.2 (congrArg Job.OverlayPicture.path hsource).symm)
  | video _ _ _ _ hbase hsource hmix =>
    refine .leaf rfl rfl (congrArg some hbase) ?_ (.composite rfl (congrArg some hmix) .done)
    exact List.mem_cons_of_mem _
      (List.mem_singleton.2 (congrArg Job.OverlayPicture.path hsource).symm)
  | image _ _ _ _ hbase => exact .composite rfl (congrArg some hbase) .done
  | text _ hbase => exact .composite rfl (congrArg some hbase) .done
  | shape _ _ _ hbase => exact .composite rfl (congrArg some hbase) .done

/-- With more in the log, the shape stays. -/
theorem PaintJobs.mono {media : Manifest} {facts facts' : List (Exchange α)} {base last : Path}
    {clip : Clip α} {jobs : List (Job α)} (h : PaintJobs media facts base clip jobs last)
    (hfacts : facts ⊆ facts') : PaintJobs media facts' base clip jobs last := by
  cases h with
  | silentVideo hcontent hvolume hsegment hoverlay hbase hsource =>
    exact .silentVideo hcontent hvolume hsegment hoverlay hbase hsource
  | video hcontent hvolume hsegment hoverlay hbase hsource hmix haudio htime =>
    exact .video hcontent hvolume hsegment hoverlay hbase hsource hmix haudio htime
  | image hcontent hreference hresolved hoverlay hbase hsource =>
    exact .image hcontent hreference (hfacts hresolved) hoverlay hbase hsource
  | text hjob hbase => exact .text hjob hbase
  | shape hcontent hdrew hoverlay hbase hsource =>
    exact .shape hcontent (hfacts hdrew) hoverlay hbase hsource

/-- All jobs of a composition that are done, and the file that they lead to. -/
inductive RenderJobs (c : Composition α) (media : Manifest) (facts : List (Exchange α)) :
    List (Job α) → Path → Prop
  | intro {first : Job α} {rest merges paints sounds : List (Job α)} {base painted last : Path}
    (hentries : List.Forall₂ Entry.RenderedBy c.entries (first :: rest))
    (hmerges : Merged first.output (rest.map Job.output) merges base)
    (hpaints : OneByOne (PaintJobs media facts) base c.layers.overlays paints painted)
    (hsounds : OneByOne (SoundJobs media) painted c.layers.audio sounds last) :
    RenderJobs c media facts ((first :: rest) ++ (merges ++ (paints ++ sounds))) last

end Shapes

/-! ### What leads to the result -/

/-- A job reads one file and writes the other. -/
def Feeds (jobs : List (Job α)) (read written : Path) : Prop :=
  ∃ job ∈ jobs, read ∈ job.inputs ∧ job.output = written

open Relation (ReflTransGen)

/-- On a thread every file leads to the last one. -/
theorem Threaded.reaches {path last : Path} {new jobs : List (Job α)}
    (h : Threaded path new last) (hnew : new ⊆ jobs) :
    ReflTransGen (Feeds jobs) path last ∧
      ∀ job ∈ new, ReflTransGen (Feeds jobs) job.output last := by
  induction h with
  | done => exact ⟨.refl, List.forall_mem_nil _⟩
  | composite hjob hbase _ ih =>
    rw [List.cons_subset] at hnew
    obtain ⟨hlast, hrest⟩ := ih hnew.2
    exact ⟨.head ⟨_, hnew.1, List.mem_of_head? hbase, rfl⟩ hlast,
      List.forall_mem_cons.2 ⟨hlast, hrest⟩⟩
  | leaf hleaf hjob hbase hread _ ih =>
    rw [List.cons_subset, List.cons_subset] at hnew
    obtain ⟨hlast, hrest⟩ := ih hnew.2.2
    exact ⟨.head ⟨_, hnew.2.1, List.mem_of_head? hbase, rfl⟩ hlast,
      List.forall_mem_cons.2 ⟨.head ⟨_, hnew.2.1, hread, rfl⟩ hlast,
        List.forall_mem_cons.2 ⟨hlast, hrest⟩⟩⟩

namespace Merged

variable {path last : Path} {paths : List Path} {jobs : List (Job α)}

theorem isMerge_of_mem (h : Merged path paths jobs last) : ∀ job ∈ jobs, job.isMerge = true := by
  induction h with
  | nil => exact List.forall_mem_nil _
  | cons hjob _ _ ih => exact List.forall_mem_cons.2 ⟨hjob, ih⟩

/-- Every file that is to be merged is read by a merge. -/
theorem exists_reads (h : Merged path paths jobs last) :
    ∀ read ∈ paths, ∃ job ∈ jobs, read ∈ job.inputs := by
  induction h with
  | nil => exact List.forall_mem_nil _
  | cons hjob hinputs _ ih =>
    refine List.forall_mem_cons.2 ⟨⟨_, List.mem_cons_self, ?_⟩, fun read hread ↦ ?_⟩
    · rw [hinputs]
      exact List.mem_cons_of_mem _ (List.mem_singleton_self _)
    · obtain ⟨job, hmem, hreads⟩ := ih read hread
      exact ⟨job, List.mem_cons_of_mem _ hmem, hreads⟩

/-- Merges read nothing but what is there, what is merged onto it, and what they write. -/
theorem filter_reads_eq_nil (h : Merged path paths jobs last) {read : Path} (hpath : read ≠ path)
    (hpaths : read ∉ paths) (hjobs : read ∉ jobs.map Job.output) :
    jobs.filter (fun job ↦ decide (read ∈ job.inputs)) = [] := by
  induction h with
  | nil => rfl
  | cons hjob hinputs _ ih =>
    rw [List.map_cons, List.mem_cons, not_or] at hjobs
    rw [List.mem_cons, not_or] at hpaths
    rw [List.filter_cons_of_neg, ih hjobs.1 hpaths.2 hjobs.2]
    rw [hinputs]
    simp [hpath, hpaths.1]

/-- If all files are different, every file that is merged onto what is there is read by exactly one
merge. -/
theorem length_filter_reads (h : Merged path paths jobs last)
    (hnodup : (path :: (paths ++ jobs.map Job.output)).Nodup) :
    ∀ read ∈ paths, (jobs.filter fun job ↦ decide (read ∈ job.inputs)).length = 1 := by
  induction h with
  | nil => exact List.forall_mem_nil _
  | @cons path next _ paths job rest hjob hinputs tail ih =>
    rw [List.cons_append, List.nodup_cons, List.nodup_cons, List.map_cons,
      List.nodup_middle] at hnodup
    obtain ⟨hpath, hnext, htail⟩ := hnodup
    simp only [List.mem_cons, List.mem_append, not_or] at hpath hnext
    refine List.forall_mem_cons.2 ⟨?_, fun read hread ↦ ?_⟩
    · rw [List.filter_cons_of_pos (by simp [hinputs]),
        tail.filter_reads_eq_nil hnext.2.1 hnext.1 hnext.2.2]
      rfl
    · have hne : read ≠ path := fun heq ↦ hpath.2.1 (heq ▸ hread)
      have hne' : read ≠ next := fun heq ↦ hnext.1 (heq ▸ hread)
      rw [List.filter_cons_of_neg (by simp [hinputs, hne, hne'])]
      exact ih htail read hread

/-- Likewise for the file that is there at first. -/
theorem length_filter_reads_base (h : Merged path paths jobs last)
    (hnodup : (path :: (paths ++ jobs.map Job.output)).Nodup) (hjobs : jobs ≠ []) :
    (jobs.filter fun job ↦ decide (path ∈ job.inputs)).length = 1 := by
  cases h with
  | nil => exact absurd rfl hjobs
  | @cons _ next _ paths job rest hjob hinputs tail =>
    rw [List.nodup_cons] at hnodup
    simp only [List.cons_append, List.mem_cons, List.mem_append, List.map_cons, not_or]
      at hnodup
    obtain ⟨⟨-, hpaths, houtput, houtputs⟩, -⟩ := hnodup
    rw [List.filter_cons_of_pos (by simp [hinputs]),
      tail.filter_reads_eq_nil houtput hpaths houtputs]
    rfl

end Merged

/-! ### Which jobs are of which kind -/

section Kinds

variable [Scalar α] {media : Manifest} {facts : List (Exchange α)} {clip : Clip α}
  {base last : Path} {jobs : List (Job α)}

/-- A job that paints a clip. A video is shown as a segment that was rendered for it, and its sound
is mixed in unless it is muted; a picture is shown from its stored file, and a shape as it was
drawn. -/
def Job.Paints (media : Manifest) (log : List (Exchange α)) (jobs : List (Job α)) (clip : Clip α)
    (job : Job α) : Prop :=
  job.Serves clip ∧
  match clip.content with
  | .video _ => ∃ (segment : Job.Segment α) (overlay : Job.Overlay α),
      (Job.segment segment ∈ jobs ∧ (Job.segment segment).Serves clip) ∧
      job = .overlay overlay ∧ overlay.source = .video segment.output ∧
      (0.0 < clip.effects.volume → ∃ mix : Job.AudioMix α, Job.audioMix mix ∈ jobs ∧
        mix.base = overlay.output ∧ mix.audio = segment.output ∧ mix.time = clip.startTime)
  | .image _ => ∃ (overlay : Job.Overlay α) (path : Path) (reference : String),
      media.reference? clip = some reference ∧ .resolved reference (.ok path) ∈ log ∧
      job = .overlay overlay ∧ overlay.source = .image path
  | .text _ => ∃ text : Job.Text α, job = .text text
  | .shape _ => ∃ (overlay : Job.Overlay α) (path : Path),
      .drew path (.ok ()) ∈ log ∧ job = .overlay overlay ∧ overlay.source = .image path
  | .audio _ => False

/-- A job that cuts the sound of a clip, which is then mixed in where the clip starts. -/
def Job.Cuts (jobs : List (Job α)) (clip : Clip α) (job : Job α) : Prop :=
  job.Serves clip ∧ ∃ (trim : Job.AudioTrim α) (mix : Job.AudioMix α), job = .audioTrim trim ∧
    Job.audioMix mix ∈ jobs ∧ mix.audio = trim.output ∧ mix.time = clip.startTime

/-- Among the jobs for an overlay exactly one paints, and it paints the clip. -/
theorem PaintJobs.filter_eq {new : List (Job α)} (h : PaintJobs media facts base clip new last)
    (hnew : new ⊆ jobs) : new.filter Job.isMerge = [] ∧ new.filter Job.isTrim = [] ∧
      ∃ job, new.filter Job.isPaint = [job] ∧ job.Paints media facts jobs clip := by
  -- the kind of the clip says what its jobs are, and each of them is the painting or none
  cases h with
  | silentVideo hcontent hvolume hsegment hoverlay hbase hsource =>
    refine ⟨rfl, rfl, _, rfl, hoverlay, ?_⟩
    rw [hcontent]
    exact ⟨_, _, ⟨hnew List.mem_cons_self, hsegment⟩, rfl, hsource, fun h ↦ absurd h hvolume⟩
  | @video _ segment overlay mix hcontent hvolume hsegment hoverlay hbase hsource hmix haudio
      htime =>
    refine ⟨rfl, rfl, _, rfl, hoverlay, ?_⟩
    rw [hcontent]
    have hmem : Job.audioMix mix ∈ jobs := hnew (by simp)
    exact ⟨_, _, ⟨hnew List.mem_cons_self, hsegment⟩, rfl, hsource,
      fun _ ↦ ⟨mix, hmem, hmix, haudio, htime⟩⟩
  | image hcontent hreference hresolved hoverlay hbase hsource =>
    refine ⟨rfl, rfl, _, rfl, hoverlay, ?_⟩
    rw [hcontent]
    exact ⟨_, _, _, hreference, hresolved, rfl, hsource⟩
  | text hjob =>
    refine ⟨rfl, rfl, _, rfl, hjob, ?_⟩
    obtain ⟨-, text, hcontent, -⟩ := hjob
    rw [hcontent]
    exact ⟨_, rfl⟩
  | shape hcontent hdrew hoverlay hbase hsource =>
    refine ⟨rfl, rfl, _, rfl, hoverlay, ?_⟩
    rw [hcontent]
    exact ⟨_, _, hdrew, rfl, hsource⟩

/-- Among the jobs for a sound one cuts it if it is mixed in, and none otherwise. -/
theorem SoundJobs.filter_eq {new : List (Job α)} (h : SoundJobs media base clip new last)
    (hnew : new ⊆ jobs) : new.filter Job.isMerge = [] ∧ new.filter Job.isPaint = [] ∧
      List.Forall₂ (Job.Cuts jobs) ([clip].filter (Clip.isMixed media))
        (new.filter Job.isTrim) := by
  cases h with
  | none hmixed =>
    refine ⟨rfl, rfl, ?_⟩
    rw [List.filter_cons_of_neg (by simp [hmixed])]
    exact .nil
  | @mixed trim mix hmixed htrim hbase haudio htime =>
    refine ⟨rfl, rfl, ?_⟩
    rw [List.filter_cons_of_pos hmixed]
    have hmem : Job.audioMix mix ∈ jobs := hnew (by simp)
    exact .cons ⟨htrim, trim, mix, rfl, hmem, haudio, htime⟩ .nil

/-- The jobs that paint are those for the overlays, in their order. -/
theorem filter_paints {overlays : List (Clip α)} {new : List (Job α)}
    (h : OneByOne (PaintJobs media facts) base overlays new last) (hnew : new ⊆ jobs) :
    new.filter Job.isMerge = [] ∧ new.filter Job.isTrim = [] ∧
      List.Forall₂ (Job.Paints media facts jobs) overlays (new.filter Job.isPaint) := by
  induction h with
  | nil => exact ⟨rfl, rfl, .nil⟩
  | cons head _ ih =>
    rw [List.append_subset] at hnew
    obtain ⟨hmerge, htrim, job, hpaint, hpaints⟩ := head.filter_eq hnew.1
    obtain ⟨hmerges, htrims, hrest⟩ := ih hnew.2
    simp only [List.filter_append, hmerge, htrim, hpaint, hmerges, htrims]
    exact ⟨rfl, rfl, .cons hpaints hrest⟩

/-- The jobs that cut are those for the sounds that are mixed in, in their order. -/
theorem filter_sounds {sounds : List (Clip α)} {new : List (Job α)}
    (h : OneByOne (SoundJobs media) base sounds new last) (hnew : new ⊆ jobs) :
    new.filter Job.isMerge = [] ∧ new.filter Job.isPaint = [] ∧
      List.Forall₂ (Job.Cuts jobs) (sounds.filter (Clip.isMixed media))
        (new.filter Job.isTrim) := by
  induction h with
  | nil => exact ⟨rfl, rfl, .nil⟩
  | @cons _ _ _ clip rest _ _ head _ ih =>
    rw [List.append_subset] at hnew
    obtain ⟨hmerge, hpaint, hcuts⟩ := head.filter_eq hnew.1
    obtain ⟨hmerges, hpaints, hrest⟩ := ih hnew.2
    rw [← List.singleton_append]
    simp only [List.filter_append, hmerge, hpaint, hmerges, hpaints]
    exact ⟨rfl, rfl, List.rel_append hcuts hrest⟩

/-- What renders an entry neither adds to what is there nor cuts a sound. -/
theorem filter_entries {entries : List (Entry α)}
    (h : List.Forall₂ Entry.RenderedBy entries jobs) :
    ∀ job ∈ jobs, job.isComposite = false ∧ job.isTrim = false := by
  induction h with
  | nil => exact List.forall_mem_nil _
  | @cons entry job _ _ head _ ih =>
    refine List.forall_mem_cons.2 ⟨?_, ih⟩
    cases entry with
    | clip =>
      obtain ⟨-, segment, rfl⟩ := head
      exact ⟨rfl, rfl⟩
    | filler =>
      obtain ⟨blank, rfl, -⟩ := head
      exact ⟨rfl, rfl⟩

/-- Before anything is merged, the first entry is what is there. -/
theorem tip?_entries {entries : List (Entry α)} {first : Job α} {rest : List (Job α)}
    (h : List.Forall₂ Entry.RenderedBy entries (first :: rest)) :
    Job.tip? (first :: rest) = some first.output := by
  rw [Job.tip?, List.filter_eq_nil_iff.2 fun job hjob ↦ by simp [filter_entries h job hjob]]
  rfl

end Kinds

/-! ### Renders -/

namespace RenderJobs

variable [Scalar α] {c : Composition α} {media : Manifest} {facts : List (Exchange α)}
  {jobs : List (Job α)} {last : Path}

theorem mono {facts' : List (Exchange α)} (h : RenderJobs c media facts jobs last)
    (hfacts : facts ⊆ facts') : RenderJobs c media facts' jobs last := by
  obtain ⟨hentries, hmerges, hpaints, hsounds⟩ := h
  exact .intro hentries hmerges (hpaints.mono fun _ _ _ _ hjobs ↦ hjobs.mono hfacts) hsounds

/-- The result is the file that is there after all jobs. -/
theorem tip?_eq (h : RenderJobs c media facts jobs last) : Job.tip? jobs = some last := by
  obtain ⟨hentries, hmerges, hpaints, hsounds⟩ := h
  have hfirst := tip?_entries hentries
  exact (hmerges.threaded.append ((hpaints.threaded fun _ _ _ _ ↦ PaintJobs.threaded).append
    (hsounds.threaded fun _ _ _ _ ↦ SoundJobs.threaded))).tip?_eq hfirst

/-- Everything that is written leads to the result. -/
theorem reaches (h : RenderJobs c media facts jobs last) :
    ∀ job ∈ jobs, ReflTransGen (Feeds jobs) job.output last := by
  obtain ⟨hentries, hmerges, hpaints, hsounds⟩ := h
  rename_i first rest merges paints sounds base painted
  obtain ⟨hlast, htail⟩ := (hmerges.threaded.append
    ((hpaints.threaded fun _ _ _ _ ↦ PaintJobs.threaded).append
      (hsounds.threaded fun _ _ _ _ ↦ SoundJobs.threaded))).reaches
        (List.subset_append_right (first :: rest) _)
  refine List.forall_mem_append.2 ⟨List.forall_mem_cons.2 ⟨hlast, fun job hjob ↦ ?_⟩, htail⟩
  -- an entry after the first one is merged onto what is there
  obtain ⟨merge, hmerge, hreads⟩ :=
    hmerges.exists_reads job.output (List.mem_map_of_mem hjob)
  have hmem : merge ∈ merges ++ (paints ++ sounds) := List.mem_append_left _ hmerge
  exact .head ⟨merge, List.mem_append_right _ hmem, hreads, rfl⟩ (htail merge hmem)

/-- If no two jobs write the same file, every entry is read by exactly one merge, unless it is the
only one. -/
theorem entries (h : RenderJobs c media facts jobs last) (hnodup : (jobs.map Job.output).Nodup) :
    ∃ rendered rest, jobs = rendered ++ rest ∧
      List.Forall₂ Entry.RenderedBy c.entries rendered ∧
      (rendered.length = 1 ∧ jobs.filter Job.isMerge = [] ∨
        ∀ job ∈ rendered, ((jobs.filter Job.isMerge).filter
          fun merge ↦ decide (job.output ∈ merge.inputs)).length = 1) := by
  obtain ⟨hentries, hmerges, hpaints, hsounds⟩ := h
  rename_i first rest merges paints sounds base painted
  refine ⟨first :: rest, _, rfl, hentries, ?_⟩
  have hfilter : ((first :: rest) ++ (merges ++ (paints ++ sounds))).filter Job.isMerge =
      merges := by
    have hnone : (first :: rest).filter Job.isMerge = [] := by
      refine List.filter_eq_nil_iff.2 fun job hjob hmerge ↦ ?_
      have hleaf := (filter_entries hentries job hjob).1
      rw [Job.isComposite_of_isMerge hmerge] at hleaf
      cases hleaf
    rw [List.filter_append, List.filter_append, List.filter_append, hnone,
      List.filter_eq_self.2 hmerges.isMerge_of_mem, (filter_paints hpaints (List.Subset.refl _)).1,
      (filter_sounds hsounds (List.Subset.refl _)).1, List.nil_append, List.append_nil,
      List.append_nil]
  rw [hfilter]
  have hfiles : (first.output :: (rest.map Job.output ++ merges.map Job.output)).Nodup := by
    refine hnodup.sublist ?_
    rw [← List.map_append, ← List.map_cons, ← List.cons_append]
    exact ((List.sublist_append_left merges _).append_left (first :: rest)).map Job.output
  -- without a merge there is only the first entry, which nothing reads
  cases hempty : merges with
  | nil =>
    subst hempty
    generalize hpaths : rest.map Job.output = paths at hmerges
    cases hmerges
    obtain rfl := List.map_eq_nil_iff.1 hpaths
    exact .inl ⟨rfl, rfl⟩
  | cons merge others =>
    rw [← hempty]
    have hne : merges ≠ [] := by
      rw [hempty]
      exact List.cons_ne_nil _ _
    refine .inr (List.forall_mem_cons.2
      ⟨hmerges.length_filter_reads_base hfiles hne, fun job hjob ↦ ?_⟩)
    exact hmerges.length_filter_reads hfiles job.output (List.mem_map_of_mem hjob)

/-- The jobs that paint in a render are those for its overlays. -/
theorem paints (h : RenderJobs c media facts jobs last) :
    List.Forall₂ (Job.Paints media facts jobs) c.layers.overlays (jobs.filter Job.isPaint) := by
  obtain ⟨hentries, hmerges, hpaints, hsounds⟩ := h
  rename_i first rest merges paints sounds base painted
  have hnone : (first :: rest).filter Job.isPaint = [] := List.filter_eq_nil_iff.2
    fun job hjob ↦ by simp [Job.isPaint_of_leaf (filter_entries hentries job hjob).1]
  have hmerge : merges.filter Job.isPaint = [] := List.filter_eq_nil_iff.2
    fun job hjob ↦ by simp [(Job.kinds_of_isMerge (hmerges.isMerge_of_mem job hjob)).1]
  have hsubset : paints ⊆ (first :: rest) ++ (merges ++ (paints ++ sounds)) :=
    List.Subset.trans (List.subset_append_left paints sounds)
      (List.Subset.trans (List.subset_append_right merges _)
        (List.subset_append_right (first :: rest) _))
  have hpainted := (filter_paints hpaints hsubset).2.2
  rwa [List.filter_append, List.filter_append, List.filter_append, hnone, hmerge,
    (filter_sounds hsounds (List.Subset.refl _)).2.1, List.nil_append, List.nil_append,
    List.append_nil]

/-- The jobs that cut in a render are those for the sounds that are mixed in. -/
theorem sounds (h : RenderJobs c media facts jobs last) :
    List.Forall₂ (Job.Cuts jobs) (c.layers.audio.filter (Clip.isMixed media))
      (jobs.filter Job.isTrim) := by
  obtain ⟨hentries, hmerges, hpaints, hsounds⟩ := h
  rename_i first rest merges paints sounds base painted
  have hnone : (first :: rest).filter Job.isTrim = [] := List.filter_eq_nil_iff.2
    fun job hjob ↦ by simp [(filter_entries hentries job hjob).2]
  have hmerge : merges.filter Job.isTrim = [] := List.filter_eq_nil_iff.2
    fun job hjob ↦ by simp [(Job.kinds_of_isMerge (hmerges.isMerge_of_mem job hjob)).2]
  have hsubset : sounds ⊆ (first :: rest) ++ (merges ++ (paints ++ sounds)) :=
    List.Subset.trans (List.subset_append_right paints sounds)
      (List.Subset.trans (List.subset_append_right merges _)
        (List.subset_append_right (first :: rest) _))
  have hcut := (filter_sounds hsounds hsubset).2.2
  rwa [List.filter_append, List.filter_append, List.filter_append, hnone, hmerge,
    (filter_paints hpaints (List.Subset.refl _)).2.1, List.nil_append, List.nil_append,
    List.nil_append]

end RenderJobs

end Splice
