import Splice.Proofs.Plan.Layers
import Splice.Proofs.Render.Decoration
import Splice.Proofs.Render.Lineage

/-!
# Threading

What becomes of a run that stands between two jobs (`Session.Stands`) when a session renders
entries, merges them, paints over the result and mixes sounds in: every job that it issues fits what
was done and logged, and the jobs that are done have the shapes of a line of jobs from the first
entry to the result. The file that is handed on is always the one that is there.
-/

namespace Splice

open Exchange (done)

variable {α σ : Type}

section Session

variable [Scalar α] {s : Session (StateM (σ × List (Exchange α))) α} {clips : List (Clip α)}
  {jobs : List (Job α)} {reserved : List Path} {facts : List (Exchange α)}
  {p q : Situation α (σ × List (Exchange α))}

/-- A job that reads what is there first, and then nothing but what jobs wrote. -/
theorem Job.Fitting.of_written {media : Manifest} {job : Job α} {path : Path} {others : List Path}
    (htip : Job.tip? jobs = some path) (hinputs : job.inputs = path :: others)
    (hothers : ∀ read ∈ others, read ∈ jobs.map Job.output) :
    job.Fitting clips media jobs facts where
  reads read hread := by
    rw [hinputs] at hread
    rcases List.mem_cons.1 hread with rfl | hread
    · exact .inl (Job.mem_of_tip?_eq htip)
    · exact .inl (hothers read hread)
  base _ := by rw [hinputs, htip, List.head?_cons]

namespace Session

open RenderT (Meets)

/-- Settling a crop at most asks for a size, so it does no job. -/
theorem rests_of_ends_cropOf (hs : s.IsLogged) {look : Look α} {path : Path}
    {r : Except Failure (Option PixelBox)} (h : (s.cropOf look path).Ends p r q) : p.Rests q := by
  rw [cropOf] at h
  cases hcrop : look.crop? with
  | none =>
    rw [hcrop] at h
    obtain ⟨-, rfl⟩ := RenderT.ends_pure.1 h
    exact .refl _
  | some box =>
    rw [hcrop] at h
    rcases RenderT.ends_bind.1 h with ⟨info?, t, hinspect, h⟩ | ⟨_, hinspect, -⟩
    · obtain ⟨-, rfl⟩ := RenderT.ends_pure.1 h
      exact rests_of_ends_inspect hs hinspect
    · exact rests_of_ends_inspect hs hinspect

/-- The segment job that is set up for a clip reads its file and serves the clip. -/
theorem stands_segmentOf (hs : s.IsLogged) (h : s.Stands clips jobs reserved facts p)
    {clip : Clip α} {media : MediaClip α} (hcontent : clip.content = .video media) (path : Path)
    (blended : BlendedEdges) (output : Path) :
    Meets (s.Sound clips) p (s.segmentOf clip.duration media path blended output) fun job q ↦
      (job.input = path ∧ job.output = output ∧ (Job.segment job).Serves clip) ∧
        s.Stands clips jobs reserved facts q := by
  refine (stands_hasAudio hs h path).bind fun hasAudio t ht ↦ ?_
  refine (meets_of_rests ht fun _ _ ↦ rests_of_ends_cropOf hs).bind fun crop? u hu ↦ ?_
  exact .pure hu.sound ⟨⟨rfl, rfl, media, hcontent, rfl, rfl, rfl⟩, hu⟩

/-- A segment is one job, which serves its clip. -/
theorem stands_makeSegment (hs : s.IsLogged) (h : s.Stands clips jobs reserved facts p)
    {clip : Clip α} {media : MediaClip α} {path : Path} {reference : String} (hclip : clip ∈ clips)
    (hcontent : clip.content = .video media)
    (hreference : s.media.reference? clip = some reference)
    (hresolved : .resolved reference (.ok path) ∈ facts) (blended : BlendedEdges) :
    Meets (s.Sound clips) p (s.makeSegment clip media path blended) fun file q ↦
      ∃ job : Job.Segment α, job.output = file.path ∧ (Job.segment job).Serves clip ∧
        s.Stands clips (jobs ++ [.segment job]) [] facts q := by
  refine (stands_freshPath h _ _).bind fun output t ht ↦ ?_
  refine (stands_segmentOf hs ht hcontent path blended output).bind fun job u hu ↦ ?_
  obtain ⟨⟨hinput, rfl, hserves⟩, hu⟩ := hu
  have hjob : (Job.segment job).Fitting clips s.media jobs facts := {
    reads := fun read hread ↦ by
      obtain rfl : read = path := (List.mem_singleton.1 hread).trans hinput
      exact .inr (.inr ⟨clip, hclip, hserves, reference, hreference, hresolved⟩)
    base := nofun }
  refine (stands_run hs _ hu hjob).bind fun written v hv ↦ ?_
  exact .pure hv.2.sound ⟨job, hv.1.symm, hserves, hv.2⟩

/-- A filler is one job that makes a blank of its length. -/
theorem stands_renderFiller (hs : s.IsLogged) (h : s.Stands clips jobs reserved facts p)
    (filler : Filler α) :
    Meets (s.Sound clips) p (s.renderFiller filler) fun file q ↦
      ∃ job : Job.Blank α, job.output = file.path ∧ job.duration = filler.duration ∧
        s.Stands clips (jobs ++ [.blank job]) [] facts q := by
  refine (stands_freshPath h _ _).bind fun output t ht ↦ ?_
  have hjob : (Job.blank ⟨s.canvas.width, s.canvas.height, filler.duration, s.canvas.encoding,
      output⟩ : Job α).Fitting clips s.media jobs facts := ⟨nofun, nofun⟩
  refine (stands_run hs _ ht hjob).bind fun written u hu ↦ ?_
  exact .pure hu.2.sound ⟨_, hu.1.symm, rfl, hu.2⟩

/-! ### Entries -/

/-- An entry of the base is rendered by one job. -/
theorem stands_renderEntry (hs : s.IsLogged) (h : s.Stands clips jobs reserved facts p)
    (c : Composition α) {entry : Entry α}
    (hclip : ∀ index clip, entry = .clip index clip → clip ∈ clips) :
    Meets (s.Sound clips) p (s.renderEntry c entry) fun piece q ↦
      ∃ job, entry.RenderedBy job ∧ job.output = piece.rendered.path ∧
        s.Stands clips (jobs ++ [job]) [] facts q := by
  cases entry with
  | clip index clip =>
    rw [renderEntry]
    cases hvideo : clip.video? with
    | none => exact .throw h.sound
    | some media =>
      have hcontent := Clip.content_of_video? hvideo
      refine (stands_source hs h media.sourceId).bind fun input t ht ↦ ?_
      obtain ⟨reference, hlookup, ht⟩ := ht
      -- the file that was found is the one that the clip refers to
      have hreference : s.media.reference? clip = some reference := by
        rw [Manifest.reference?, hcontent]
        exact hlookup
      refine (stands_makeSegment hs ht (hclip index clip rfl) hcontent hreference
        List.mem_cons_self _).bind fun file u hu ↦ ?_
      obtain ⟨job, houtput, hserves, hu⟩ := hu
      refine (meets_of_rests hu fun _ _ ↦ RenderT.rests_of_ends_record).bind fun _ v hv ↦ ?_
      exact .pure hv.sound ⟨.segment job, ⟨hserves, job, rfl⟩, houtput,
        hv.forget (List.subset_cons_self _ _)⟩
  | filler filler =>
    refine (stands_renderFiller hs h filler).bind fun file t ht ↦ ?_
    obtain ⟨job, houtput, hduration, ht⟩ := ht
    refine (meets_of_rests ht fun _ _ ↦ RenderT.rests_of_ends_record).bind fun _ u hu ↦ ?_
    exact .pure hu.sound ⟨.blank job, ⟨job, rfl, hduration⟩, houtput, hu⟩

/-- The entries are rendered by one job each, in their order. -/
theorem stands_renderEntries (hs : s.IsLogged) (h : s.Stands clips jobs [] facts p)
    (c : Composition α) {entries : List (Entry α)}
    (hclips : ∀ entry ∈ entries, ∀ index clip, entry = .clip index clip → clip ∈ clips) :
    Meets (s.Sound clips) p (entries.mapM (s.renderEntry c)) fun pieces q ↦
      ∃ new, List.Forall₂ Entry.RenderedBy entries new ∧
        new.map Job.output = pieces.map (·.rendered.path) ∧
        s.Stands clips (jobs ++ new) [] facts q := by
  induction entries generalizing jobs p with
  | nil => exact .pure h.sound ⟨[], .nil, rfl, by rwa [List.append_nil]⟩
  | cons entry rest ih =>
    rw [List.forall_mem_cons] at hclips
    rw [List.mapM_cons]
    refine (stands_renderEntry hs h c hclips.1).bind fun piece t ht ↦ ?_
    obtain ⟨job, hrendered, houtput, ht⟩ := ht
    refine (ih ht hclips.2).bind fun pieces u hu ↦ ?_
    obtain ⟨new, hnew, houtputs, hu⟩ := hu
    refine .pure hu.sound ⟨job :: new, .cons hrendered hnew, ?_, ?_⟩
    · rw [List.map_cons, houtput, houtputs, List.map_cons]
    · rwa [List.append_cons]

/-! ### Merges -/

variable {left right : RenderedFile α}

/-- A blend that is set up reads the two files in their order and writes a reserved path. -/
theorem stands_blendJob (h : s.Stands clips jobs reserved facts p) (left right : RenderedFile α)
    (style : TransitionStyle) (duration : α) :
    Meets (s.Sound clips) p (s.blendJob left right style duration) fun job q ↦
      (job.first = left.path ∧ job.second = right.path) ∧
        s.Stands clips jobs [job.output] facts q :=
  (stands_freshPath h _ _).bind fun _ _ ht ↦ .pure ht.sound ⟨⟨rfl, rfl⟩, ht⟩

/-- A blend of two files is one job that is done, after one that failed or not. -/
theorem stands_blendFiles (hs : s.IsLogged) (h : s.Stands clips jobs reserved facts p)
    (hleft : Job.tip? jobs = some left.path) (hright : right.path ∈ jobs.map Job.output)
    (style : TransitionStyle) (duration : α) :
    Meets (s.Sound clips) p (s.blendFiles left right style duration) fun result q ↦
      ∃ job : Job.Transition α, (job.first = left.path ∧ job.second = right.path) ∧
        job.output = result.1 ∧ s.Stands clips (jobs ++ [.transition job]) [] facts q := by
  have hfitting {job : Job.Transition α} (hjob : job.first = left.path ∧ job.second = right.path) :
      (Job.transition job).Fitting clips s.media jobs facts := by
    refine .of_written hleft ?_ (List.forall_mem_singleton.2 hright)
    rw [Job.inputs, hjob.1, hjob.2]
  refine (stands_blendJob h left right style duration).bind fun job t ht ↦ ?_
  obtain ⟨hjob, ht⟩ := ht
  refine (stands_attempt hs (.transition job) ht (hfitting hjob)).bind fun failure? u hu ↦ ?_
  -- a blend that failed is done over in the fallback style, from the same two files
  cases failure? with
  | none => exact .pure hu.sound ⟨job, hjob, rfl, hu⟩
  | some e =>
    dsimp only
    split_ifs
    · refine (stands_blendJob hu left right .fallback duration).bind fun second v hv ↦ ?_
      obtain ⟨hsecond, hv⟩ := hv
      refine (stands_run hs (.transition second) hv (hfitting hsecond)).bind fun path w hw ↦ ?_
      exact .pure hw.2.sound ⟨second, hsecond, hw.1.symm, hw.2⟩
    · exact .throw hu.sound

/-- A merge by a transition is one more job, which reads the two files. -/
theorem stands_mergeByTransition (hs : s.IsLogged) (h : s.Stands clips jobs reserved facts p)
    (hleft : Job.tip? jobs = some left.path) (hright : right.path ∈ jobs.map Job.output)
    (style : TransitionStyle) (duration : α) (fromId toId : String) :
    Meets (s.Sound clips) p (s.mergeByTransition left right style duration fromId toId)
      fun file q ↦ ∃ job : Job α, (job.isMerge = true ∧ job.inputs = [left.path, right.path]) ∧
        job.output = file.path ∧ s.Stands clips (jobs ++ [job]) [] facts q := by
  refine (stands_blendFiles hs h hleft hright style duration).bind fun result t ht ↦ ?_
  obtain ⟨job, ⟨hfirst, hsecond⟩, houtput, ht⟩ := ht
  refine (meets_of_rests ht fun _ _ ↦ RenderT.rests_of_ends_record).bind fun _ u hu ↦ ?_
  exact .pure hu.sound ⟨.transition job, ⟨rfl, by rw [Job.inputs, hfirst, hsecond]⟩, houtput, hu⟩

/-- So is a merge that only puts the two files one after the other. -/
theorem stands_mergeByConcat (hs : s.IsLogged) (h : s.Stands clips jobs reserved facts p)
    (hleft : Job.tip? jobs = some left.path) (hright : right.path ∈ jobs.map Job.output) :
    Meets (s.Sound clips) p (s.mergeByConcat left right)
      fun file q ↦ ∃ job : Job α, (job.isMerge = true ∧ job.inputs = [left.path, right.path]) ∧
        job.output = file.path ∧ s.Stands clips (jobs ++ [job]) [] facts q := by
  refine (stands_freshPath h _ _).bind fun listPath t ht ↦ ?_
  refine (stands_freshPath ht _ _).bind fun output u hu ↦ ?_
  have hjob : (Job.concat ⟨[left.path, right.path], listPath, output⟩ : Job α).Fitting clips s.media
      jobs facts := .of_written hleft rfl (List.forall_mem_singleton.2 hright)
  refine (stands_run hs _ hu hjob).bind fun path v hv ↦ ?_
  refine (meets_of_rests hv.2 fun _ _ ↦ RenderT.rests_of_ends_record).bind fun _ w hw ↦ ?_
  exact .pure hw.sound ⟨_, ⟨rfl, rfl⟩, hv.1.symm, hw⟩

/-- Every piece is merged onto the file that is there, which stays the tip of the line of jobs. -/
theorem stands_mergeOnto (hs : s.IsLogged) (blendAfter? : ℕ → Option (TransitionStyle × α))
    {running : RenderedFile α} {last? : Option (ℕ × String)} {pieces : List (Piece α)}
    (h : s.Stands clips jobs [] facts p) (hrunning : Job.tip? jobs = some running.path)
    (hpieces : ∀ piece ∈ pieces, piece.rendered.path ∈ jobs.map Job.output) :
    Meets (s.Sound clips) p (s.mergeOnto blendAfter? running last? pieces) fun file q ↦
      ∃ new, Merged running.path (pieces.map (·.rendered.path)) new file.path ∧
        s.Stands clips (jobs ++ new) [] facts q := by
  induction pieces generalizing jobs p running last? with
  | nil => exact .pure h.sound ⟨[], .nil, by rwa [List.append_nil]⟩
  | cons next rest ih =>
    rw [List.forall_mem_cons] at hpieces
    rw [mergeOnto]
    -- the rest of the pieces goes the same way after either kind of merge
    have hrest {merged : RenderedFile α} {t : Situation α (σ × List (Exchange α))}
        (hmerged : ∃ job : Job α,
          (job.isMerge = true ∧ job.inputs = [running.path, next.rendered.path]) ∧
          job.output = merged.path ∧ s.Stands clips (jobs ++ [job]) [] facts t) :
        Meets (s.Sound clips) t (s.mergeOnto blendAfter? merged next.clip? rest) fun file q ↦
          ∃ new, Merged running.path ((next :: rest).map (·.rendered.path)) new file.path ∧
            s.Stands clips (jobs ++ new) [] facts q := by
      obtain ⟨job, ⟨hmerge, hinputs⟩, houtput, ht⟩ := hmerged
      have htip : Job.tip? (jobs ++ [job]) = some merged.path := by
        rw [Job.tip?_append_composite (Job.isComposite_of_isMerge hmerge), houtput]
      refine (ih ht htip ?_).mono fun file q hq ↦ ?_
      · intro piece hpiece
        rw [List.map_append]
        exact List.mem_append_left _ (hpieces.2 piece hpiece)
      · obtain ⟨new, hnew, hq⟩ := hq
        refine ⟨job :: new, .cons hmerge hinputs (houtput ▸ hnew), ?_⟩
        rwa [List.append_cons]
    rcases Piece.transitionTo? blendAfter? last? next.clip? with
      - | ⟨style, duration, fromId, toId⟩
    · exact (stands_mergeByConcat hs h hrunning hpieces.1).bind fun _ _ ht ↦ hrest ht
    · exact (stands_mergeByTransition hs h hrunning hpieces.1 _ _ _ _).bind fun _ _ ht ↦ hrest ht

/-- All entries are merged, from the first one on. -/
theorem stands_mergePieces (hs : s.IsLogged) (blendAfter? : ℕ → Option (TransitionStyle × α))
    {entries : List (Entry α)} {pieces : List (Piece α)}
    (h : s.Stands clips jobs [] facts p) (hentries : List.Forall₂ Entry.RenderedBy entries jobs)
    (hpieces : jobs.map Job.output = pieces.map (·.rendered.path)) :
    Meets (s.Sound clips) p (s.mergePieces blendAfter? pieces) fun file q ↦
      ∃ first rest merges, jobs = first :: rest ∧
        Merged first.output (rest.map Job.output) merges file.path ∧
        s.Stands clips (jobs ++ merges) [] facts q := by
  cases pieces with
  | nil => exact .throw h.sound
  | cons piece others =>
    rcases jobs with - | ⟨first, rest⟩
    · cases hpieces
    · rw [List.map_cons, List.map_cons, List.cons.injEq] at hpieces
      have htip := tip?_entries hentries
      rw [hpieces.1] at htip
      refine (stands_mergeOnto hs blendAfter? h htip ?_).mono fun file q hq ↦ ?_
      · intro other hother
        rw [List.map_cons, hpieces.2]
        exact List.mem_cons_of_mem _ (List.mem_map_of_mem hother)
      · obtain ⟨merges, hmerges, hq⟩ := hq
        refine ⟨first, rest, merges, rfl, ?_, hq⟩
        rwa [hpieces.1, hpieces.2]

/-! ### Sounds -/

variable {base : RenderedFile α}

/-- A mix is one job, which reads the base and a file that is written already. -/
theorem stands_mixSound (hs : s.IsLogged) (base : RenderedFile α)
    (h : s.Stands clips jobs reserved facts p) (hbase : Job.tip? jobs = some base.path)
    {path : Path} (hpath : path ∈ jobs.map Job.output) (time : α) (label : String) :
    Meets (s.Sound clips) p (s.mixSound base path time label) fun file q ↦
      ∃ mix : Job.AudioMix α, (mix.base = base.path ∧ mix.audio = path ∧ mix.time = time) ∧
        mix.output = file.path ∧ s.Stands clips (jobs ++ [.audioMix mix]) [] facts q := by
  refine (stands_hasAudio hs h path).bind fun hasAudio t ht ↦ ?_
  cases hasAudio with
  | false => exact Meets.bind (.throw ht.sound) fun _ _ ↦ False.elim
  | true =>
    refine (stands_hasAudio hs ht base.path).bind fun baseHasAudio u hu ↦ ?_
    refine (stands_freshPath hu _ _).bind fun output v hv ↦ ?_
    have hjob : (Job.audioMix ⟨base.path, path, time, 1.0, baseHasAudio, base.duration,
        output⟩).Fitting clips s.media jobs facts :=
      .of_written hbase rfl (List.forall_mem_singleton.2 hpath)
    refine (stands_run hs _ hv hjob).bind fun written w hw ↦ ?_
    exact .pure hw.2.sound ⟨_, ⟨rfl, rfl, rfl⟩, hw.1.symm, hw.2⟩

/-- A sound that is heard takes two jobs: it is trimmed, and the trim is mixed in. -/
theorem stands_mixClip (hs : s.IsLogged) (h : s.Stands clips jobs reserved facts p)
    (hbase : Job.tip? jobs = some base.path) {clip : Clip α} {audio : AudioClip α}
    (hclip : clip ∈ clips) (hcontent : clip.content = .audio audio) :
    Meets (s.Sound clips) p (s.mixClip base clip audio) fun file q ↦
      ∃ (trim : Job.AudioTrim α) (mix : Job.AudioMix α), (Job.audioTrim trim).Serves clip ∧
        (mix.base = base.path ∧ mix.audio = trim.output ∧ mix.time = clip.startTime) ∧
        mix.output = file.path ∧
        s.Stands clips (jobs ++ [.audioTrim trim, .audioMix mix]) [] facts q := by
  refine (stands_asset hs h audio.sourceId).bind fun input t ht ↦ ?_
  obtain ⟨reference, hlookup, ht⟩ := ht
  refine (stands_freshPath ht _ _).bind fun output u hu ↦ ?_
  -- the job that cuts the sound out of its stored file
  let trim : Job.AudioTrim α := ⟨input, Scalar.max audio.trimStart 0.0,
    Scalar.max clip.duration leastSegment, audio.effects.volume, audio.effects.audioFadeIn,
    audio.effects.audioFadeOut, output⟩
  have hserves : (Job.audioTrim trim).Serves clip := ⟨audio, hcontent, rfl, rfl, rfl⟩
  have hreference : s.media.reference? clip = some reference := by
    rw [Manifest.reference?, hcontent]
    exact hlookup
  have hjob : (Job.audioTrim trim).Fitting clips s.media jobs
      (.resolved reference (.ok input) :: facts) := {
    reads := fun read hread ↦ by
      rw [List.mem_singleton.1 hread]
      exact .inr (.inr ⟨clip, hclip, hserves, reference, hreference, List.mem_cons_self⟩)
    base := nofun }
  refine (stands_run hs _ hu hjob).bind fun trimmed v hv ↦ ?_
  obtain ⟨rfl, hv⟩ := hv
  have htip : Job.tip? (jobs ++ [.audioTrim trim]) = some base.path :=
    Job.tip?_append_leaf hbase rfl
  have htrimmed : trim.output ∈ (jobs ++ [Job.audioTrim trim]).map Job.output :=
    Job.output_mem_append jobs (.audioTrim trim)
  refine (stands_mixSound hs base (hv.forget (List.subset_cons_self _ _)) htip htrimmed
    clip.startTime clip.id).mono fun file w hw ↦ ?_
  obtain ⟨mix, hmix, houtput, hw⟩ := hw
  refine ⟨trim, mix, hserves, hmix, houtput, ?_⟩
  rwa [List.append_assoc] at hw

/-- A sound is mixed in, or it is left out where the project says so. -/
theorem stands_addSound (hs : s.IsLogged) (h : s.Stands clips jobs [] facts p)
    (hbase : Job.tip? jobs = some base.path) {clip : Clip α} (hclip : clip ∈ clips) :
    Meets (s.Sound clips) p (s.addSound base clip) fun file q ↦
      ∃ new, SoundJobs s.media base.path clip new file.path ∧
        s.Stands clips (jobs ++ new) [] facts q := by
  rw [addSound]
  -- a sound that is left out takes no job, and hands on the file as it is
  have hnone {t : Situation α (σ × List (Exchange α))} (ht : s.Stands clips jobs [] facts t)
      (hmixed : clip.isMixed s.media = false) :
      Meets (s.Sound clips) t (pure base) fun file q ↦
        ∃ new, SoundJobs s.media base.path clip new file.path ∧
          s.Stands clips (jobs ++ new) [] facts q :=
    .pure ht.sound ⟨[], .none hmixed, by rwa [List.append_nil]⟩
  split
  · rename_i audio hcontent
    split_ifs with hsource hmuted
    · refine (meets_of_rests h fun _ _ ↦ RenderT.rests_of_ends_record).bind fun _ t ht ↦ ?_
      exact hnone ht (by simp [Clip.isMixed, hcontent, hsource])
    · exact hnone h (by simp [Clip.isMixed, hcontent, hmuted])
    · refine (stands_mixClip hs h hbase hclip hcontent).mono fun file q hq ↦ ?_
      obtain ⟨trim, mix, hserves, ⟨hmix, haudio, htime⟩, houtput, hq⟩ := hq
      refine ⟨_, ?_, hq⟩
      rw [← houtput]
      exact .mixed (by simp [Clip.isMixed, hcontent, hsource, hmuted]) hserves hmix haudio htime
  · rename_i hcontent
    refine hnone h ?_
    rw [Clip.isMixed]
    split
    · rename_i audio haudio
      exact absurd haudio (hcontent audio)
    · rfl

/-! ### Overlays -/

/-- An overlay job that is set up paints over the base for its clip. -/
theorem stands_paintJob (h : s.Stands clips jobs reserved facts p) (clip : Clip α)
    (base : RenderedFile α) (source : Job.OverlayPicture) (placement : Placement α) (stop : α)
    (mode : FitMode) (rotation : α) :
    Meets (s.Sound clips) p (s.paintJob clip base source placement stop mode rotation)
      fun job q ↦ (job.base = base.path ∧ job.source = source ∧ (Job.overlay job).Serves clip) ∧
        s.Stands clips jobs [job.output] facts q :=
  (stands_freshPath h _ _).bind fun _ _ ht ↦ .pure ht.sound ⟨⟨rfl, rfl, rfl⟩, ht⟩

/-- An overlay that shows a file which it may read is one job. -/
theorem stands_runOverlay (hs : s.IsLogged) {job : Job.Overlay α}
    (h : s.Stands clips jobs [job.output] facts p) (hbase : Job.tip? jobs = some base.path)
    (hjob : job.base = base.path)
    (hsource : (Job.overlay job).MayRead clips s.media jobs facts job.source.path) :
    Meets (s.Sound clips) p (s.run (.overlay job)) fun path q ↦
      path = job.output ∧ s.Stands clips (jobs ++ [.overlay job]) [] facts q := by
  refine stands_run hs (.overlay job) h ⟨fun read hread ↦ ?_, fun _ ↦ ?_⟩
  · rcases List.mem_cons.1 hread with rfl | hread
    · exact .inl (hjob ▸ Job.mem_of_tip?_eq hbase)
    · rwa [List.mem_singleton.1 hread]
  · rw [hbase]
    exact congrArg some hjob

/-- What painting a clip comes to: the jobs for it, and what is known after them. -/
def Painted (s : Session (StateM (σ × List (Exchange α))) α) (clips : List (Clip α))
    (jobs : List (Job α)) (facts : List (Exchange α)) (base : RenderedFile α) (clip : Clip α)
    (file : RenderedFile α) (q : Situation α (σ × List (Exchange α))) : Prop :=
  ∃ new facts', facts ⊆ facts' ∧ PaintJobs s.media facts' base.path clip new file.path ∧
    s.Stands clips (jobs ++ new) [] facts' q

/-- A video is painted by the segment that serves it and the overlay that shows the segment. -/
theorem painted_paintVideo (hs : s.IsLogged) (h : s.Stands clips jobs [] facts p)
    (hbase : Job.tip? jobs = some base.path) {clip : Clip α} {video : MediaClip α}
    (hclip : clip ∈ clips) (hcontent : clip.content = .video video) :
    Meets (s.Sound clips) p (s.paintVideo base clip video)
      (s.Painted clips jobs facts base clip) := by
  refine (stands_source hs h video.sourceId).bind fun input t ht ↦ ?_
  obtain ⟨reference, hlookup, ht⟩ := ht
  have hreference : s.media.reference? clip = some reference := by
    rw [Manifest.reference?, hcontent]
    exact hlookup
  refine (stands_makeSegment hs ht hclip hcontent hreference List.mem_cons_self _).bind
    fun file u hu ↦ ?_
  obtain ⟨segment, houtput, hsegment, hu⟩ := hu
  have htip : Job.tip? (jobs ++ [.segment segment]) = some base.path :=
    Job.tip?_append_leaf hbase rfl
  have hwritten : segment.output ∈ (jobs ++ [Job.segment segment]).map Job.output :=
    Job.output_mem_append jobs (.segment segment)
  refine (stands_paintJob hu clip base _ _ _ _ _).bind fun overlay v hv ↦ ?_
  obtain ⟨⟨hoverlay, hsource, hserves⟩, hv⟩ := hv
  rw [← houtput] at hsource
  refine (stands_runOverlay hs hv htip hoverlay (hsource ▸ .inl hwritten)).bind fun path w hw ↦ ?_
  obtain ⟨rfl, hw⟩ := hw
  dsimp only
  split_ifs with hvolume
  -- the sound of the segment is mixed into the painted file, unless it is muted
  · have hpath : file.path ∈
        ((jobs ++ [Job.segment segment]) ++ [Job.overlay overlay]).map Job.output := by
      rw [← houtput, List.map_append]
      exact List.mem_append_left _ hwritten
    refine (stands_mixSound hs ⟨overlay.output, base.duration⟩ hw (Job.tip?_append_composite rfl)
      hpath clip.startTime clip.id).mono fun mixed x hx ↦ ?_
    obtain ⟨mix, ⟨hmix, haudio, htime⟩, hmixed, hx⟩ := hx
    refine ⟨[.segment segment, .overlay overlay, .audioMix mix], facts, List.Subset.refl _, ?_, ?_⟩
    · rw [← hmixed]
      exact .video hcontent hvolume hsegment hserves hoverlay hsource hmix
        (haudio.trans houtput.symm) htime
    · rw [List.append_assoc, List.append_assoc] at hx
      exact hx.forget (List.subset_cons_self _ _)
  · refine .pure hw.sound ⟨[.segment segment, .overlay overlay], facts, List.Subset.refl _,
      .silentVideo hcontent hvolume hsegment hserves hoverlay hsource, ?_⟩
    rw [List.append_assoc] at hw
    exact hw.forget (List.subset_cons_self _ _)

/-- A picture is painted by one overlay of its file. -/
theorem painted_paintPicture (hs : s.IsLogged) (h : s.Stands clips jobs [] facts p)
    (hbase : Job.tip? jobs = some base.path) {clip : Clip α} {image : MediaClip α}
    (hclip : clip ∈ clips) (hcontent : clip.content = .image image) :
    Meets (s.Sound clips) p (s.paintPicture base clip image)
      (s.Painted clips jobs facts base clip) := by
  refine (stands_asset hs h image.sourceId).bind fun path t ht ↦ ?_
  obtain ⟨reference, hlookup, ht⟩ := ht
  have hreference : s.media.reference? clip = some reference := by
    rw [Manifest.reference?, hcontent]
    exact hlookup
  refine (stands_paintJob ht clip base _ _ _ _ _).bind fun overlay u hu ↦ ?_
  obtain ⟨⟨hoverlay, hsource, hserves⟩, hu⟩ := hu
  refine (stands_runOverlay hs hu hbase hoverlay ?_).bind fun written v hv ↦ ?_
  · rw [hsource]
    exact .inr (.inr ⟨clip, hclip, hserves, reference, hreference, List.mem_cons_self⟩)
  · obtain ⟨rfl, hv⟩ := hv
    exact .pure hv.sound ⟨_, _, List.subset_cons_self _ _,
      .image hcontent hreference List.mem_cons_self hserves hoverlay hsource, hv⟩

/-- A text is painted by one job, which reads nothing but the base. -/
theorem painted_paintText (hs : s.IsLogged) (h : s.Stands clips jobs [] facts p)
    (hbase : Job.tip? jobs = some base.path) {clip : Clip α} {text : TextClip α}
    (hcontent : clip.content = .text text) :
    Meets (s.Sound clips) p (s.paintText base clip text)
      (s.Painted clips jobs facts base clip) := by
  refine (stands_freshPath h _ _).bind fun output t ht ↦ ?_
  refine (stands_run hs (.text _) ht
    (.of_written hbase rfl (List.forall_mem_nil _))).bind fun written u hu ↦ ?_
  obtain ⟨rfl, hu⟩ := hu
  exact .pure hu.sound ⟨_, facts, List.Subset.refl _,
    .text ⟨rfl, text, hcontent, rfl⟩ (by rfl), hu⟩

/-- A shape is painted by one overlay of the drawing that was made for it. -/
theorem painted_paintShape (hs : s.IsLogged) (h : s.Stands clips jobs [] facts p)
    (hbase : Job.tip? jobs = some base.path) {clip : Clip α} {shape : ShapeClip α}
    (hcontent : clip.content = .shape shape) :
    Meets (s.Sound clips) p (s.paintShape base clip shape)
      (s.Painted clips jobs facts base clip) := by
  refine (stands_freshPath h _ _).bind fun drawing t ht ↦ ?_
  refine (stands_drawInto hs ht drawing _).bind fun _ u hu ↦ ?_
  refine (stands_paintJob hu clip base _ _ _ _ _).bind fun overlay v hv ↦ ?_
  obtain ⟨⟨hoverlay, hsource, hserves⟩, hv⟩ := hv
  refine (stands_runOverlay hs hv hbase hoverlay ?_).bind fun written w hw ↦ ?_
  · rw [hsource]
    exact .inr (.inl List.mem_cons_self)
  · obtain ⟨rfl, hw⟩ := hw
    exact .pure hw.sound ⟨_, _, List.subset_cons_self _ _,
      .shape hcontent List.mem_cons_self hserves hoverlay hsource, hw⟩

/-- Everything that is seen over the base is painted. -/
theorem painted_addOverlay (hs : s.IsLogged) (h : s.Stands clips jobs [] facts p)
    (hbase : Job.tip? jobs = some base.path) {clip : Clip α} (hclip : clip ∈ clips)
    (hseen : clip.isAudio = false) :
    Meets (s.Sound clips) p (s.addOverlay base clip)
      (s.Painted clips jobs facts base clip) := by
  rw [addOverlay]
  split
  · exact painted_paintVideo hs h hbase hclip ‹_›
  · exact painted_paintPicture hs h hbase hclip ‹_›
  · exact painted_paintText hs h hbase ‹_›
  · exact painted_paintShape hs h hbase ‹_›
  · rename_i hcontent
    rw [Clip.isAudio, hcontent] at hseen
    cases hseen

/-- The overlays are painted one by one, each over what the one before it left. -/
theorem stands_addOverlays (hs : s.IsLogged) {overlays : List (Clip α)}
    (h : s.Stands clips jobs [] facts p) (hbase : Job.tip? jobs = some base.path)
    (hoverlays : ∀ clip ∈ overlays, clip ∈ clips ∧ clip.isAudio = false) :
    Meets (s.Sound clips) p (s.addOverlays base overlays) fun file q ↦
      ∃ new facts', facts ⊆ facts' ∧
        OneByOne (PaintJobs s.media facts') base.path overlays new file.path ∧
        s.Stands clips (jobs ++ new) [] facts' q := by
  induction overlays generalizing jobs facts p base with
  | nil => exact .pure h.sound ⟨[], facts, List.Subset.refl _, .nil, by rwa [List.append_nil]⟩
  | cons clip rest ih =>
    rw [List.forall_mem_cons] at hoverlays
    rw [addOverlays, List.foldlM_cons]
    refine (painted_addOverlay hs h hbase hoverlays.1.1 hoverlays.1.2).bind fun file t ht ↦ ?_
    obtain ⟨new, facts', hfacts, hnew, ht⟩ := ht
    refine (ih ht (hnew.threaded.tip?_eq hbase) hoverlays.2).mono fun last u hu ↦ ?_
    obtain ⟨more, facts'', hfacts', hmore, hu⟩ := hu
    refine ⟨new ++ more, facts'', List.Subset.trans hfacts hfacts',
      .cons (hnew.mono hfacts') hmore, ?_⟩
    rwa [← List.append_assoc]

/-- The sounds are mixed in one by one, each into what the one before it left. -/
theorem stands_addSounds (hs : s.IsLogged) {sounds : List (Clip α)}
    (h : s.Stands clips jobs [] facts p) (hbase : Job.tip? jobs = some base.path)
    (hsounds : ∀ clip ∈ sounds, clip ∈ clips) :
    Meets (s.Sound clips) p (s.addSounds base sounds) fun file q ↦
      ∃ new, OneByOne (SoundJobs s.media) base.path sounds new file.path ∧
        s.Stands clips (jobs ++ new) [] facts q := by
  induction sounds generalizing jobs p base with
  | nil => exact .pure h.sound ⟨[], .nil, by rwa [List.append_nil]⟩
  | cons clip rest ih =>
    rw [List.forall_mem_cons] at hsounds
    rw [addSounds, List.foldlM_cons]
    refine (stands_addSound hs h hbase hsounds.1).bind fun file t ht ↦ ?_
    obtain ⟨new, hnew, ht⟩ := ht
    refine (ih ht (hnew.threaded.tip?_eq hbase) hsounds.2).mono fun last u hu ↦ ?_
    obtain ⟨more, hmore, hu⟩ := hu
    refine ⟨new ++ more, .cons hnew hmore, ?_⟩
    rwa [← List.append_assoc]

end Session

end Session

end Splice
