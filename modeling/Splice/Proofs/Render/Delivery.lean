import Splice.Proofs.Plan.Coverage
import Splice.Proofs.Render.Logging
import Splice.Proofs.Render.Success
import Splice.Proofs.Render.Threading

/-!
# Delivery

No part of a composition is lost on the way to the published file. What a studio is asked in the
course of a render can be logged, which changes nothing else. In this log, whether the render
succeeds or fails, a job reads only what it may, and adds to what is there (`IsSound`). If the
render succeeds, the published file is the one that is there at the end; every file that a job wrote
leads to it; and there is a job for every entry of the base sequence, for every overlay and for
every sound that is to be mixed in (`Composition.Delivers`).
-/

namespace Splice

open Exchange (done)

variable {α σ : Type}

/-! ### Studios that keep a log -/

namespace Studio

open RenderT (Meets ends_bind ends_pure)

variable {studio : Studio (StateM σ) α} {p q : Situation α (σ × List (Exchange α))}

/-- A session in a studio that keeps a log. -/
theorem isLogged (studio : Studio (StateM σ) α) (media : Manifest) (canvas : Canvas α)
    (workdir : Path) :
    (⟨studio.logged.engine, studio.logged.storage, studio.logged.workspace.draw, media, canvas,
      workdir⟩ : Session (StateM (σ × List (Exchange α))) α).IsLogged where
  run _ := ⟨_, rfl⟩
  probe _ := ⟨_, rfl⟩
  resolve _ := ⟨_, rfl⟩
  draw _ _ := ⟨_, rfl⟩

/-- What adds nothing to the log changes nothing that the log shows. -/
theorem meets_of_rests {β : Type} {x : RenderT α (StateM (σ × List (Exchange α))) β}
    {I K : List (Exchange α) → Prop} (h : I p.log ∧ K p.log)
    (hx : ∀ r q, x.Ends p r q → p.Rests q) :
    Meets (fun q ↦ I q.log) p x fun _ q ↦ I q.log ∧ K q.log := by
  intro r q hends
  rw [← (hx r q hends).log_eq] at h
  exact ⟨h.1, fun _ _ ↦ h⟩

/-- Reaching a stage is not logged. -/
theorem rests_of_ends_reach {stage : Stage} {r : Except Failure Unit}
    (h : (studio.logged.reach stage).Ends p r q) : p.Rests q := by
  rcases ends_bind.1 h with ⟨_, t, hreport, h⟩ | ⟨_, hreport, -⟩
  · exact (RenderT.rests_of_ends_observe hreport).trans (RenderT.rests_of_ends_record h)
  · exact RenderT.rests_of_ends_observe hreport

/-- Nor is writing a trace. -/
theorem rests_of_ends_leaveTrace [Scalar α] {project : Project α} {c : Composition α}
    {output : Path} {duration : α} {r : Except Failure (Path × Trace α)}
    (h : (studio.logged.leaveTrace project c output duration).Ends p r q) : p.Rests q := by
  rcases ends_bind.1 h with ⟨journal, t, hget, hrest⟩ | ⟨_, hget, -⟩
  · obtain ⟨-, rfl⟩ := RenderT.ends_get.1 hget
    rcases ends_bind.1 hrest with ⟨_, u, hwrite, hpure⟩ | ⟨_, hwrite, -⟩
    · obtain ⟨-, rfl⟩ := ends_pure.1 hpure
      exact RenderT.rests_of_ends_perform hwrite
    · exact RenderT.rests_of_ends_perform hwrite
  · exact nomatch (RenderT.ends_get.1 hget).1

/-- What the log shows in a fresh directory, it shows outside of it. -/
theorem meets_inFreshDir {β : Type} {root? : Option Path}
    {body : Path → RenderT α (StateM (σ × List (Exchange α))) β} {I : List (Exchange α) → Prop}
    {K : β → List (Exchange α) → Prop} (hI : I p.log)
    (hbody : ∀ dir t, p.Rests t → Meets (fun q ↦ I q.log) t (body dir) fun b q ↦ K b q.log) :
    Meets (fun q ↦ I q.log) p (studio.logged.inFreshDir root? body) fun b q ↦ K b q.log := by
  intro r q h
  show I q.log ∧ ∀ b, r = .ok b → K b q.log
  rcases cases_of_ends_inFreshDir h with
    ⟨e, rfl, hopen⟩ | ⟨dir, t, u, hopen, hends, hclose⟩
  · rw [(RenderT.rests_of_ends_perform hopen).log_eq]
    exact ⟨hI, nofun⟩
  · rw [(RenderT.rests_of_ends_observe hclose).log_eq]
    exact hbody dir t (RenderT.rests_of_ends_perform hopen) r u hends

/-- Looking at a video, or not, leaves the log as it is. -/
theorem log_resolveWith [Scalar α] (settings : OutputSettings α)
    (look : StateM (σ × List (Exchange α)) (Option (MediaInfo α)))
    (hlook : ∀ w, (look.run w).2.2 = w.2) (w : σ × List (Exchange α)) :
    ((Canvas.resolveWith settings look).run w).2.2 = w.2 := by
  rw [Canvas.resolveWith]
  split_ifs
  · exact hlook w
  · rfl

/-- Resolving a source notes that, if there is a reference to resolve. -/
theorem log_source (studio : Studio (StateM σ) α) (media : Manifest) (id : String)
    (w : σ × List (Exchange α)) :
    ∃ noted, ((studio.logged.storage.source media id).run w).2.2 = w.2 ++ noted ∧
      ∀ exchange ∈ noted, ∃ reference answer, exchange = .resolved reference answer := by
  rw [Storage.source]
  cases media.sources.lookup id with
  | none =>
    refine ⟨[], ?_, List.forall_mem_nil _⟩
    rw [List.append_nil]
    rfl
  | some reference =>
    refine ⟨[.resolved reference ((studio.storage.resolve reference).run w.1).1], rfl, ?_⟩
    exact List.forall_mem_singleton.2 ⟨_, _, rfl⟩

/-- Finding the canvas does nothing but resolve a source. -/
theorem log_canvas [Scalar α] (studio : Studio (StateM σ) α) (project : Project α)
    (media : Manifest) (settings : OutputSettings α) (w : σ × List (Exchange α)) :
    ∃ noted, ((studio.logged.canvas project media settings).run w).2.2 = w.2 ++ noted ∧
      ∀ exchange ∈ noted, ∃ reference answer, exchange = .resolved reference answer := by
  rw [canvas]
  cases project.firstVideo? with
  | none =>
    have hlog := log_resolveWith settings (pure none : StateM (σ × List (Exchange α)) _)
      (fun _ ↦ rfl) w
    refine ⟨[], ?_, List.forall_mem_nil _⟩
    rw [List.append_nil, ← hlog]
    rfl
  | some video =>
    obtain ⟨noted, hnoted, hother⟩ := log_source studio media video.sourceId w
    refine ⟨noted, ?_, hother⟩
    rw [← hnoted, StateT.run_bind]
    rcases (studio.logged.storage.source media video.sourceId).run w with ⟨e | path, after⟩
    · rfl
    · exact log_resolveWith settings (studio.logged.inspect path) (fun _ ↦ rfl) after

end Studio

/-! ### Deliveries -/

section Deliveries

variable [Scalar α]

/-- What the log of a render that succeeds has to show. -/
structure Composition.Delivers (c : Composition α) (media : Manifest) (destination output : Path)
    (log : List (Exchange α)) : Prop where
  /-- What is published at the end is the file that is there after all jobs, and every file that a
  job wrote leads to it. -/
  published : ∃ before rendered,
    log = before ++ [.published rendered destination (.ok output)] ∧
      Job.tip? (done log) = some rendered ∧
      ∀ job ∈ done log, Relation.ReflTransGen (Feeds (done log)) job.output rendered
  /-- The first jobs that are done render the entries, and each of their files is read by exactly
  one merge, unless there is only one. -/
  entries : ∃ rendered rest, done log = rendered ++ rest ∧
    List.Forall₂ Entry.RenderedBy c.entries rendered ∧
    (rendered.length = 1 ∧ (done log).filter Job.isMerge = [] ∨
      ∀ job ∈ rendered, (((done log).filter Job.isMerge).filter
        fun merge ↦ decide (job.output ∈ merge.inputs)).length = 1)
  /-- The jobs that paint are those for the overlays, in order. -/
  overlays : List.Forall₂ (Job.Paints media log (done log)) c.layers.overlays
    ((done log).filter Job.isPaint)
  /-- The jobs that cut sounds are those for the sounds to be mixed in, in order. -/
  sounds : List.Forall₂ (Job.Cuts (done log)) (c.layers.audio.filter (Clip.isMixed media))
    ((done log).filter Job.isTrim)

/-- Jobs of the right shape, and a publication of the file that they lead to, are a delivery. -/
theorem RenderJobs.delivers {c : Composition α} {media : Manifest} {destination output last : Path}
    {jobs : List (Job α)} {log : List (Exchange α)} (h : RenderJobs c media log jobs last)
    (hdone : done log = jobs) (hnodup : (jobs.map Job.output).Nodup) :
    c.Delivers media destination output
      (log ++ [.published last destination (.ok output)]) := by
  have hall : done (log ++ [.published last destination (.ok output)]) = jobs := by
    rw [Exchange.done_append, hdone]
    exact List.append_nil jobs
  refine ⟨⟨log, last, rfl, ?_, ?_⟩, ?_, ?_, ?_⟩
  · rw [hall]
    exact h.tip?_eq
  · rw [hall]
    exact h.reaches
  · rw [hall]
    exact h.entries hnodup
  · rw [hall]
    exact (h.mono (List.subset_append_left _ _)).paints
  · rw [hall]
    exact h.sounds

namespace Studio

open RenderT (Meets)

variable {studio : Studio (StateM σ) α} {s : Session (StateM (σ × List (Exchange α))) α}
  {p q : Situation α (σ × List (Exchange α))}

/-- The clips of a composition that stand among given ones. -/
structure Draws (c : Composition α) (clips : List (Clip α)) : Prop where
  entries : ∀ entry ∈ c.entries, ∀ index clip, entry = .clip index clip → clip ∈ clips
  overlays : ∀ clip ∈ c.layers.overlays, clip ∈ clips ∧ clip.isAudio = false
  sounds : ∀ clip ∈ c.layers.audio, clip ∈ clips

/-- An assembly does the jobs that its composition asks for. -/
theorem renderJobs_assemble (hs : s.IsLogged) {clips : List (Clip α)} {c : Composition α}
    (hc : Draws c clips) (h : s.Stands clips [] [] [] p) :
    Meets (s.Sound clips) p (studio.logged.assemble s c) fun file q ↦
      ∃ jobs facts, RenderJobs c s.media facts jobs file.path ∧ s.Stands clips jobs [] facts q := by
  refine (Session.meets_of_rests h fun _ _ ↦ rests_of_ends_reach).bind fun _ p₁ h₁ ↦ ?_
  refine (Session.stands_renderEntries hs h₁ c hc.entries).bind fun pieces p₂ h₂ ↦ ?_
  obtain ⟨rendered, hentries, houtputs, h₂⟩ := h₂
  refine (Session.meets_of_rests h₂ fun _ _ ↦ rests_of_ends_reach).bind fun _ p₃ h₃ ↦ ?_
  refine (Session.stands_mergePieces hs c.blendAfter? h₃ hentries houtputs).bind
    fun base p₄ h₄ ↦ ?_
  obtain ⟨first, rest, merges, hfirst, hmerges, h₄⟩ := h₄
  obtain rfl : rendered = first :: rest := hfirst
  -- the last merge wrote the file that the overlays begin with
  have hbase : Job.tip? ([] ++ (first :: rest) ++ merges) = some base.path :=
    hmerges.threaded.tip?_eq (tip?_entries hentries)
  refine (Session.meets_of_rests h₄ fun _ _ ↦ rests_of_ends_reach).bind fun _ p₅ h₅ ↦ ?_
  refine (Session.stands_addOverlays hs h₅ hbase hc.overlays).bind fun painted p₆ h₆ ↦ ?_
  obtain ⟨paints, facts, -, hpaints, h₆⟩ := h₆
  have hpainted := (hpaints.threaded fun _ _ _ _ ↦ PaintJobs.threaded).tip?_eq hbase
  refine (Session.meets_of_rests h₆ fun _ _ ↦ rests_of_ends_reach).bind fun _ p₇ h₇ ↦ ?_
  refine (Session.stands_addSounds hs h₇ hpainted hc.sounds).mono fun file q hq ↦ ?_
  obtain ⟨sounds, hsounds, hq⟩ := hq
  refine ⟨_, facts, .intro hentries hmerges hpaints hsounds, ?_⟩
  rwa [List.nil_append, List.append_assoc, List.append_assoc] at hq

/-- A composition draws on the clips of its project, and no sound is painted. -/
theorem draws_ofProject (project : Project α) (canvas : Canvas α) :
    Draws (.ofProject project canvas) project.clips where
  entries entry hentry index clip heq := by
    have hbase := Entry.getElem?_of_mem_ofBase (heq ▸ hentry)
    exact (Layers.mem_candidates_of_mem_base _ _ (List.mem_of_getElem? hbase)).1
  overlays clip hclip :=
    ⟨Layers.mem_of_mem_overlays _ _ hclip, Layers.isAudio_of_mem_overlays _ _ hclip⟩
  sounds _ hclip := Layers.mem_of_mem_audio _ _ hclip

/-- Once the file that is there is published, all is delivered. -/
theorem delivers_publish {clips : List (Clip α)} {c : Composition α} {jobs : List (Job α)}
    {facts : List (Exchange α)} {rendered destination : Path}
    (h : s.Stands clips jobs [] facts p) (hjobs : RenderJobs c s.media facts jobs rendered) :
    Meets (s.Sound clips) p (RenderT.perform (studio.logged.storage.publish rendered destination))
      fun output q ↦ s.Sound clips q ∧ c.Delivers s.media destination output q.log := by
  intro r q hends
  have hnote : p.Notes (.published rendered destination r) q := RenderT.notes_of_ends_perform hends
  have hq := h.note hnote fun _ _ hran ↦ nomatch hran
  have hnodup : (jobs.map Job.output).Nodup := (List.append_nil _ ▸ h.numbered).nodup
  refine ⟨hq.sound, ?_⟩
  rintro output rfl
  refine ⟨hq.sound, ?_⟩
  rw [hnote.log_eq]
  exact (hjobs.mono h.facts_subset).delivers h.done_eq hnodup

variable {project : Project α} {media : Manifest} {destination : Path} {options : RenderOptions}

/-- After its plan is made, a render delivers its composition. -/
theorem delivers_renderPlanned {c : Composition α} {workdir : Path}
    (hc : Draws c project.clips) (hsound : IsSound project.clips media p.log)
    (hdone : done p.log = []) :
    Meets (fun q ↦ IsSound project.clips media q.log) p
      (studio.logged.renderPlanned project media c destination options workdir)
      fun report q ↦ report.canvas = c.canvas ∧
        c.Delivers media destination report.output q.log := by
  have hs := isLogged studio media c.canvas workdir
  rw [renderPlanned]
  refine (renderJobs_assemble hs hc
    ⟨hsound, hdone, .nil, List.nil_subset _⟩).bind fun rendered p₁ h₁ ↦ ?_
  obtain ⟨jobs, facts, hjobs, h₁⟩ := h₁
  refine (Session.meets_of_rests h₁ fun _ _ ↦ rests_of_ends_reach).bind fun _ p₂ h₂ ↦ ?_
  refine (delivers_publish h₂ hjobs).bind fun output p₃ h₃ ↦ ?_
  -- nothing that follows is logged
  refine (meets_of_rests h₃ fun _ _ ↦ RenderT.rests_of_ends_record).bind fun _ p₄ h₄ ↦ ?_
  simp only [map_eq_pure_bind, bind_assoc, pure_bind]
  split_ifs
  · refine (meets_of_rests h₄ fun _ _ ↦ rests_of_ends_leaveTrace).bind fun trace p₅ h₅ ↦ ?_
    refine (meets_of_rests h₅ fun _ _ ↦ rests_of_ends_reach).bind fun _ p₆ h₆ ↦ ?_
    exact .pure h₆.1 ⟨rfl, h₆.2⟩
  · refine (meets_of_rests h₄ fun _ _ ↦ rests_of_ends_reach).bind fun _ p₅ h₅ ↦ ?_
    exact .pure h₅.1 ⟨rfl, h₅.2⟩

/-- Settling the canvas does no job, and the log stays sound. -/
theorem meets_canvas {clips : List (Clip α)} (settings : OutputSettings α)
    (h : IsSound clips media p.log ∧ done p.log = []) :
    Meets (fun q ↦ IsSound clips media q.log) p
      (RenderT.perform (studio.logged.canvas project media settings))
      fun _ q ↦ IsSound clips media q.log ∧ done q.log = [] := by
  intro r q hends
  obtain ⟨-, rfl⟩ := RenderT.ends_perform.1 hends
  obtain ⟨noted, hlog, hresolved⟩ := log_canvas studio project media settings p.world
  have hnoted : ∀ exchange ∈ noted, ∀ job answer, exchange ≠ .ran job answer := by
    intro exchange hexchange job answer
    obtain ⟨reference, resolved, rfl⟩ := hresolved exchange hexchange
    nofun
  have hsound := h.1.append hnoted
  have hdone : done (p.log ++ noted) = [] := by
    rw [Exchange.done_append, h.2, Exchange.done_eq_nil hnoted]
    rfl
  rw [Situation.log, ← hlog] at hsound hdone
  exact ⟨hsound, fun _ _ ↦ ⟨hsound, hdone⟩⟩

/-- A render that starts with a sound log and no job delivers its composition. -/
theorem meets_render (settings : OutputSettings α)
    (h : IsSound project.clips media p.log ∧ done p.log = []) :
    Meets (fun q ↦ IsSound project.clips media q.log) p
      (studio.logged.render project media destination settings options) fun report q ↦
        (Composition.ofProject project report.canvas).Delivers media destination report.output
          q.log := by
  let K (log : List (Exchange α)) : Prop := done log = []
  refine (meets_of_rests (K := K) h fun _ _ ↦ rests_of_ends_reach).bind fun _ p₁ h₁ ↦ ?_
  refine (meets_of_rests h₁ fun _ _ ↦ RenderT.rests_of_ends_ofExcept).bind fun _ p₂ h₂ ↦ ?_
  refine (meets_of_rests h₂ fun _ _ ↦ rests_of_ends_reach).bind fun _ p₃ h₃ ↦ ?_
  refine (meets_canvas _ h₃).bind fun canvas p₄ h₄ ↦ ?_
  refine (meets_of_rests (K := K) h₄ fun _ _ ↦ rests_of_ends_reach).bind fun _ p₅ h₅ ↦ ?_
  refine meets_inFreshDir h₅.1 fun dir t ht ↦ ?_
  rw [← ht.log_eq] at h₅
  refine (delivers_renderPlanned (draws_ofProject project canvas) h₅.1 h₅.2).mono
    fun report q hq ↦ ?_
  rw [hq.1]
  exact hq.2

/-- Every render has a log, whatever the engine, the storage and the workspace answer. It is sound,
and if the render succeeds, all of its composition is delivered. -/
theorem delivers_of_ends_render {settings : OutputSettings α} {p q : Situation α σ}
    {r : Except Failure (RenderReport α)}
    (h : (studio.render project media destination settings options).Ends p r q) :
    ∃ log, (studio.logged.render project media destination settings options).Ends
        ⟨p.journal, p.world, []⟩ r ⟨q.journal, q.world, log⟩ ∧
      IsSound project.clips media log ∧ ∀ report, r = .ok report →
        (Composition.ofProject project report.canvas).Delivers media destination report.output
          log := by
  obtain ⟨log, hlogged⟩ := studio.ends_logged_render h
  exact ⟨log, hlogged, meets_render settings ⟨.nil, rfl⟩ r _ hlogged⟩

/-- The sample is delivered, although its wipe has to be rendered twice. -/
theorem delivers_sample : ∃ report q,
    (Sample.studio.render (Sample.project : Project Exact) Sample.media ⟨"out.mp4"⟩ {} {}).Ends
      ⟨{}, ()⟩ (.ok report) q ∧
    ∃ log, (Sample.studio.logged.render (Sample.project : Project Exact) Sample.media ⟨"out.mp4"⟩
        {} {}).Ends ⟨{}, (), []⟩ (.ok report) ⟨q.journal, q.world, log⟩ ∧
      IsSound (Sample.project : Project Exact).clips Sample.media log ∧
      ∀ report', Except.ok (ε := Failure) report = .ok report' →
        (Composition.ofProject Sample.project report'.canvas).Delivers Sample.media ⟨"out.mp4"⟩
          report'.output log := by
  obtain ⟨report, q, h⟩ := Sample.exists_ends_render
  exact ⟨report, q, h, delivers_of_ends_render h⟩

end Studio

end Deliveries

end Splice
