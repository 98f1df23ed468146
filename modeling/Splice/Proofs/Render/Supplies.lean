import Splice.Command.Run
import Splice.Proofs.Plan.Coverage
import Splice.Proofs.Render.Refusals
import Splice.Proofs.Render.Success

/-!
# Renders of supplied projects

A project is supplied if it has a clip, has no faults, and everything that its clips play is always
there (`Command.Inputs.IsSupplied`). Such a project can be planned and rendered: no failure of a
render says then that the project has faults or that something is not there
(`Command.Inputs.IsRenderable`).

A render resolves nothing but what its clips play, since base clips, overlays and sounds all are
clips of the project (`Layers.perm_ofClips`), and there is always an entry, so that there is always
something to merge. What the machine says about files and directories are failures of their own
kind, told apart by their words (`Failure.isRefusal_resource`).
-/

namespace Splice

variable {α σ β γ : Type} {I : σ → Prop}

/-- The storage answers with a failure when it is given a result. -/
def Storage.Refuses (I : σ → Prop) (storage : Storage (StateM σ)) (destination : Path)
    (e : Failure) : Prop :=
  ∃ rendered w, I w ∧ ((storage.publish rendered destination).run w).1 = .error e

/-! ### What a machine says -/

section Host

variable (host : Host (StateM σ))

/-- A storage says that something is not there in words of its own. -/
theorem Failure.isRefusal_resource {text : String} (h : text.toList.head? = some 'F') :
    (Failure.resource text).isRefusal = false := by
  rw [isRefusal]
  cases hchars : text.toList with
  | nil => rfl
  | cons c rest =>
    rw [hchars, List.head?_cons, Option.some.injEq] at h
    rw [h]
    rfl

theorem IsCivil.ok (b : β) : IsCivil (Except.ok b) := by
  intro e he
  cases he

theorem IsCivil.error {e : Failure} (h : e.isRefusal = false) :
    IsCivil (Except.error e : Except Failure β) :=
  fun _ he ↦ Except.error.inj he ▸ h

/-- What an action comes to is up to its last part. -/
theorem isCivil_bind {action : StateM σ γ} {f : γ → StateM σ (Except Failure β)}
    (hf : ∀ c w, IsCivil ((f c).run w).1) (w : σ) : IsCivil ((action >>= f).run w).1 :=
  hf _ _

namespace Workspace

/-- The machine never refuses a drawing as a storage would. -/
theorem isCivil_draw (path : Path) (picture : Picture) (w : σ) :
    IsCivil (((ofHost host).draw path picture).run w).1 := by
  show IsCivil (Except.mapError _ ((host.writePicture path picture).run w).1)
  cases ((host.writePicture path picture).run w).1 with
  | ok _ => exact .ok _
  | error e => exact .error (Failure.isRefusal_resource (by simp))

/-- Nor does it refuse a text to be written. -/
theorem isCivil_write (path : Path) (text : String) (w : σ) :
    IsCivil (((ofHost host).write path text).run w).1 := by
  show IsCivil (Except.mapError _ ((host.writeText path text).run w).1)
  cases ((host.writeText path text).run w).1 with
  | ok _ => exact .ok _
  | error e => exact .error rfl

/-- Nor a directory to be made. -/
theorem isCivil_makeDir (root? : Option Path) (w : σ) :
    IsCivil ((makeDir host root?).run w).1 := by
  have hmake (root : Path) : ∀ w, IsCivil ((makeDir host (some root)).run w).1 := by
    refine isCivil_bind fun root ↦ isCivil_bind fun made ↦ ?_
    cases made with
    | error e => exact fun _ ↦ .error (Failure.isRefusal_resource (by simp))
    | ok _ =>
      refine isCivil_bind fun scratch ↦ ?_
      cases scratch with
      | error e => exact fun _ ↦ .error (Failure.isRefusal_resource (by simp))
      | ok path => exact fun _ ↦ .ok path
  cases root? with
  | some root => exact hmake root w
  | none => exact isCivil_bind hmake w

end Workspace

namespace Storage

/-- Making room for a result fails in words about files. -/
theorem isCivil_prepare (destination : Path) (w : σ) :
    IsCivil ((prepare host destination).run w).1 := by
  rw [prepare]
  cases destination.parent?.filter (!·.text.isEmpty) with
  | none => exact .ok ()
  | some around =>
    refine isCivil_bind (fun made ↦ ?_) w
    cases made with
    | ok _ => exact fun _ ↦ .ok ()
    | error e => exact fun _ ↦ .error (Failure.isRefusal_resource (by simp))

/-- So does copying the result out. -/
theorem isCivil_copyOut (rendered destination : Path) (w : σ) :
    IsCivil ((copyOut host rendered destination).run w).1 := by
  have hprepared := isCivil_prepare host destination w
  rw [copyOut, StateT.run_bind]
  generalize (prepare host destination).run w = final at hprepared ⊢
  rcases final with ⟨prepared, after⟩
  cases prepared with
  | error e => exact .error (hprepared e rfl)
  | ok _ =>
    refine isCivil_bind (fun copied ↦ ?_) after
    cases copied with
    | ok _ => exact fun _ ↦ .ok destination
    | error e => exact fun _ ↦ .error (Failure.isRefusal_resource (by simp))

end Storage

end Host

/-! ### The check and the canvas -/

section Scalar

variable [Scalar α]

namespace Project

variable {project : Project α}

/-- A faultless project asks for a faultless format. -/
theorem issues_outputSettings (h : project.issues = []) : project.outputSettings.issues = [] := by
  have hsettings := (List.append_eq_nil_iff.1 h).2
  rw [outputSettings]
  cases hformat : project.outputSettings? with
  | none => rfl
  | some settings =>
    rw [hformat] at hsettings
    exact hsettings

/-- A project with a clip, and without faults, passes the check. -/
theorem check_eq_ok (hempty : project.isEmpty = false) (hissues : project.issues = [])
    {settings : OutputSettings α} (hsettings : settings.issues = []) :
    project.check settings = .ok () := by
  have hfaults : project.faults settings = [] := by
    rw [faults, hissues, hsettings]
    rfl
  rw [check, hempty, hfaults]
  rfl

/-- The check of a render for which no format is asked. -/
theorem check_own (hempty : project.isEmpty = false) (hissues : project.issues = []) :
    project.check (({} : OutputSettings α).or project.outputSettings) = .ok () :=
  check_eq_ok hempty hissues (issues_outputSettings hissues)

end Project

namespace Studio

open RenderT (Passes ends_bind ends_bind_of_ok)

variable {studio : Studio (StateM σ) α} {project : Project α} {media : Manifest}

/-- Settling a canvas only looks at a video, so it keeps what looking keeps. -/
theorem preserves_resolveWith {look : StateM σ (Option (MediaInfo α))} (hlook : Preserves I look)
    (settings : OutputSettings α) : Preserves I (Canvas.resolveWith settings look) := by
  intro w hw
  rw [Canvas.resolveWith]
  split_ifs
  · exact hlook w hw
  · exact hw

/-- The canvas is settled without a failure, whatever is known about the first video. -/
theorem exists_canvas (hfound : ∀ clip ∈ project.clips, clip.IsFound I media studio.storage)
    (settings : OutputSettings α) {w : σ} (hw : I w) :
    ∃ canvas, ((studio.canvas project media settings).run w).1 = .ok canvas ∧
      ((∀ path, Preserves I (studio.engine.probe path)) →
        I ((studio.canvas project media settings).run w).2) := by
  rw [Studio.canvas]
  cases hfirst : project.firstVideo? with
  | none =>
    have hlook : Preserves I (pure none : StateM σ (Option (MediaInfo α))) := fun _ h ↦ h
    exact ⟨_, rfl, fun _ ↦ preserves_resolveWith hlook settings w hw⟩
  | some video =>
    obtain ⟨clip, hclip, hvideo⟩ := List.exists_of_findSome?_eq_some hfirst
    obtain ⟨path, hpath⟩ := (hfound clip hclip).of_video hvideo
    obtain ⟨hanswer, hkept⟩ := hpath w hw
    rcases hrun : (studio.storage.source media video.sourceId).run w with ⟨answer, after⟩
    rw [hrun] at hanswer hkept
    obtain rfl : answer = .ok path := hanswer
    dsimp only
    rw [StateT.run_bind, hrun]
    refine ⟨((Canvas.resolveWith settings (studio.inspect path)).run after).1, rfl, fun hprobe ↦ ?_⟩
    have hlook : Preserves I (studio.inspect path) := hprobe path
    exact preserves_resolveWith hlook settings after hkept

/-! ### Renders -/

/-- A studio in a world with an invariant, which all that it does before the result is published
keeps. -/
structure KeepsWorld (I : σ → Prop) (studio : Studio (StateM σ) α) : Prop where
  run : ∀ job, Preserves I (studio.engine.run job)
  probe : ∀ path, Preserves I (studio.engine.probe path)
  openDir : ∀ root?, Preserves I (studio.workspace.openDir root?)
  draw : ∀ path picture, Preserves I (studio.workspace.draw path picture)
  report : ∀ stage, Preserves I (studio.report stage)

variable {refuses : Failure → Prop}

omit [Scalar α] in
theorem passes_reach (h : ∀ stage, Preserves I (studio.report stage)) (stage : Stage) :
    (studio.reach stage : RenderT α (StateM σ) Unit).Passes I refuses :=
  (Passes.observe (h stage)).bind fun _ ↦ .record _

/-- There is always something to merge. -/
theorem entries_ne_nil (base : List (Clip α)) (timelineEnd fps : α) :
    Entry.ofBase base timelineEnd fps ≠ [] := by
  cases base with
  | nil => exact List.cons_ne_nil _ _
  | cons first rest =>
    rw [Entry.ofBase, Entry.fillFrom]
    simp

/-- An assembly resolves nothing but what the clips of the project play. -/
theorem passes_assemble {session : Session (StateM σ) α} (hs : session.KeepsWorld I)
    (hreport : ∀ stage, Preserves I (studio.report stage)) (project : Project α)
    (hfound : ∀ clip ∈ project.clips, clip.IsFound I session.media session.storage)
    (canvas : Canvas α) :
    (studio.assemble session (.ofProject project canvas)).Passes I refuses := by
  set c := Composition.ofProject project canvas
  have hentries : ∀ entry ∈ c.entries, (session.renderEntry c entry).Passes I refuses := by
    refine fun entry hentry ↦ Session.passes_renderEntry hs c ?_
    rintro index clip rfl
    have hbase : clip ∈ c.layers.base :=
      List.mem_of_getElem? (Entry.getElem?_of_mem_ofBase hentry)
    obtain ⟨hclip, hcandidate⟩ := Layers.mem_candidates_of_mem_base _ _ hbase
    exact ⟨(Bool.and_eq_true_iff.1 hcandidate).1, hfound clip hclip⟩
  have hoverlays (base : RenderedFile α) :
      (session.addOverlays base c.layers.overlays).Passes I refuses :=
    Passes.foldlM (fun base clip hclip ↦ Session.passes_addOverlay hs base
      (hfound clip (Layers.mem_of_mem_overlays _ _ hclip))) base
  have hsounds (base : RenderedFile α) : (session.addSounds base c.layers.audio).Passes I refuses :=
    Passes.foldlM (fun base clip hclip ↦ Session.passes_addSound hs base
      (hfound clip (Layers.mem_of_mem_audio _ _ hclip))) base
  refine (passes_reach hreport _).bind fun _ ↦ (Passes.mapM hentries).bind_of_ends
    fun p pieces t hpieces ↦ (passes_reach hreport _).bind fun _ ↦ ?_
  -- there are as many pieces as entries
  have hne : pieces ≠ [] := by
    obtain ⟨_, hrun, -⟩ := Session.ends_renderEntries hpieces
    rintro rfl
    exact entries_ne_nil _ _ _ (List.map_eq_nil_iff.1 hrun.labels_eq.symm)
  exact (Session.passes_mergePieces hs _ hne).bind fun base ↦ (passes_reach hreport _).bind fun _ ↦
    (hoverlays base).bind fun painted ↦ (passes_reach hreport _).bind fun _ ↦ hsounds painted

omit [Scalar α] in
/-- After the result is published nothing is resolved, so the invariant matters no more. -/
theorem excuses_finish (hreport : ∀ stage, Preserves I (studio.report stage)) {rendered : Path}
    {destination : Path} {f : Path → RenderT α (StateM σ) β}
    (hf : ∀ output, (f output).Passes (fun _ ↦ True) (studio.storage.Refuses I destination)) :
    (do
      studio.reach .finalizing
      let output ← RenderT.perform (studio.storage.publish rendered destination)
      f output).Excuses I (studio.storage.Refuses I destination) := by
  intro p e q hp h
  rw [ends_bind_of_ok (ends_reach.2 ⟨rfl, rfl⟩)] at h
  rcases ends_bind.1 h with ⟨output, t, -, h⟩ | ⟨e', hpublish, he⟩
  · exact (hf output).excuses t e q trivial h
  · obtain ⟨hanswer, rfl⟩ := RenderT.ends_perform.1 hpublish
    rw [Except.error.inj he]
    exact .storage p.journal.events ⟨_, _, hreport _ _ hp, hanswer.symm⟩

/-- After its plan is made, a render succeeds, or there is an excuse. -/
theorem excuses_renderPlanned (hs : studio.KeepsWorld I)
    (hdraw : ∀ path picture w, IsCivil ((studio.workspace.draw path picture).run w).1)
    (hwrite : ∀ path text w, IsCivil ((studio.workspace.write path text).run w).1)
    (hfound : ∀ clip ∈ project.clips, clip.IsFound I media studio.storage) (canvas : Canvas α)
    (destination : Path) (options : RenderOptions) (workdir : Path) :
    (studio.renderPlanned project media (.ofProject project canvas) destination options
      workdir).Excuses I (studio.storage.Refuses I destination) := by
  have hsession : Session.KeepsWorld I
      (⟨studio.engine, studio.storage, studio.workspace.draw, media, canvas, workdir⟩ :
        Session (StateM σ) α) :=
    ⟨hs.run, hs.probe, fun path picture ↦ .of_isCivil (hdraw path picture) (hs.draw path picture)⟩
  refine .bind (passes_assemble hsession hs.report project hfound canvas) fun rendered ↦
    excuses_finish hs.report fun output ↦ (Passes.record _).bind fun _ ↦ ?_
  have hcomplete (report : RenderReport α) :
      (studio.reach .complete >>= fun _ ↦ pure report :
        RenderT α (StateM σ) (RenderReport α)).Passes (fun _ ↦ True)
          (studio.storage.Refuses I destination) :=
    (passes_reach (fun _ _ _ ↦ trivial) _).bind fun _ ↦ .pure report
  -- what is left after the delivery is the trace, if it was asked for, and the last stage
  cases options.trace with
  | false => exact (Passes.pure none).bind fun _ ↦ hcomplete _
  | true =>
    have htrace : Passes (fun _ ↦ True) (studio.storage.Refuses I destination)
        (studio.leaveTrace project (.ofProject project canvas) output rendered.duration) :=
      Passes.get.bind fun _ ↦ (Passes.perform (.of_isCivil (hwrite _ _) fun _ _ ↦ trivial)).bind
        fun _ ↦ .pure _
    exact (htrace.map some).bind fun _ ↦ hcomplete _

omit [Scalar α] in
/-- Working in a fresh directory needs no more excuses than the work does. -/
theorem excuses_inFreshDir {root? : Option Path} {body : Path → RenderT α (StateM σ) β}
    (hopen : Upholds I IsCivil (studio.workspace.openDir root?))
    (hbody : ∀ dir, (body dir).Excuses I refuses) :
    (studio.inFreshDir root? body).Excuses I refuses := by
  intro p e q hp h
  have hpasses : (RenderT.perform (studio.workspace.openDir root?) :
      RenderT α (StateM σ) Path).Passes I refuses := .perform hopen
  rcases cases_of_ends_inFreshDir h with ⟨e', he, hfailed⟩ | ⟨dir, t, u, hmade, hends, hclose⟩
  · exact (hpasses p _ q hp hfailed).2 e (congrArg Except.error (Except.error.inj he).symm)
  · obtain ⟨-, rfl⟩ := RenderT.ends_observe.1 hclose
    exact hbody dir t e u (hpasses p _ t hp hmade).1 hends

/-- A project that is supplied with everything is rendered, or there is an excuse. -/
theorem excuses_render (hs : studio.KeepsWorld I) {host : Host (StateM σ)}
    (hworkspace : studio.workspace = .ofHost host) (hempty : project.isEmpty = false)
    (hissues : project.issues = [])
    (hfound : ∀ clip ∈ project.clips, clip.IsFound I media studio.storage) (destination : Path)
    (options : RenderOptions) :
    (studio.render project media destination {} options).Excuses I
      (studio.storage.Refuses I destination) := by
  have hcanvas : Upholds I IsCivil
      (studio.canvas project media (({} : OutputSettings α).or project.outputSettings)) := by
    intro w hw
    obtain ⟨canvas, hcanvas, hkept⟩ := exists_canvas hfound _ hw
    rw [hcanvas]
    exact ⟨.ok canvas, hkept hs.probe⟩
  have hopen : Upholds I IsCivil (studio.workspace.openDir options.tempRoot?) := by
    refine .of_isCivil (fun w ↦ ?_) (hs.openDir _)
    rw [hworkspace]
    exact Workspace.isCivil_makeDir host _ w
  -- every part in front of the directory passes, so it needs no excuse
  refine .bind (passes_reach hs.report _) fun _ ↦ .bind (.ofExcept ?_) fun _ ↦
    .bind (passes_reach hs.report _) fun _ ↦ .bind (.perform hcanvas) fun canvas ↦
      .bind (passes_reach hs.report _) fun _ ↦ excuses_inFreshDir hopen fun workdir ↦ ?_
  · rw [Project.check_own hempty hissues]
    exact .ok ()
  · refine excuses_renderPlanned hs (fun path picture w ↦ ?_) (fun path text w ↦ ?_) hfound canvas
      destination options workdir
    · rw [hworkspace]
      exact Workspace.isCivil_draw host path picture w
    · rw [hworkspace]
      exact Workspace.isCivil_write host path text w

end Studio

/-! ### Supplied projects -/

namespace Command.Inputs

/-- A project without faults, with a clip at least, and with everything that its clips play. -/
structure IsSupplied (I : σ → Prop) (inputs : Inputs (StateM σ) α) : Prop where
  issues : inputs.project.issues = []
  isEmpty : inputs.project.isEmpty = false
  found : ∀ clip ∈ inputs.project.clips, clip.IsFound I inputs.media inputs.storage

/-- In a world with an invariant, a project can be planned and rendered, in the format that it asks
for itself. -/
structure IsRenderable (I : σ → Prop) (inputs : Inputs (StateM σ) α) : Prop where
  check : inputs.project.check {} = .ok ()
  /-- Whatever the engine knows about the media, there is a plan. -/
  plan : ∀ studio : Studio (StateM σ) α, studio.storage = inputs.storage → ∀ w, I w →
    ∃ c, ((studio.plan inputs.project inputs.media {}).run w).1 = .ok c
  /-- Whatever the engine and the machine answer, a render succeeds, or has an excuse: its failure
  is no refusal, or the engine's own answer to the last job, or the storage's own answer to the
  result. -/
  render : ∀ (studio : Studio (StateM σ) α) (host : Host (StateM σ)),
    studio.storage = inputs.storage → studio.workspace = .ofHost host → studio.KeepsWorld I →
    ∀ (destination : Path) (options : RenderOptions) (p q : Situation α σ) (e : Failure),
      I p.world →
      (studio.render inputs.project inputs.media destination {} options).Ends p (.error e) q →
      Excused (inputs.storage.Refuses I destination) e q.journal.events
  /-- The storage in a directory takes every result, so that only the engine can refuse. -/
  renderStored : ∀ (studio : Studio (StateM σ) α) (host disk : Host (StateM σ)) (root : Path),
    studio.storage = inputs.storage → inputs.storage = .folder disk root →
    studio.workspace = .ofHost host → studio.KeepsWorld I →
    ∀ (destination : Path) (options : RenderOptions) (p q : Situation α σ) (e : Failure),
      I p.world →
      (studio.render inputs.project inputs.media destination {} options).Ends p (.error e) q →
      e.isRefusal = true → ∃ events job, q.journal.events = events ++ [.ran job (some e)]

/-- A project that is supplied with everything can be planned and rendered. -/
theorem IsSupplied.isRenderable {inputs : Inputs (StateM σ) α}
    (h : inputs.IsSupplied I) : inputs.IsRenderable I where
  check := Project.check_eq_ok h.isEmpty h.issues rfl
  plan studio hstorage w hw := by
    have hfound := h.found
    rw [← hstorage] at hfound
    obtain ⟨canvas, hcanvas, -⟩ := Studio.exists_canvas hfound
      (({} : OutputSettings α).or inputs.project.outputSettings) hw
    have hplan : studio.plan inputs.project inputs.media {} = (do
        return (← studio.canvas inputs.project inputs.media
          (({} : OutputSettings α).or inputs.project.outputSettings)).map
            (Composition.ofProject inputs.project)) := by
      rw [Studio.plan, Project.check_own h.isEmpty h.issues]
    refine ⟨.ofProject inputs.project canvas, ?_⟩
    rw [hplan]
    exact congrArg (Except.map _) hcanvas
  render studio host hstorage hworkspace hs destination options p q e hp hends := by
    have hfound := h.found
    rw [← hstorage] at hfound ⊢
    exact Studio.excuses_render hs hworkspace h.isEmpty h.issues hfound destination options p e q hp
      hends
  renderStored studio host disk root hstorage hfolder hworkspace hs destination options p q e hp
      hends hrefusal := by
    have hfound := h.found
    rw [← hstorage] at hfound hfolder
    have hexcused := Studio.excuses_render hs hworkspace h.isEmpty h.issues hfound destination
      options p e q hp hends
    generalize q.journal.events = events at hexcused ⊢
    -- a folder of files is never the one to refuse, so only the engine is left as an excuse
    cases hexcused with
    | harmless hcivil => exact absurd hrefusal (Bool.eq_false_iff.1 hcivil)
    | engine events job => exact ⟨events, job, rfl⟩
    | storage events hrefuses =>
      obtain ⟨rendered, w, -, hanswer⟩ := hrefuses
      rw [hfolder] at hanswer
      exact absurd hrefusal
        (Bool.eq_false_iff.1 (Storage.isCivil_copyOut disk rendered destination w e hanswer))

end Command.Inputs

end Scalar

end Splice
