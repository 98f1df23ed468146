import Splice.Proofs.Render.Likeness
import Splice.Proofs.Render.Success

/-!
# Progress of a render

A render reports its stages in their order, and may end early (`Studio.climbs_render`): the
operations of a session report none, which is read off the likeness of a studio with itself
(`Studio.Keeps.studios`).

Two renders of one project, in studios that get the same answers, go on alike until the first of
them publishes its result, and only what they do then can tell them apart
(`Likeness.Studios.follows_render`).
-/

namespace Splice

variable {α σ τ β γ : Type}

/-! ### Stages -/

/-- The stages before the result is published. -/
def Stage.early : List Stage := Stage.all.takeWhile (· != .finalizing)

/-- The events reach these stages one after another, or the first of them if there is a failure. -/
def Climbs (stages : List Stage) (failure? : Option Failure) (events : List (Event α)) : Prop :=
  events.filterMap Event.stage? <+: stages ∧
    (failure? = none → events.filterMap Event.stage? = stages)

theorem Climbs.nil (failure? : Option Failure) : Climbs (α := α) [] failure? [] :=
  ⟨List.nil_prefix, fun _ ↦ rfl⟩

/-- Stages that are all reached may be followed by others. -/
theorem Climbs.append {first rest : List Stage} {failure? : Option Failure} {a b : List (Event α)}
    (ha : Climbs first none a) (hb : Climbs rest failure? b) :
    Climbs (first ++ rest) failure? (a ++ b) := by
  rw [Climbs, List.filterMap_append, ha.2 rfl]
  exact ⟨(List.prefix_append_right_inj first).2 hb.1, fun h ↦ by rw [hb.2 h]⟩

/-- A run that failed on the way up has also failed on any longer way. -/
theorem Climbs.fail {stages : List Stage} (rest : List Stage) {e : Failure} {a : List (Event α)}
    (h : Climbs stages (some e) a) : Climbs (stages ++ rest) (some e) a :=
  ⟨h.1.trans (List.prefix_append stages rest), nofun⟩

/-- What stops before the result is published has reached the first of the early stages. -/
theorem Stage.prefix_early {stages : List Stage} (h : stages <+: all)
    (hfinalizing : .finalizing ∉ stages) : stages <+: early := by
  have hpublish : early ++ [.finalizing] <+: all := by decide
  have hmem : Stage.finalizing ∈ early ++ [.finalizing] := List.mem_concat_self
  rcases List.prefix_or_prefix_of_prefix h hpublish with hstages | hbeyond
  · rcases List.prefix_concat_iff.1 hstages with rfl | hearly
    · exact absurd hmem hfinalizing
    · exact hearly
  · exact absurd (hbeyond.subset hmem) hfinalizing

namespace RenderT

variable {x : RenderT α (StateM σ) β} {f : β → RenderT α (StateM σ) γ} {first rest : List Stage}

theorem additive_climbs_nil : Additive (α := α) (Climbs []) where
  nil := .nil
  append ha hb := ha.append hb

/-- One climb and then another one. -/
theorem Leaves.bind_climbs (hx : x.Leaves (Climbs first)) (hf : ∀ b, (f b).Leaves (Climbs rest)) :
    (x >>= f).Leaves (Climbs (first ++ rest)) :=
  Leaves.bind_into Climbs.append (Climbs.fail rest) hx fun _ b _ _ ↦ hf b

end RenderT

/-! ### Studios that are alike -/

namespace Likeness

variable (L : Likeness σ τ)

/-- Studios that get the same answers until a result is published. -/
structure Studios (a : Studio (StateM σ) α) (b : Studio (StateM τ) α) : Prop where
  run : ∀ {i j}, L.Jobs i j →
    L.Actions (ResultsAlike L.Answered Eq) (a.engine.run i) (b.engine.run j)
  probe : ∀ {p q}, L.Read p q →
    L.Actions (fun r r' ↦ r.toOption = r'.toOption) (a.engine.probe p) (b.engine.probe q)
  resolve : ∀ reference, L.Actions (ResultsAlike L.Failed L.Read) (a.storage.resolve reference)
    (b.storage.resolve reference)
  draw : ∀ {p q} picture, L.Written p q →
    L.Actions (ResultsAlike L.Failed Eq) (a.workspace.draw p picture) (b.workspace.draw q picture)
  report : ∀ stage, L.Actions (fun _ _ ↦ True) (a.report stage) (b.report stage)

variable {L}

/-- Studios that are alike open sessions that are alike. -/
theorem Studios.sessions {a : Studio (StateM σ) α} {b : Studio (StateM τ) α} (h : L.Studios a b)
    (media : Manifest) (canvas : Canvas α) {dir dir' : Path} (hdir : L.Directories dir dir') :
    L.Sessions ⟨a.engine, a.storage, a.workspace.draw, media, canvas, dir⟩
      ⟨b.engine, b.storage, b.workspace.draw, media, canvas, dir'⟩ where
  run := h.run
  probe := h.probe
  resolve := h.resolve
  draw := h.draw
  media_eq := rfl
  canvas_eq := rfl
  workdir := hdir

namespace Studios

variable [Scalar α] {a : Studio (StateM σ) α} {b : Studio (StateM τ) α} (h : L.Studios a b)

include h

/-- The canvas comes out the same, as it is settled from the same answer about the first video. -/
theorem actions_canvas (project : Project α) (media : Manifest) (settings : OutputSettings α) :
    L.Actions (ResultsAlike L.Failed Eq) (a.canvas project media settings)
      (b.canvas project media settings) := by
  have hresolve {look : StateM σ (Option (MediaInfo α))} {look' : StateM τ (Option (MediaInfo α))}
      (hlook : L.Actions Eq look look') : L.Actions (ResultsAlike L.Failed Eq)
        (Canvas.resolveWith settings look >>= fun canvas ↦ pure (.ok canvas))
        (Canvas.resolveWith settings look' >>= fun canvas ↦ pure (.ok canvas)) := by
    refine Actions.bind (R := Eq) ?_ fun _ _ hcanvas ↦ .pure (.ok hcanvas)
    rw [Canvas.resolveWith, Canvas.resolveWith]
    split_ifs
    · exact hlook.bind fun _ _ hinfo ↦ .pure (by rw [hinfo])
    · exact .pure rfl
  rw [Studio.canvas, Studio.canvas]
  cases project.firstVideo? with
  | none => exact hresolve (.pure rfl)
  | some video =>
    refine (actions_source h.resolve media _).bind fun answer answer' hanswer ↦ ?_
    cases hanswer with
    | ok hpath => exact hresolve ((h.probe hpath).bind fun _ _ hinfo ↦ .pure hinfo)
    | error he => exact .pure (.error he)

omit [Scalar α] in
/-- Stages are reached alike. -/
theorem runs_reach {stage : Stage} (hstage : L.Reached stage) :
    L.Runs (fun _ _ ↦ True) (a.reach stage : RenderT α (StateM σ) Unit) (b.reach stage) :=
  (Runs.observe (h.report stage)).bind fun _ _ _ ↦ .record (.reached hstage)

/-- Assemblies go on alike where the early stages may be reached. -/
theorem runs_assemble (hearly : ∀ stage ∈ Stage.early, L.Reached stage)
    {s : Session (StateM σ) α} {t : Session (StateM τ) α} (hs : L.Sessions s t)
    (c : Composition α) : L.Runs L.Files (a.assemble s c) (b.assemble t c) :=
  (h.runs_reach (hearly _ (by decide))).bind fun _ _ _ ↦
    (Runs.mapM (hs.runs_renderEntry c) c.entries).bind fun _ _ hpieces ↦
      (h.runs_reach (hearly _ (by decide))).bind fun _ _ _ ↦
        (hs.runs_mergePieces c.blendAfter? hpieces).bind fun _ _ hbase ↦
          (h.runs_reach (hearly _ (by decide))).bind fun _ _ _ ↦
            (hs.runs_addOverlays hbase _).bind fun _ _ hpainted ↦
              (h.runs_reach (hearly _ (by decide))).bind fun _ _ _ ↦ hs.runs_addSounds hpainted _

end Studios

end Likeness

/-! ### A studio and itself -/

/-- All files in the directory are of a kind. -/
def Path.HoldsOnly (W : Path → Prop) (dir : Path) : Prop :=
  ∀ name, (Path.mk name).isAbsolute = false → W (dir.join name)

namespace Studio

/-- The studio with other ways to publish a result and to write a trace. -/
def delivering (studio : Studio (StateM σ) α)
    (publish : Path → Path → StateM σ (Except Failure Path))
    (write : Path → String → StateM σ (Except Failure Unit)) : Studio (StateM σ) α :=
  { studio with
    storage := { studio.storage with publish }
    workspace := { studio.workspace with write } }

/-- Until it publishes a result, a studio keeps an invariant of its world as long as it writes files
of one kind only, and it does not call a project empty unless that may be said. -/
structure Keeps (I : σ → Prop) (W : Path → Prop) (E : Prop) (studio : Studio (StateM σ) α) :
    Prop where
  report : ∀ stage, Preserves I (studio.report stage)
  probe : ∀ path, Preserves I (studio.engine.probe path)
  /-- The engine writes the files of a job, and no other ones. -/
  run : ∀ job, (∀ path ∈ job.written, W path) → Preserves I (studio.engine.run job)
  resolve : ∀ reference,
    Upholds I (fun r ↦ r = .error .emptyProject → E) (studio.storage.resolve reference)
  draw : ∀ path picture, W path →
    Upholds I (fun r ↦ r = .error .emptyProject → E) (studio.workspace.draw path picture)
  /-- A fresh directory is there for files of this kind. -/
  openDir : ∀ root?, Upholds I
    (fun r ↦ (r = .error .emptyProject → E) ∧ ∀ dir, r = .ok dir → dir.HoldsOnly W)
    (studio.workspace.openDir root?)
  closeDir : ∀ dir : Path, dir.HoldsOnly W → Preserves I (studio.workspace.closeDir dir)

/-- Every studio keeps what is always true. -/
theorem keeps_true (studio : Studio (StateM σ) α) :
    studio.Keeps (fun _ ↦ True) (fun _ ↦ True) True where
  report _ _ _ := trivial
  probe _ _ _ := trivial
  run _ _ _ _ := trivial
  resolve _ _ _ := ⟨fun _ ↦ trivial, trivial⟩
  draw _ _ _ _ _ := ⟨fun _ ↦ trivial, trivial⟩
  openDir _ _ _ := ⟨⟨fun _ ↦ trivial, fun _ _ _ _ ↦ trivial⟩, trivial⟩
  closeDir _ _ _ _ := trivial

end Studio

namespace Likeness

variable {I : σ → Prop} {W : Path → Prop} {E : Prop} {S : Stage → Prop}

/-- The likeness of a world with itself, where an invariant is kept, files of one kind are written,
and certain stages are reached. -/
def self (I : σ → Prop) (W : Path → Prop) (E : Prop) (S : Stage → Prop) : Likeness σ σ where
  World w v := w = v ∧ I w
  Read := Eq
  Written a b := a = b ∧ W a
  Failed e e' := e = e' ∧ (e = .emptyProject → E)
  Answered := Eq
  Reached := S
  read_of_written := And.left
  failed_of_ne _ he := ⟨rfl, fun h ↦ absurd h he⟩
  isEngine_eq := congrArg Failure.isEngine

/-- An action that keeps the invariant is like itself. -/
theorem actions_self {Q : β → Prop} {R : β → β → Prop} {x : StateM σ β} (h : Upholds I Q x)
    (hR : ∀ b, Q b → R b b) : (self I W E S).Actions R x x := by
  rintro w _ ⟨rfl, hw⟩
  obtain ⟨hQ, hI⟩ := h w hw
  exact ⟨hR _ hQ, rfl, hI⟩

theorem results_self {R : β → β → Prop} {r : Except Failure β} (h : r = .error .emptyProject → E)
    (hR : ∀ b, r = .ok b → R b b) : ResultsAlike (self I W E S).Failed R r r := by
  cases r with
  | ok b => exact .ok (hR b rfl)
  | error e => exact .error ⟨rfl, fun he ↦ h (congrArg Except.error he)⟩

end Likeness

/-- A studio is like itself, however it delivers. -/
theorem Studio.Keeps.studios {studio : Studio (StateM σ) α} {I : σ → Prop} {W : Path → Prop}
    {E : Prop} (h : studio.Keeps I W E) (S : Stage → Prop)
    (publish : Path → Path → StateM σ (Except Failure Path))
    (write : Path → String → StateM σ (Except Failure Unit)) :
    (Likeness.self I W E S).Studios studio (studio.delivering publish write) where
  run {i j} hij := by
    obtain rfl := hij.eq id And.left
    have hwritten : ∀ path ∈ i.written, W path := fun path hpath ↦
      (List.forall₂_same.1 hij.written path hpath).2
    exact Likeness.actions_self (h.run i hwritten).upholds fun r _ ↦
      .refl (fun _ ↦ rfl) (fun _ ↦ rfl) r
  probe hab := by
    obtain rfl := hab
    exact Likeness.actions_self (h.probe _).upholds fun _ _ ↦ rfl
  resolve reference :=
    Likeness.actions_self (h.resolve reference) fun _ hr ↦ Likeness.results_self hr fun _ _ ↦ rfl
  draw picture hab := by
    obtain ⟨rfl, hpath⟩ := hab
    exact Likeness.actions_self (h.draw _ picture hpath) fun _ hr ↦
      Likeness.results_self hr fun _ _ ↦ rfl
  report stage := Likeness.actions_self (h.report stage).upholds fun _ _ ↦ trivial

/-! ### Stages of a render -/

/-- The likeness of a world with itself, as long as no stage is reached. -/
def Likeness.still (σ : Type) : Likeness σ σ :=
  .self (fun _ ↦ True) (fun _ ↦ True) True fun _ ↦ False

/-- What runs like itself, in a world where no stage may be reached, reaches none. -/
theorem Likeness.Runs.climbs {R : β → β → Prop} {x : RenderT α (StateM σ) β}
    (h : (still σ).Runs R x x) : x.Leaves (Climbs []) := by
  have hstages {a b : List (Event α)} (hab : List.Forall₂ (still σ).Events a b) :
      a.filterMap Event.stage? = [] := by
    induction hab with
    | nil => rfl
    | cons hevent _ ih =>
      cases hevent with
      | reached hreached => exact hreached.elim
      | ran | drew | merged | skipped | published => exact ih
  intro p r q hends
  have hrun := h p p ⟨rfl, rfl, trivial⟩
  rw [show x.outcome p = (r, q) from hends] at hrun
  cases hrun with
  | ok hgoes | error hgoes =>
    have hnone := hstages hgoes.events
    exact ⟨_, hgoes.left, hnone ▸ List.prefix_rfl, fun _ ↦ hnone⟩

namespace Studio

open RenderT (Additive Leaves additive_climbs_nil)

variable {studio : Studio (StateM σ) α}

/-- A stage that is reached is the one that is reported. -/
theorem climbs_reach (stage : Stage) :
    (studio.reach stage : RenderT α (StateM σ) Unit).Leaves (Climbs [stage]) := by
  intro p r q h
  obtain ⟨rfl, -⟩ := ends_reach.1 h
  exact ⟨_, adds_of_ends_reach h, List.prefix_rfl, fun _ ↦ rfl⟩

variable [Scalar α]

/-- An assembly reaches the four stages of its work in order. -/
theorem climbs_assemble (media : Manifest) (canvas : Canvas α) (workdir : Path)
    (c : Composition α) :
    (studio.assemble ⟨studio.engine, studio.storage, studio.workspace.draw, media, canvas,
      workdir⟩ c).Leaves (Climbs
        [.renderingSegments, .compositingSequence, .compositingOverlays, .mixingAudio]) := by
  have hdir : (Likeness.still σ).Directories workdir workdir := fun _ _ _ ↦ ⟨rfl, trivial⟩
  have hs := (studio.keeps_true.studios (fun _ ↦ False) studio.storage.publish
    studio.workspace.write).sessions media canvas hdir
  have hself {δ : Type} {R : δ → δ → Prop} (hR : ∀ d, R d d) (ds : List δ) :
      List.Forall₂ R ds ds := List.forall₂_same.2 fun d _ ↦ hR d
  have hfile (file : RenderedFile α) : (Likeness.still σ).Files file file := ⟨rfl, rfl⟩
  exact (climbs_reach .renderingSegments).bind_climbs fun _ ↦
    (Likeness.Runs.mapM (hs.runs_renderEntry c) c.entries).climbs.bind_climbs fun pieces ↦
      (climbs_reach .compositingSequence).bind_climbs fun _ ↦
        (hs.runs_mergePieces c.blendAfter? (hself (fun piece ↦ ⟨hfile piece.rendered, rfl⟩)
          pieces)).climbs.bind_climbs fun base ↦
          (climbs_reach .compositingOverlays).bind_climbs fun _ ↦
            (hs.runs_addOverlays (hfile base) _).climbs.bind_climbs fun painted ↦
              (climbs_reach .mixingAudio).bind_climbs fun _ ↦
                (hs.runs_addSounds (hfile painted) _).climbs

/-- Delivering a result reaches the last two stages. -/
theorem climbs_deliver (project : Project α) (c : Composition α) (destination : Path)
    (options : RenderOptions) (rendered : RenderedFile α) :
    (studio.deliver project c destination options rendered).Leaves
      (Climbs [.finalizing, .complete]) := by
  have hP := additive_climbs_nil (α := α)
  have hcomplete (report : RenderReport α) :
      (studio.reach .complete >>= fun _ ↦ pure report :
        RenderT α (StateM σ) (RenderReport α)).Leaves (Climbs [.complete]) :=
    (climbs_reach .complete).bind_climbs fun _ ↦ .pure hP report
  refine (climbs_reach .finalizing).bind_climbs fun _ ↦
    (Leaves.perform hP _).bind_climbs fun output ↦
      (Leaves.record ⟨List.prefix_rfl, fun _ ↦ rfl⟩).bind_climbs fun _ ↦ ?_
  cases options.trace with
  | false => exact (Leaves.pure hP none).bind_climbs fun _ ↦ hcomplete _
  | true => exact ((leaves_leaveTrace hP _ _ _ _).map hP some).bind_climbs fun _ ↦ hcomplete _

/-- When a result is delivered, the stage says so, and no job is left to do. -/
theorem leaves_deliver (project : Project α) (c : Composition α)
    (destination : Path) (options : RenderOptions) (rendered : RenderedFile α) :
    (studio.deliver project c destination options rendered).Leaves fun _ events ↦
      .finalizing ∈ events.filterMap Event.stage? ∧ events.filterMap Event.job? = [] := by
  have hP : Additive (α := α) fun _ events ↦ events.filterMap Event.job? = [] :=
    ⟨fun _ ↦ rfl, fun ha hb ↦ by rw [List.filterMap_append, ha, hb, List.append_nil]⟩
  have hreach (stage : Stage) :
      (studio.reach stage : RenderT α (StateM σ) Unit).Leaves fun _ events ↦
        events = [.reached stage] := by
    intro p r q h
    exact ⟨_, adds_of_ends_reach h, rfl⟩
  -- the stage comes first, and what follows it adds no job
  refine Leaves.bind_into ?_ ?_ (hreach .finalizing) fun _ _ _ _ ↦
    (Leaves.perform hP _).bind hP fun output ↦ (Leaves.record rfl).bind hP fun _ ↦ ?_
  · rintro _ b _ rfl hb
    exact ⟨List.mem_cons_self, hb⟩
  · rintro _ _ rfl
    exact ⟨List.mem_cons_self, rfl⟩
  · have hcomplete (report : RenderReport α) :
        (studio.reach .complete >>= fun _ ↦ pure report :
          RenderT α (StateM σ) (RenderReport α)).Leaves fun _ events ↦
            events.filterMap Event.job? = [] :=
      ((Leaves.observe hP _).bind hP fun _ ↦ .record rfl).bind hP fun _ ↦ .pure hP report
    cases options.trace with
    | false => exact (Leaves.pure hP none).bind hP fun _ ↦ hcomplete _
    | true => exact ((leaves_leaveTrace hP _ _ _ _).map hP some).bind hP fun _ ↦ hcomplete _

/-- A render reaches all stages in their order, unless it fails after some of them. -/
theorem climbs_render (project : Project α) (media : Manifest) (destination : Path)
    (settings : OutputSettings α) (options : RenderOptions) :
    (studio.render project media destination settings options).Leaves (Climbs Stage.all) := by
  have hP := additive_climbs_nil (α := α)
  exact (climbs_reach .validating).bind_climbs fun _ ↦
    (Leaves.ofExcept hP _).bind_climbs fun _ ↦
      (climbs_reach .resolvingCanvas).bind_climbs fun _ ↦
        (Leaves.perform hP _).bind_climbs fun canvas ↦
          (climbs_reach .planning).bind_climbs fun _ ↦
            leaves_inFreshDir (fun _ ↦ ⟨List.nil_prefix, nofun⟩) fun workdir ↦
              (climbs_assemble _ _ _ _).bind_climbs (climbs_deliver project _ destination options)

end Studio

/-! ### Runs in a fresh directory -/

namespace Studio

variable {studio : Studio (StateM σ) α}

/-- A situation after a directory is removed. -/
def closed (studio : Studio (StateM σ) α) (dir : Path) (p : Situation α σ) : Situation α σ :=
  ⟨p.journal, ((studio.workspace.closeDir dir).run p.world).2⟩

/-- Runs a computation, and removes a directory whether or not it succeeded. -/
def thenClose (studio : Studio (StateM σ) α) (dir : Path) (x : RenderT α (StateM σ) β) :
    RenderT α (StateM σ) β := do
  let result ← ExceptT.lift x.run
  RenderT.observe (studio.workspace.closeDir dir)
  MonadExcept.ofExcept result

/-- Working in a fresh directory is to open one, to work, and to remove it whatever came of the
work. -/
theorem inFreshDir_eq (root? : Option Path) (body : Path → RenderT α (StateM σ) β) :
    studio.inFreshDir root? body =
      RenderT.perform (studio.workspace.openDir root?) >>= fun dir ↦
        studio.thenClose dir (body dir) := rfl

/-- Removing the directory changes the world, and neither the result nor the journal. -/
theorem outcome_thenClose (dir : Path) (x : RenderT α (StateM σ) β) (p : Situation α σ) :
    (studio.thenClose dir x).outcome p =
      ((x.outcome p).1, studio.closed dir (x.outcome p).2) :=
  (RenderT.ends_bind_of_ok (RenderT.ends_lift_run.2 ⟨_, rfl, rfl⟩)).2
    ((RenderT.ends_bind_of_ok (RenderT.ends_observe.2 ⟨rfl, rfl⟩)).2
      (RenderT.ends_ofExcept.2 ⟨rfl, rfl⟩))

end Studio

namespace Likeness

variable {L : Likeness σ τ}

/-! ### What renders have in common -/

section Follows

variable {Φ : Except Failure β × Situation α σ → Except Failure γ × Situation α τ → Prop}
  {p : Situation α σ} {q : Situation α τ}

/-- Wherever two runs have come alike, the computations end as the relation says. -/
def Follows (L : Likeness σ τ)
    (Φ : Except Failure β × Situation α σ → Except Failure γ × Situation α τ → Prop)
    (p : Situation α σ) (q : Situation α τ) (x : RenderT α (StateM σ) β)
    (y : RenderT α (StateM τ) γ) : Prop :=
  ∀ events events' p' q', L.Goes p q events events' p' q' → Φ (x.outcome p') (y.outcome q')

/-- The relation holds of all runs that came alike to the same failure. -/
def Tolerates (L : Likeness σ τ)
    (Φ : Except Failure β × Situation α σ → Except Failure γ × Situation α τ → Prop)
    (p : Situation α σ) (q : Situation α τ) : Prop :=
  ∀ e e' events events' p' q', L.Goes p q events events' p' q' → L.Fails e e' events events' →
    Φ (.error e, p') (.error e', q')

/-- A relation that tolerates a common failure may be shown of what comes after runs that are alike.
-/
theorem Runs.follows {δ ε : Type} {R : δ → ε → Prop} {x : RenderT α (StateM σ) δ}
    {y : RenderT α (StateM τ) ε} {f : δ → RenderT α (StateM σ) β} {g : ε → RenderT α (StateM τ) γ}
    (hxy : L.Runs R x y) (hfail : L.Tolerates Φ p q)
    (hfg : ∀ d e, R d e → L.Follows Φ p q (f d) (g e)) : L.Follows Φ p q (x >>= f) (y >>= g) := by
  intro events events' p' q' hgoes
  rw [RenderT.outcome_bind, RenderT.outcome_bind]
  have h := hxy p' q' hgoes.situations
  generalize x.outcome p' = r, y.outcome q' = r' at h
  cases h with
  | ok hgoes' hR => exact hfg _ _ hR _ _ _ _ (hgoes.trans hgoes')
  | error hgoes' hfails => exact hfail _ _ _ _ _ _ (hgoes.trans hgoes') (hfails.append L _ _)

/-- It may be shown of the work in fresh directories, if removing these does not matter to it. -/
theorem follows_inFreshDir {a : Studio (StateM σ) α} {b : Studio (StateM τ) α}
    {root? root?' : Option Path} {D : Path → Path → Prop} {body : Path → RenderT α (StateM σ) β}
    {body' : Path → RenderT α (StateM τ) γ}
    (hopen : L.Actions (ResultsAlike L.Failed D) (a.workspace.openDir root?)
      (b.workspace.openDir root?'))
    (hfail : L.Tolerates Φ p q)
    (hclose : ∀ {dir dir' r r' p' q'}, D dir dir' → Φ (r, p') (r', q') →
      Φ (r, a.closed dir p') (r', b.closed dir' q'))
    (hbody : ∀ dir dir', D dir dir' → L.Follows Φ p q (body dir) (body' dir')) :
    L.Follows Φ p q (a.inFreshDir root? body) (b.inFreshDir root?' body') := by
  rw [Studio.inFreshDir_eq, Studio.inFreshDir_eq]
  refine (Runs.perform hopen).follows hfail fun dir dir' hdir events events' p' q' hgoes ↦ ?_
  rw [Studio.outcome_thenClose, Studio.outcome_thenClose]
  exact hclose hdir (hbody dir dir' hdir _ _ _ _ hgoes)

end Follows

/-- Renders in studios that get the same answers go on alike until a result is published. -/
theorem Studios.follows_render [Scalar α] {a : Studio (StateM σ) α} {b : Studio (StateM τ) α}
    (h : L.Studios a b) (hearly : ∀ stage ∈ Stage.early, L.Reached stage) {project : Project α}
    {media : Manifest} {destination destination' : Path} {settings : OutputSettings α}
    {options options' : RenderOptions} {p : Situation α σ} {q : Situation α τ}
    {Φ : Except Failure (RenderReport α) × Situation α σ →
      Except Failure (RenderReport α) × Situation α τ → Prop} {D : Path → Path → Prop}
    (hdirs : ∀ dir dir', D dir dir' → L.Directories dir dir')
    (hcheck : ∀ e, project.check (settings.or project.outputSettings) = .error e → L.Failed e e)
    (hopen : L.Actions (ResultsAlike L.Failed D) (a.workspace.openDir options.tempRoot?)
      (b.workspace.openDir options'.tempRoot?))
    (hfail : L.Tolerates Φ p q)
    (hclose : ∀ {dir dir' r r' p' q'}, D dir dir' → Φ (r, p') (r', q') →
      Φ (r, a.closed dir p') (r', b.closed dir' q'))
    (hdeliver : ∀ canvas file file', L.Files file file' → L.Follows Φ p q
      (a.deliver project (.ofProject project canvas) destination options file)
      (b.deliver project (.ofProject project canvas) destination' options' file')) :
    L.Follows Φ p q (a.render project media destination settings options)
      (b.render project media destination' settings options') := by
  have hreach (stage : Stage) (hstage : stage ∈ Stage.early) := h.runs_reach (hearly stage hstage)
  have hchecked : L.Runs (α := α) (fun _ _ ↦ True)
      (MonadExcept.ofExcept (project.check (settings.or project.outputSettings)))
      (MonadExcept.ofExcept (project.check (settings.or project.outputSettings))) := by
    cases hresult : project.check (settings.or project.outputSettings) with
    | ok => exact .pure trivial
    | error e => exact .throw (hcheck e hresult)
  refine (hreach .validating (by decide)).follows hfail fun _ _ _ ↦ hchecked.follows hfail
    fun _ _ _ ↦ (hreach .resolvingCanvas (by decide)).follows hfail fun _ _ _ ↦
      (Runs.perform (h.actions_canvas project media _)).follows hfail ?_
  rintro canvas _ rfl
  refine (hreach .planning (by decide)).follows hfail fun _ _ _ ↦
    follows_inFreshDir hopen hfail hclose fun dir dir' hdir ↦ ?_
  rw [Studio.renderPlanned_eq, Studio.renderPlanned_eq]
  exact (h.runs_assemble hearly (h.sessions media canvas (hdirs dir dir' hdir)) _).follows hfail
    fun file file' hfile ↦ hdeliver canvas file file' hfile

end Likeness

end Splice
