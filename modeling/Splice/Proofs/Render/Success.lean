import Splice.Proofs.Number.Exact
import Splice.Proofs.Plan.Layers
import Splice.Proofs.Render.Run
import Splice.Proofs.Samples

/-!
# Successful renders

What a successful render does around the assembly of its composition: it goes from stage to stage,
makes a directory and removes it, publishes the result, and leaves a trace. Of all this only the
stages and the result are in the journal (`Studio.ends_render`, `Studio.ends_renderPlanned`), so
that what a render adds to the journal is what the assembly adds, in between.

Where the check and the canvas are known, a render comes to what its composition comes to
(`Studio.outcome_render`). So the sample is evaluated (`Sample.outcome_render`).
-/

namespace Splice

variable {α σ β : Type}

namespace Studio

open RenderT (ends_bind_ok ends_pure)
open Session (adds_of_ends_record adds_of_ends_observe adds_of_ends_perform)

variable {studio : Studio (StateM σ) α} {p q : Situation α σ}

/-! ### Stages and directories -/

/-- A stage always goes well: it is noted, and whatever the outside makes of it happens to the
world. -/
theorem ends_reach {stage : Stage} {r : Except Failure Unit} :
    (studio.reach stage : RenderT α (StateM σ) Unit).Ends p r q ↔ r = .ok () ∧
      q = ⟨{ p.journal with events := p.journal.events ++ [.reached stage] },
        ((studio.report stage).run p.world).2⟩ :=
  RenderT.ends_of_outcome_eq rfl

theorem adds_of_ends_reach {stage : Stage} {r : Except Failure Unit}
    (h : (studio.reach stage).Ends p r q) : p.Adds [.reached stage] q := by
  obtain ⟨-, rfl⟩ := ends_reach.1 h
  rfl

/-- What runs in a fresh directory adds to the journal only what it adds by itself. -/
theorem ends_inFreshDir {root? : Option Path} {body : Path → RenderT α (StateM σ) β} {b : β}
    (h : (studio.inFreshDir root? body).Ends p (.ok b) q) :
    ∃ dir t u, p.Adds [] t ∧ (body dir).Ends t (.ok b) u ∧ u.Adds [] q := by
  rcases cases_of_ends_inFreshDir h with ⟨e, he, -⟩ | ⟨dir, t, u, hopen, hbody, hclose⟩
  · cases he
  · exact ⟨dir, t, u, adds_of_ends_perform hopen, hbody, adds_of_ends_observe hclose⟩

/-! ### Renders -/

variable [Scalar α] {project : Project α} {media : Manifest} {destination : Path}
  {options : RenderOptions} {report : RenderReport α}

/-- The trace is a file, and no event. -/
theorem adds_of_ends_leaveTrace {c : Composition α} {output : Path} {duration : α}
    {trace : Path × Trace α}
    (h : (studio.leaveTrace project c output duration).Ends p (.ok trace) q) : p.Adds [] q := by
  obtain ⟨journal, t, hget, h⟩ := ends_bind_ok.1 h
  obtain ⟨_, u, hwrite, h⟩ := ends_bind_ok.1 h
  obtain ⟨-, rfl⟩ := ends_pure.1 h
  obtain ⟨-, rfl⟩ := RenderT.ends_get.1 hget
  exact adds_of_ends_perform hwrite

omit [Scalar α] in
/-- The last stage is followed by nothing. -/
theorem ends_complete {made : RenderReport α}
    (h : (studio.reach .complete >>= fun _ ↦ pure made).Ends p (.ok report) q) :
    report = made ∧ p.Adds [.reached .complete] q := by
  obtain ⟨_, t, hreach, h⟩ := ends_bind_ok.1 h
  obtain ⟨hreport, rfl⟩ := ends_pure.1 h
  exact ⟨Except.ok.inj hreport, adds_of_ends_reach hreach⟩

/-- An assembly goes from stage to stage: it renders the entries, merges them, and adds the overlays
and the sounds. -/
theorem ends_assemble {session : Session (StateM σ) α} {c : Composition α} {file : RenderedFile α}
    (h : (studio.assemble session c).Ends p (.ok file) q) :
    ∃ pieces base painted p₁ p₂ p₃ p₄ p₅ p₆ p₇,
      p.Adds [.reached .renderingSegments] p₁ ∧
      (c.entries.mapM (session.renderEntry c)).Ends p₁ (.ok pieces) p₂ ∧
      p₂.Adds [.reached .compositingSequence] p₃ ∧
      (session.mergePieces c.blendAfter? pieces).Ends p₃ (.ok base) p₄ ∧
      p₄.Adds [.reached .compositingOverlays] p₅ ∧
      (session.addOverlays base c.layers.overlays).Ends p₅ (.ok painted) p₆ ∧
      p₆.Adds [.reached .mixingAudio] p₇ ∧
      (session.addSounds painted c.layers.audio).Ends p₇ (.ok file) q := by
  obtain ⟨_, p₁, hreach₁, h⟩ := ends_bind_ok.1 h
  obtain ⟨pieces, p₂, hentries, h⟩ := ends_bind_ok.1 h
  obtain ⟨_, p₃, hreach₂, h⟩ := ends_bind_ok.1 h
  obtain ⟨base, p₄, hmerge, h⟩ := ends_bind_ok.1 h
  obtain ⟨_, p₅, hreach₃, h⟩ := ends_bind_ok.1 h
  obtain ⟨painted, p₆, hoverlays, h⟩ := ends_bind_ok.1 h
  obtain ⟨_, p₇, hreach₄, hsounds⟩ := ends_bind_ok.1 h
  exact ⟨pieces, base, painted, p₁, p₂, p₃, p₄, p₅, p₆, p₇, adds_of_ends_reach hreach₁, hentries,
    adds_of_ends_reach hreach₂, hmerge, adds_of_ends_reach hreach₃, hoverlays,
    adds_of_ends_reach hreach₄, hsounds⟩

/-- What a render does with what it assembled. -/
def deliver (studio : Studio (StateM σ) α) (project : Project α) (c : Composition α)
    (destination : Path) (options : RenderOptions) (rendered : RenderedFile α) :
    RenderT α (StateM σ) (RenderReport α) := do
  studio.reach .finalizing
  let output ← RenderT.perform (studio.storage.publish rendered.path destination)
  RenderT.record (.published output)
  let trace? ←
    if options.trace then
      some <$> studio.leaveTrace project c output rendered.duration
    else pure none
  studio.reach .complete
  return {
    output
    duration := rendered.duration
    canvas := c.canvas
    clipCount := project.clipCount
    baseClipCount := c.layers.base.length
    overlayCount := c.layers.overlays.length
    audioClipCount := c.layers.audio.length
    trace? }

/-- A planned render assembles, and then delivers. -/
theorem renderPlanned_eq (project : Project α) (media : Manifest) (c : Composition α)
    (destination : Path) (options : RenderOptions) (workdir : Path) :
    studio.renderPlanned project media c destination options workdir =
      studio.assemble ⟨studio.engine, studio.storage, studio.workspace.draw, media, c.canvas,
        workdir⟩ c >>= studio.deliver project c destination options := rfl

/-- What is assembled is published, and the report tells its length. -/
theorem ends_renderPlanned {c : Composition α} {workdir : Path}
    (h : (studio.renderPlanned project media c destination options workdir).Ends p (.ok report) q) :
    report.canvas = c.canvas ∧ ∃ rendered t,
      (studio.assemble ⟨studio.engine, studio.storage, studio.workspace.draw, media, c.canvas,
        workdir⟩ c).Ends p (.ok rendered) t ∧ report.duration = rendered.duration ∧
      t.Adds [.reached .finalizing, .published report.output, .reached .complete] q := by
  obtain ⟨rendered, p₁, hassemble, h⟩ := ends_bind_ok.1 h
  obtain ⟨_, p₂, hreach, h⟩ := ends_bind_ok.1 h
  obtain ⟨output, p₃, hpublish, h⟩ := ends_bind_ok.1 h
  obtain ⟨_, p₄, hrecord, h⟩ := ends_bind_ok.1 h
  have hpublished : p₁.Adds [.reached .finalizing, .published output] p₄ :=
    (adds_of_ends_reach hreach).trans
      ((adds_of_ends_perform hpublish).trans (adds_of_ends_record hrecord))
  -- with and without a trace the events are the same, but the code goes two ways
  cases htrace : options.trace with
  | false =>
    rw [htrace] at h
    obtain ⟨trace?, p₅, hnone, h⟩ := ends_bind_ok.1 h
    obtain ⟨-, rfl⟩ := ends_pure.1 hnone
    obtain ⟨rfl, hcomplete⟩ := ends_complete h
    exact ⟨rfl, rendered, p₁, hassemble, rfl, hpublished.trans hcomplete⟩
  | true =>
    rw [htrace] at h
    obtain ⟨trace?, p₅, hsome, h⟩ := ends_bind_ok.1 h
    rw [map_eq_pure_bind] at hsome
    obtain ⟨trace, p₆, hleave, hsome⟩ := ends_bind_ok.1 hsome
    obtain ⟨-, rfl⟩ := ends_pure.1 hsome
    obtain ⟨rfl, hcomplete⟩ := ends_complete h
    exact ⟨rfl, rendered, p₁, hassemble, rfl,
      hpublished.trans ((adds_of_ends_leaveTrace hleave).trans hcomplete)⟩

/-- The canvas of the report is the one that was planned for. -/
theorem ends_render {settings : OutputSettings α}
    (h : (studio.render project media destination settings options).Ends p (.ok report) q) :
    ∃ workdir t u,
      p.Adds [.reached .validating, .reached .resolvingCanvas, .reached .planning] t ∧
      (studio.renderPlanned project media (.ofProject project report.canvas) destination options
        workdir).Ends t (.ok report) u ∧ u.Adds [] q := by
  obtain ⟨_, p₁, hreach₁, h⟩ := ends_bind_ok.1 h
  obtain ⟨_, p₂, hcheck, h⟩ := ends_bind_ok.1 h
  obtain ⟨_, p₃, hreach₂, h⟩ := ends_bind_ok.1 h
  obtain ⟨canvas, p₄, hcanvas, h⟩ := ends_bind_ok.1 h
  obtain ⟨_, p₅, hreach₃, h⟩ := ends_bind_ok.1 h
  obtain ⟨workdir, t, u, hopen, hplanned, hclose⟩ := ends_inFreshDir h
  obtain ⟨-, rfl⟩ := RenderT.ends_ofExcept.1 hcheck
  obtain rfl : report.canvas = canvas := (ends_renderPlanned hplanned).1
  exact ⟨workdir, t, u, ((adds_of_ends_reach hreach₁).trans ((adds_of_ends_reach hreach₂).trans
    ((adds_of_ends_perform hcanvas).trans (adds_of_ends_reach hreach₃)))).trans hopen, hplanned,
    hclose⟩

/-! ### Renders of a known composition -/

/-- The world in which a render asks for the canvas. -/
def beforeCanvas (studio : Studio (StateM σ) α) (w : σ) : σ :=
  ((studio.report .resolvingCanvas).run ((studio.report .validating).run w).2).2

/-- The world in which a render makes its directory. -/
def beforeDir (studio : Studio (StateM σ) α) (project : Project α) (media : Manifest)
    (settings : OutputSettings α) (w : σ) : σ :=
  ((studio.report .planning).run
    ((studio.canvas project media settings).run (studio.beforeCanvas w)).2).2

/-- A checked project is rendered as the composition that it has on the canvas. -/
theorem outcome_render {settings : OutputSettings α} {canvas : Canvas α} {w : σ}
    (hcheck : project.check (settings.or project.outputSettings) = .ok ())
    (hcanvas : ((studio.canvas project media (settings.or project.outputSettings)).run
      (studio.beforeCanvas w)).1 = .ok canvas) :
    (studio.render project media destination settings options).outcome ⟨{}, w⟩ =
      (studio.inFreshDir options.tempRoot? (studio.renderPlanned project media
        (.ofProject project canvas) destination options)).outcome
          ⟨⟨0, [.reached .validating, .reached .resolvingCanvas, .reached .planning]⟩,
            studio.beforeDir project media (settings.or project.outputSettings) w⟩ := by
  rw [render, RenderT.outcome_bind_of_ends (ends_reach.2 ⟨rfl, rfl⟩),
    RenderT.outcome_bind_of_ends (RenderT.ends_ofExcept.2 ⟨hcheck.symm, rfl⟩),
    RenderT.outcome_bind_of_ends (ends_reach.2 ⟨rfl, rfl⟩),
    RenderT.outcome_bind_of_ends (RenderT.ends_perform.2 ⟨hcanvas.symm, rfl⟩),
    RenderT.outcome_bind_of_ends (ends_reach.2 ⟨rfl, rfl⟩)]
  rfl

end Studio

/-! ### The sample -/

namespace Sample

/-- The shares of the sample clips, of which the second video would overlap the first one. -/
def layers : Layers Exact where
  baseLayer? := some 0
  base := clips.filter fun clip ↦ clip.id ∈ ["a", "c", "d"]
  overlays := [video "b" 1.0 3.0 none {}, text "title" 1.0 1.0]
  audio := clips.filter Clip.isAudio
  demotions := [⟨"b", 1.0, 2.0⟩]

/-- What the sample is to become. -/
def composition : Composition Exact :=
  let timelineEnd := project.timelineEnd
  { canvas, timelineEnd, layers
    entries := Entry.ofBase layers.base timelineEnd 30.0
    decisions := EdgeDecision.ofBase layers.base 30.0 }

/-- The shares of the sample are found by evaluation; entries and decisions are those of the shares
by definition. -/
theorem ofProject_project :
    Composition.ofProject (project : Project Exact) canvas = composition := by
  have hlayers : Layers.ofClips (project : Project Exact).clips 30.0 = layers := by
    -- the sort of the clips does not reduce, but they are sorted
    rw [Layers.ofClips_of_sorted (by decide +kernel) (by decide +kernel) (by decide +kernel)]
    cbv
  rw [Composition.ofProject, canvas, hlayers]
  rfl

/-- In any studio that settles on the canvas, the sample is rendered as its composition. -/
theorem outcome_render {studio : Studio (StateM σ) Exact} {destination : Path}
    {options : RenderOptions} {w : σ}
    (hcanvas : ((studio.canvas project media {}).run (studio.beforeCanvas w)).1 = .ok canvas) :
    (studio.render project media destination {} options).outcome ⟨{}, w⟩ =
      (studio.inFreshDir options.tempRoot? (studio.renderPlanned project media composition
        destination options)).outcome
          ⟨⟨0, [.reached .validating, .reached .resolvingCanvas, .reached .planning]⟩,
            studio.beforeDir project media {} w⟩ := by
  have hcheck : (project : Project Exact).check {} = .ok () := by
    rw [Project.check, if_neg (by decide +kernel), if_pos (by decide +kernel)]
  exact (Studio.outcome_render hcheck hcanvas).trans (by rw [ofProject_project]; rfl)

/-- The sample is rendered, although the engine does no wipes. -/
theorem exists_ends_render : ∃ report q,
    (studio.render (project : Project Exact) media ⟨"out.mp4"⟩ {} {}).Ends ⟨{}, ()⟩ (.ok report)
      q :=
  RenderT.exists_ends (by rw [outcome_render (by cbv)]; decide +kernel)

end Sample

end Splice
