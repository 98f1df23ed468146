import Splice.Proofs.Plan.Coverage
import Splice.Proofs.Render.Course
import Splice.Proofs.Render.Success

/-!
# Traces

The trace of a render brings together what was planned and what was done, and its counts are taken
from lists that were filled at different stages. They agree with each other, and with the plan that
the studio would have given in place of the render (`Trace.AgreesWith`).

The steps of the entries are read off `EntriesRun`, the merges off `SequenceRun`, by one induction
each: a merge begins where the one before it ended, and the last one ends with the length of the
render (`MergeStep.Chained`). That as many merges blend as transitions were accepted is the theory
of seams. A studio plans from nothing but a few answers about the first video (`Studio.canvas_eq`),
so the plan is the same wherever these are.
-/

namespace Splice

variable {α σ : Type}

/-! ### Steps -/

namespace MergeStep

/-- Whether a step merges by a transition. -/
def isTransition : MergeStep α → Bool
  | transition .. => true
  | _ => false

/-- The length of what is there before a merge. -/
def left? : MergeStep α → Option α
  | transition _ _ _ _ left _ _ _ => some left
  | concat left _ _ => some left
  | _ => none

/-- Only a transition falls back. -/
theorem isTransition_of_isFallback {step : MergeStep α} (h : step.isFallback = true) :
    step.isTransition = true := by
  cases step with
  | transition => rfl
  | filler | clip | concat => cases h

theorem isSome_blend? (step : MergeStep α) : step.blend?.isSome = step.isTransition := by
  cases step <;> rfl

/-- Steps that merge files onto one of a length: each begins where the one before it ended. -/
structure Chained (running result : α) (merges : List (MergeStep α)) : Prop where
  isMerge : ∀ step ∈ merges, step.isTransition = true ∨ step.isConcat = true
  first : ∀ step ∈ merges.head?, step.left? = some running
  chain : merges.IsChain fun a b ↦ b.left? = some a.result
  last : (merges.map MergeStep.result).getLastD running = result

namespace Chained

variable {running result : α} {merges : List (MergeStep α)}

theorem nil : Chained running running [] :=
  ⟨List.forall_mem_nil _, nofun, .nil, rfl⟩

/-- A merge may come first if it begins with what is there and ends where the others begin. -/
theorem cons {step : MergeStep α} (hstep : step.isTransition = true ∨ step.isConcat = true)
    (hleft : step.left? = some running) (h : Chained step.result result merges) :
    Chained running result (step :: merges) where
  isMerge := List.forall_mem_cons.2 ⟨hstep, h.isMerge⟩
  first := by
    rintro _ ⟨⟩
    exact hleft
  chain := List.isChain_cons.2 ⟨h.first, h.chain⟩
  last := by
    rw [List.map_cons, List.getLastD_cons]
    exact h.last

/-- No entry is among the merges. -/
theorem countP_isFiller (h : Chained running result merges) : merges.countP isFiller = 0 := by
  refine List.countP_eq_zero.2 fun step hstep ↦ ?_
  cases step with
  | filler =>
    exact absurd (h.isMerge _ hstep) (by simp [MergeStep.isTransition, MergeStep.isConcat])
  | clip | transition | concat => exact Bool.false_ne_true

/-- Every merge is a transition, or puts one file after the other. -/
theorem countP_add (h : Chained running result merges) :
    merges.countP isTransition + merges.countP isConcat = merges.length := by
  have hconcat : merges.countP isConcat = merges.countP (fun step ↦ ¬ step.isTransition = true) :=
    List.countP_congr fun step hstep ↦ by
      have hmerge := h.isMerge step hstep
      cases step <;> simp_all [isTransition, isConcat]
  rw [hconcat]
  exact (List.length_eq_countP_add_countP isTransition).symm

end Chained

end MergeStep

section Runs

variable [Scalar α]

/-- The steps of the rendered entries are those that are planned for them. -/
theorem EntriesRun.steps_eq {entries : List (Entry α)} {pieces : List (Piece α)}
    {events : List (Event α)} (h : EntriesRun entries pieces events) :
    events.filterMap Event.step? = entries.map Entry.step := by
  induction h with
  | nil => rfl
  | cons head _ ih =>
    rw [List.filterMap_append, ih, List.map_cons]
    cases head with
    | clip hcontent =>
      rw [Entry.step, Entry.renderedDuration, Clip.video?, hcontent]
      rfl
    | filler => rfl

/-- A merge is one step, from the length of the file on the left to that of the result. -/
theorem MergeRun.exists_span {left right result : α} {seam? : Option (Seam α)}
    {events : List (Event α)} (h : MergeRun left right seam? result events) :
    ∃ step, events.filterMap Event.step? = [step] ∧ step.left? = some left ∧
      step.result = result ∧ (step.isTransition = true ∨ step.isConcat = true) := by
  cases h with
  | blend => exact ⟨_, rfl, rfl, rfl, .inl rfl⟩
  | fallback => exact ⟨_, rfl, rfl, rfl, .inl rfl⟩
  | concat => exact ⟨_, rfl, rfl, rfl, .inr rfl⟩

/-- The steps of the merges form a chain. -/
theorem SequenceRun.chained {blendAfter? : ℕ → Option (TransitionStyle × α)} {running result : α}
    {last? : Option (ℕ × String)} {pieces : List (Piece α)} {events : List (Event α)}
    (h : SequenceRun blendAfter? running last? pieces result events) :
    MergeStep.Chained running result (events.filterMap Event.step?) := by
  induction h with
  | nil => exact .nil
  | cons head _ ih =>
    obtain ⟨step, hstep, hleft, rfl, hmerge⟩ := head.exists_span
    rw [List.filterMap_append, hstep, List.singleton_append]
    exact .cons hmerge hleft ih

end Runs

/-! ### Plans -/

section Plan

variable [Scalar α]

/-- Every entry is a filler or one of the base clips. -/
theorem Entry.countP_isFiller_add (base : List (Clip α)) (timelineEnd fps : α) :
    ((ofBase base timelineEnd fps).map Entry.step).countP MergeStep.isFiller + base.length =
      (ofBase base timelineEnd fps).length := by
  have hclips := congrArg List.length (clip?_ofBase base timelineEnd fps)
  rw [List.length_filterMap_eq_countP, List.length_map, List.length_zipIdx] at hclips
  have hfillers : ((ofBase base timelineEnd fps).map Entry.step).countP MergeStep.isFiller =
      (ofBase base timelineEnd fps).countP (fun entry ↦ ¬ entry.clip?.isSome = true) := by
    rw [List.countP_map]
    refine List.countP_congr fun entry _ ↦ ?_
    cases entry with
    | clip => exact iff_of_false Bool.false_ne_true (by simp [Entry.clip?])
    | filler => exact iff_of_true rfl (by simp [Entry.clip?])
  rw [hfillers, ← hclips, Nat.add_comm]
  exact (List.length_eq_countP_add_countP fun entry : Entry α ↦ entry.clip?.isSome).symm

/-- There are as many accepted decisions as seams that blend. -/
theorem EdgeDecision.length_filterMap_seam? (base : List (Clip α)) (fps : α) :
    ((ofBase base fps).filterMap seam?).length = (ofBase base fps).countP isAccepted := by
  have h := congrArg List.length (map_filterMap_seam? base fps)
  rwa [List.length_map, List.length_map, ← List.countP_eq_length_filter] at h

/-- Every edge between base clips has a decision, which accepts a transition or does not. -/
theorem EdgeDecision.countP_add (base : List (Clip α)) (fps : α) :
    (ofBase base fps).countP isAccepted + (ofBase base fps).countP (!·.isAccepted) =
      base.length - 1 := by
  rw [← length_ofBase base fps, List.length_eq_countP_add_countP isAccepted]
  exact congrArg (_ + ·) (List.countP_congr fun decision _ ↦ by simp)

end Plan

/-! ### Agreement -/

/-- A trace agrees with a plan, and with itself. -/
structure Trace.AgreesWith [Scalar α] (t : Trace α) (c : Composition α)
    (merges : List (MergeStep α)) : Prop where
  canvas_eq : t.canvas = c.canvas
  baseClipIds_eq : t.baseClipIds = c.layers.base.map Clip.id
  overlayClipIds_eq : t.overlayClipIds = c.layers.overlays.map Clip.id
  demotions_eq : t.demotions = c.layers.demotions
  decisions_eq : t.decisions = c.decisions
  /-- Every clip has one share. -/
  clipCount_eq : t.summary.clipCount =
    t.summary.baseClipCount + t.summary.overlayCount + t.summary.audioClipCount
  /-- Every planned entry is a filler or a base clip. -/
  entryCount_eq : t.summary.fillerCount + t.summary.baseClipCount = c.entries.length
  /-- All entries but the first one are merged with what is there. -/
  mergeCount_eq : c.entries.length =
    t.steps.countP MergeStep.isTransition + t.steps.countP MergeStep.isConcat + 1
  /-- First all entries are rendered, in their order, and then they are merged. -/
  steps_eq : t.steps = c.entries.map Entry.step ++ merges
  isMerge : ∀ step ∈ merges, step.isTransition = true ∨ step.isConcat = true
  /-- Every edge between base clips has a decision. -/
  decisionCount_eq : t.summary.acceptedTransitions + t.summary.rejectedTransitions =
    t.summary.baseClipCount - 1
  transitionCount_eq : t.steps.countP MergeStep.isTransition = t.summary.acceptedTransitions
  fallbackCount_le : t.summary.fallbackTransitions ≤ t.summary.acceptedTransitions
  /-- A merge begins where the one before it ended. -/
  chain : merges.IsChain fun a b ↦ b.left? = some a.result
  /-- The render is as long as the result of its last merge, or as its only entry. -/
  finalDuration_eq : t.steps.getLast?.map MergeStep.result = some t.summary.finalDuration

section Agreement

variable [Scalar α]

/-- Every clip is part of the base, an overlay or a sound. -/
theorem Layers.length_eq (clips : List (Clip α)) (fps : α) :
    clips.length = (ofClips clips fps).base.length + (ofClips clips fps).overlays.length +
      clips.countP Clip.isAudio := by
  have haudio : (ofClips clips fps).audio.length = clips.countP Clip.isAudio := by
    rw [ofClips_eq, List.countP_eq_length_filter]
    exact (sortByStart_perm _).length_eq
  rw [← haudio, ← List.length_append, ← List.length_append]
  exact (perm_ofClips clips fps).length_eq.symm

/-- The step of an entry is not a merge. -/
theorem Entry.countP_step {entries : List (Entry α)} {isMerge : MergeStep α → Bool}
    (hfiller : ∀ f, isMerge (.filler f) = false) (hclip : ∀ id d, isMerge (.clip id d) = false) :
    (entries.map step).countP isMerge = 0 := by
  refine List.countP_eq_zero.2 (List.forall_mem_map.2 fun entry _ ↦ ?_)
  cases entry with
  | clip => exact Bool.eq_false_iff.1 (hclip _ _)
  | filler => exact Bool.eq_false_iff.1 (hfiller _)

/-- The last step is as long as the whole. -/
theorem EntriesRun.result_getLast? {entries : List (Entry α)} {first : Piece α}
    {rest : List (Piece α)} {events : List (Event α)}
    (h : EntriesRun entries (first :: rest) events) {merges : List (MergeStep α)} {result : α}
    (hmerges : MergeStep.Chained first.rendered.duration result merges)
    (hlength : merges.length = rest.length) :
    (entries.map Entry.step ++ merges).getLast?.map MergeStep.result = some result := by
  rcases merges.eq_nil_or_concat with rfl | ⟨before, last, rfl⟩
  · -- without a merge, the only entry is the whole
    obtain rfl := List.length_eq_zero_iff.1 hlength.symm
    obtain rfl : first.rendered.duration = result := hmerges.last
    cases h with
    | cons head tail =>
      cases tail
      cases head with
      | clip hcontent => simp [Entry.step, Entry.renderedDuration, Clip.video?, hcontent,
          MergeStep.result]
      | filler => rfl
  · have hlast := hmerges.last
    rw [List.concat_eq_append, List.map_append, List.map_singleton, List.getLastD_concat] at hlast
    rw [List.concat_eq_append, ← List.append_assoc, List.getLast?_concat, Option.map_some, hlast]

variable {first : Piece α} {rest : List (Piece α)} {duration : α}
  {rendering merging : List (Event α)}

/-- All entries but the first one are merged with what is there. -/
theorem EntriesRun.length_eq {entries : List (Entry α)}
    {blendAfter? : ℕ → Option (TransitionStyle × α)}
    (hentries : EntriesRun entries (first :: rest) rendering)
    (hmerges : SequenceRun blendAfter? first.rendered.duration first.clip? rest duration merging) :
    entries.length = (merging.filterMap Event.step?).length + 1 := by
  have hlabels := congrArg List.length hentries.labels_eq
  rw [List.length_map, List.length_map, List.length_cons] at hlabels
  rw [hmerges.length_steps, ← hlabels]

variable [LawfulScalar α] {project : Project α} {canvas : Canvas α}

/-- There are as many blends as accepted transitions. -/
theorem Composition.countP_isTransition
    (hentries : EntriesRun (ofProject project canvas).entries (first :: rest) rendering)
    (hmerges : SequenceRun (ofProject project canvas).blendAfter? first.rendered.duration
      first.clip? rest duration merging) :
    (merging.filterMap Event.step?).countP MergeStep.isTransition =
      (ofProject project canvas).decisions.countP EdgeDecision.isAccepted := by
  set c := ofProject project canvas
  have hblends := congrArg List.length hmerges.blends_eq
  have hseams := seams_eq project canvas
  rw [← hentries.labels_eq] at hseams
  rw [List.length_map, show Seam.between c.blendAfter? first.clip? _ =
    Seam.all c.blendAfter? ((first :: rest).map Piece.clip?) from rfl, hseams,
    List.length_filterMap_eq_countP] at hblends
  calc (merging.filterMap Event.step?).countP MergeStep.isTransition
    _ = (merging.filterMap Event.step?).countP (·.blend?.isSome) :=
      List.countP_congr fun step _ ↦ by rw [MergeStep.isSome_blend?]
    _ = (c.decisions.filterMap EdgeDecision.seam?).length := hblends
    _ = c.decisions.countP EdgeDecision.isAccepted :=
      EdgeDecision.length_filterMap_seam? c.layers.base canvas.fps

/-- A trace agrees with the plan that was carried out. -/
theorem Trace.agreesWith_of_runs {journal : Journal α}
    (hentries : EntriesRun (Composition.ofProject project canvas).entries (first :: rest) rendering)
    (hmerges : SequenceRun (Composition.ofProject project canvas).blendAfter?
      first.rendered.duration first.clip? rest duration merging)
    (hsteps : journal.steps = rendering.filterMap Event.step? ++ merging.filterMap Event.step?) :
    (Trace.of project (.ofProject project canvas) journal duration).AgreesWith
      (.ofProject project canvas) (merging.filterMap Event.step?) := by
  set c := Composition.ofProject project canvas
  set merges := merging.filterMap Event.step?
  have hchained : MergeStep.Chained first.rendered.duration duration merges := hmerges.chained
  have htransitions : merges.countP MergeStep.isTransition =
      c.decisions.countP EdgeDecision.isAccepted :=
    Composition.countP_isTransition hentries hmerges
  rw [hentries.steps_eq] at hsteps
  have htransition : journal.steps.countP MergeStep.isTransition =
      merges.countP MergeStep.isTransition := by
    rw [hsteps, List.countP_append, Entry.countP_step (fun _ ↦ rfl) fun _ _ ↦ rfl, Nat.zero_add]
  -- steps of entries are no merges and steps of merges no fillers, so each count is that of one
  -- part
  exact {
    canvas_eq := rfl
    baseClipIds_eq := rfl
    overlayClipIds_eq := rfl
    demotions_eq := rfl
    decisions_eq := rfl
    clipCount_eq := Layers.length_eq project.clips canvas.fps
    entryCount_eq := by
      show journal.steps.countP MergeStep.isFiller + c.layers.base.length = c.entries.length
      rw [hsteps, List.countP_append, hchained.countP_isFiller, Nat.add_zero]
      exact Entry.countP_isFiller_add c.layers.base c.timelineEnd canvas.fps
    mergeCount_eq := by
      show c.entries.length = journal.steps.countP _ + journal.steps.countP _ + 1
      rw [htransition, hsteps, List.countP_append, Entry.countP_step (fun _ ↦ rfl) fun _ _ ↦ rfl,
        Nat.zero_add, hchained.countP_add]
      exact hentries.length_eq hmerges
    steps_eq := hsteps
    isMerge := hchained.isMerge
    decisionCount_eq := EdgeDecision.countP_add c.layers.base canvas.fps
    transitionCount_eq := htransition.trans htransitions
    fallbackCount_le := by
      show journal.steps.countP MergeStep.isFallback ≤ c.decisions.countP EdgeDecision.isAccepted
      rw [← htransitions, ← htransition]
      exact List.countP_mono_left fun _ _ ↦ MergeStep.isTransition_of_isFallback
    chain := hchained.chain
    finalDuration_eq := by
      show journal.steps.getLast?.map MergeStep.result = some duration
      rw [hsteps]
      exact hentries.result_getLast? hchained hmerges.length_steps }

end Agreement

/-! ### Renders -/

namespace Studio

open RenderT (ends_bind_ok ends_pure)
open Session (adds_of_ends_record adds_of_ends_perform)

variable [Scalar α] {studio : Studio (StateM σ) α} {p q : Situation α σ} {project : Project α}
  {media : Manifest} {destination : Path} {settings : OutputSettings α} {options : RenderOptions}
  {report : RenderReport α}

/-- What is answered about the first video of a project, before the canvas is known: where its file
is, and what is known about that file. -/
def answers (studio : Studio (StateM σ) α) (project : Project α) (media : Manifest) (w : σ) :
    Option (Except Failure (Option (MediaInfo α))) :=
  project.firstVideo?.map fun video ↦
    let (answer, after) := (studio.storage.source media video.sourceId).run w
    answer.map fun path ↦ ((studio.inspect path).run after).1

/-- The canvas depends on nothing but these answers. -/
theorem canvas_eq (w : σ) : ((studio.canvas project media settings).run w).1 =
    (studio.answers project media w).elim (.ok (Canvas.resolve settings none))
      (Except.map fun info? ↦ Canvas.resolve settings
        (if settings.request.leavesOpen then info? else none)) := by
  have hresolve (look : StateM σ (Option (MediaInfo α))) (u : σ) :
      ((Canvas.resolveWith settings look).run u).1 = Canvas.resolve settings
        (if settings.request.leavesOpen then (look.run u).1 else none) := by
    rw [Canvas.resolveWith]
    split_ifs <;> rfl
  rw [answers, canvas]
  -- without a video nothing is looked at; a video that is not found is the failure of the canvas
  cases project.firstVideo? with
  | none =>
    refine congrArg Except.ok ((hresolve _ w).trans ?_)
    split_ifs <;> rfl
  | some video =>
    dsimp only [Option.map_some, Option.elim_some]
    rw [StateT.run_bind]
    generalize (studio.storage.source media video.sourceId).run w = found
    rcases found with ⟨e | path, after⟩
    · rfl
    · exact congrArg Except.ok (hresolve _ after)

/-- The trace that is left tells the journal as it is, and lies beside the result. -/
theorem eq_of_ends_leaveTrace {c : Composition α} {output : Path} {duration : α}
    {trace : Path × Trace α}
    (h : (studio.leaveTrace project c output duration).Ends p (.ok trace) q) :
    trace = (traceFile output, .of project c p.journal duration) := by
  obtain ⟨journal, t, hget, h⟩ := ends_bind_ok.1 h
  obtain ⟨_, u, hwrite, h⟩ := ends_bind_ok.1 h
  obtain ⟨hjournal, rfl⟩ := RenderT.ends_get.1 hget
  obtain rfl := Except.ok.inj hjournal
  exact Except.ok.inj (ends_pure.1 h).1

/-- The trace tells what happened up to the assembly. -/
theorem trace?_of_ends_deliver {c : Composition α} {rendered : RenderedFile α}
    (htrace : options.trace = true)
    (h : (studio.deliver project c destination options rendered).Ends p (.ok report) q) :
    report.trace? = some (traceFile report.output, .of project c p.journal rendered.duration) := by
  obtain ⟨_, p₁, hreach, h⟩ := ends_bind_ok.1 h
  obtain ⟨output, p₂, hpublish, h⟩ := ends_bind_ok.1 h
  obtain ⟨_, p₃, hrecord, h⟩ := ends_bind_ok.1 h
  rw [htrace] at h
  obtain ⟨trace?, p₄, hsome, h⟩ := ends_bind_ok.1 h
  rw [map_eq_pure_bind] at hsome
  obtain ⟨trace, p₅, hleave, hsome⟩ := ends_bind_ok.1 hsome
  obtain ⟨hgiven, rfl⟩ := ends_pure.1 hsome
  obtain rfl := Except.ok.inj hgiven
  obtain ⟨rfl, -⟩ := ends_complete h
  obtain rfl := eq_of_ends_leaveTrace hleave
  -- what is recorded meanwhile is no part of a trace
  have hadds : p.Adds [.reached .finalizing, .published output] p₃ :=
    (adds_of_ends_reach hreach).trans
      ((adds_of_ends_perform hpublish).trans (adds_of_ends_record hrecord))
  have hsteps : p₃.journal.steps = p.journal.steps := hadds.steps_eq.trans (List.append_nil _)
  have hskipped : p₃.journal.skippedAudio = p.journal.skippedAudio :=
    hadds.skippedAudio_eq.trans (List.append_nil _)
  rw [Trace.of, Trace.of, hsteps, hskipped]

variable [LawfulScalar α]

/-- A render that leaves a trace, and logged no step before, leaves one that agrees with its plan.
-/
theorem agrees_of_ends_renderPlanned {canvas : Canvas α} {workdir : Path}
    (htrace : options.trace = true) (hsteps : p.journal.steps = [])
    (h : (studio.renderPlanned project media (.ofProject project canvas) destination options
      workdir).Ends p (.ok report) q) :
    ∃ trace merges, report.trace? = some (traceFile report.output, trace) ∧
      trace.AgreesWith (.ofProject project canvas) merges := by
  rw [renderPlanned_eq, ends_bind_ok] at h
  obtain ⟨rendered, t, hassemble, hdeliver⟩ := h
  obtain ⟨first, rest, rendering, merging, hentries, hmerges, before, between, after, hbefore,
    hbetween, hafter, hadds⟩ := exists_runs_of_ends_assemble hassemble
  refine ⟨_, _, trace?_of_ends_deliver htrace hdeliver,
    Trace.agreesWith_of_runs hentries hmerges ?_⟩
  -- all that is no step falls away
  rw [hadds.steps_eq, hsteps, List.nil_append]
  simp only [List.filterMap_append, Event.filterMap_step?_of_quiet hbefore,
    Event.filterMap_step?_of_quiet hbetween, Event.filterMap_step?_of_quiet hafter,
    List.nil_append, List.append_nil]

/-- The trace of a successful render agrees with what any studio would have planned that has the
same answers about the first video. -/
theorem trace_agreesWith_plan {w : σ} (htrace : options.trace = true)
    (h : (studio.render project media destination settings options).Ends ⟨{}, w⟩ (.ok report) q) :
    ∃ trace c merges, report.trace? = some (traceFile report.output, trace) ∧
      trace.AgreesWith c merges ∧
      ∀ {τ : Type} (other : Studio (StateM τ) α) (v : τ),
        other.answers project media v = studio.answers project media (studio.beforeCanvas w) →
        ((other.plan project media settings).run v).1 = .ok c := by
  obtain ⟨_, p₁, hreach₁, h⟩ := ends_bind_ok.1 h
  obtain ⟨_, p₂, hcheck, h⟩ := ends_bind_ok.1 h
  obtain ⟨_, p₃, hreach₂, h⟩ := ends_bind_ok.1 h
  obtain ⟨canvas, p₄, hcanvas, h⟩ := ends_bind_ok.1 h
  obtain ⟨_, p₅, hreach₃, h⟩ := ends_bind_ok.1 h
  obtain ⟨workdir, t, u, hopen, hplanned, -⟩ := ends_inFreshDir h
  obtain ⟨-, rfl⟩ := ends_reach.1 hreach₁
  obtain ⟨hpassed, rfl⟩ := RenderT.ends_ofExcept.1 hcheck
  obtain ⟨-, rfl⟩ := ends_reach.1 hreach₂
  have hsteps := ((adds_of_ends_perform hcanvas).trans
    ((adds_of_ends_reach hreach₃).trans hopen)).steps_eq
  obtain ⟨hcanvas, -⟩ := RenderT.ends_perform.1 hcanvas
  obtain ⟨trace, merges, htrace, hagrees⟩ := agrees_of_ends_renderPlanned htrace hsteps hplanned
  refine ⟨trace, _, merges, htrace, hagrees, fun other v hanswers ↦ ?_⟩
  rw [plan, show project.check (settings.or project.outputSettings) = _ from hpassed.symm]
  show Except.map (Composition.ofProject project)
    ((other.canvas project media (settings.or project.outputSettings)).run v).1 = _
  rw [canvas_eq, hanswers, ← canvas_eq]
  exact congrArg (Except.map (Composition.ofProject project)) hcanvas.symm

/-- The sample, in which one wipe is done by the fallback, is traced. -/
theorem agreesWith_sample : ∃ report q,
    (Sample.studio.render (Sample.project : Project Exact) Sample.media ⟨"out.mp4"⟩ {}
      { trace := true }).Ends ⟨{}, ()⟩ (.ok report) q ∧
    ∃ trace c merges, report.trace? = some (traceFile report.output, trace) ∧
      trace.AgreesWith c merges ∧
      ((Sample.studio.plan (Sample.project : Project Exact) Sample.media {}).run ()).1 = .ok c := by
  have hends : ∃ report q,
      (Sample.studio.render (Sample.project : Project Exact) Sample.media ⟨"out.mp4"⟩ {}
        { trace := true }).Ends ⟨{}, ()⟩ (.ok report) q :=
    RenderT.exists_ends (by rw [Sample.outcome_render (by cbv)]; decide +kernel)
  obtain ⟨report, q, h⟩ := hends
  obtain ⟨trace, c, merges, htrace, hagrees, hplan⟩ := trace_agreesWith_plan rfl h
  exact ⟨report, q, h, trace, c, merges, htrace, hagrees, hplan Sample.studio () rfl⟩

end Studio

end Splice
