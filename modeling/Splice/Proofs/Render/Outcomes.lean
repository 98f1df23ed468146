import Splice.Proofs.Render.Decoration
import Splice.Render.Studio

/-!
# Outcomes

What a run adds to the journal, whether it succeeds or fails. A property of the added events, which
may depend on the failure with which the run ends, carries over from the parts of a computation to
the whole if it holds of no events, and of events that follow those of a success
(`RenderT.Additive`). The lemmas `leaves_…` walk through everything that a session does apart from
blends; they hold of every property that bears quiet events, and bears the failure of a job as the
last event (`RenderT.Bearing`).
-/

namespace Splice

variable {α σ β γ : Type}

/-! ### Actions on a world -/

/-- An action keeps an invariant of the world, and its result has a property. -/
def Upholds (I : σ → Prop) (Q : β → Prop) (action : StateM σ β) : Prop :=
  ∀ w, I w → Q (action.run w).1 ∧ I (action.run w).2

/-- An action keeps an invariant of the world. -/
def Preserves (I : σ → Prop) (action : StateM σ β) : Prop := ∀ w, I w → I (action.run w).2

/-- What two actions keep, their sequence keeps. -/
theorem Preserves.bind {I : σ → Prop} {action : StateM σ β} {f : β → StateM σ γ}
    (hx : Preserves I action) (hf : ∀ b, Preserves I (f b)) : Preserves I (action >>= f) :=
  fun w hw ↦ hf _ _ (hx w hw)

/-- An invariant alone says nothing about the result. -/
theorem Preserves.upholds {I : σ → Prop} {action : StateM σ β} (h : Preserves I action) :
    Upholds I (fun _ ↦ True) action :=
  fun w hw ↦ ⟨trivial, h w hw⟩

namespace Upholds

variable {I : σ → Prop} {Q : β → Prop} {action : StateM σ β}

theorem pure {b : β} (h : Q b) : Upholds I Q (Pure.pure b) := fun _ hw ↦ ⟨h, hw⟩

theorem mono {Q' : β → Prop} (h : Upholds I Q action) (himp : ∀ b, Q b → Q' b) :
    Upholds I Q' action :=
  fun w hw ↦ ⟨himp _ (h w hw).1, (h w hw).2⟩

end Upholds

/-! ### Added events -/

/-- Whether an event is the failure of a job. -/
def Event.isFailure : Event α → Bool
  | .ran _ failure? => failure?.isSome
  | _ => false

/-- Whether a failed job is given another try: a wipe that the engine could not render. -/
def Job.isRecoverable : Job α → Failure → Bool
  | .transition job, e => e.isEngine && job.style != .fallback
  | _, _ => false

namespace RenderT

/-- The failure that a result is. -/
def failureOf : Except Failure β → Option Failure
  | .ok _ => none
  | .error e => some e

/-- However it ends, a run adds events to the journal that have a property. -/
def Leaves (P : Option Failure → List (Event α) → Prop) (x : RenderT α (StateM σ) β) : Prop :=
  ∀ p r q, x.Ends p r q → ∃ events, p.Adds events q ∧ P (failureOf r) events

/-- A property of events that goes on after a success. -/
structure Additive (P : Option Failure → List (Event α) → Prop) : Prop where
  nil : ∀ failure?, P failure? []
  append : ∀ {a b failure?}, P none a → P failure? b → P failure? (a ++ b)

/-- A property of events that bears all but blends and merges. -/
structure Bearing (P : Option Failure → List (Event α) → Prop) : Prop extends Additive P where
  quiet : ∀ e : Event α, e.isQuiet = true → e.isFailure = false → P none [e]
  failed : ∀ (job : Job α) (e : Failure), job.isRecoverable e = false →
    P (some e) [.ran job (some e)]

namespace Leaves

variable {P : Option Failure → List (Event α) → Prop}

/-- What adds nothing to the journal has every additive property. -/
theorem of_adds_nil (hP : Additive P) {x : RenderT α (StateM σ) β}
    (h : ∀ p r q, x.Ends p r q → p.Adds [] q) : x.Leaves P := by
  -- nothing is added, so it does not matter how the run ends
  intro p r q hx
  exact ⟨[], h p r q hx, hP.nil _⟩

theorem pure (hP : Additive P) (b : β) : (Pure.pure b : RenderT α (StateM σ) β).Leaves P := by
  refine of_adds_nil hP fun p r q h ↦ ?_
  obtain ⟨-, rfl⟩ := ends_pure.1 h
  exact .refl _

theorem throw (hP : Additive P) (e : Failure) :
    (MonadExcept.throw e : RenderT α (StateM σ) β).Leaves P := by
  refine of_adds_nil hP fun p r q h ↦ ?_
  obtain ⟨-, rfl⟩ := ends_throw.1 h
  exact .refl _

/-- A failure ends a sequence before it adds anything. -/
theorem throw_bind (hP : Additive P) (e : Failure) (f : β → RenderT α (StateM σ) γ) :
    (MonadExcept.throw e >>= f).Leaves P := by
  refine of_adds_nil hP fun p r q h ↦ ?_
  obtain ⟨-, rfl⟩ := ends_throw_bind.1 h
  exact .refl _

theorem get (hP : Additive P) : (MonadState.get : RenderT α (StateM σ) (Journal α)).Leaves P := by
  refine of_adds_nil hP fun p r q h ↦ ?_
  obtain ⟨-, rfl⟩ := ends_get.1 h
  exact .refl _

theorem ofExcept (hP : Additive P) (x : Except Failure β) :
    (MonadExcept.ofExcept x : RenderT α (StateM σ) β).Leaves P := by
  refine of_adds_nil hP fun p r q h ↦ ?_
  obtain ⟨-, rfl⟩ := ends_ofExcept.1 h
  exact .refl _

/-- Only the session writes the journal: an action on the world adds nothing to it. -/
theorem observe (hP : Additive P) (action : StateM σ β) :
    (RenderT.observe action : RenderT α (StateM σ) β).Leaves P :=
  of_adds_nil hP fun _ _ _ ↦ Session.adds_of_ends_observe

/-- An action that may fail adds nothing either, so the property has to hold of no events even then.
-/
theorem perform (hP : Additive P) (action : StateM σ (Except Failure β)) :
    (RenderT.perform action : RenderT α (StateM σ) β).Leaves P :=
  of_adds_nil hP fun _ _ _ ↦ Session.adds_of_ends_perform

/-- One recorded event, when the property holds of it in a run that goes on. -/
theorem record {event : Event α} (h : P none [event]) :
    (RenderT.record event : RenderT α (StateM σ) Unit).Leaves P := by
  intro p r q hrecord
  obtain ⟨rfl, -⟩ := Session.ends_record.1 hrecord
  exact ⟨[event], Session.adds_of_ends_record hrecord, h⟩

/-- A sequence, when the properties of its parts add up to one of the whole. The second part may
rely on how the first one ended. -/
theorem bind_into {Q R : Option Failure → List (Event α) → Prop} {x : RenderT α (StateM σ) β}
    {f : β → RenderT α (StateM σ) γ}
    (happend : ∀ {a b failure?}, P none a → Q failure? b → R failure? (a ++ b))
    (hfail : ∀ {e a}, P (some e) a → R (some e) a) (hx : x.Leaves P)
    (hf : ∀ p b t, x.Ends p (.ok b) t → (f b).Leaves Q) : (x >>= f).Leaves R := by
  intro p r q h
  rcases ends_bind.1 h with ⟨b, s, hb, hrest⟩ | ⟨e, he, rfl⟩
  · obtain ⟨first, hfirst, hPfirst⟩ := hx p _ s hb
    obtain ⟨rest, hadds, hQrest⟩ := hf p b s hb s r q hrest
    exact ⟨first ++ rest, hfirst.trans hadds, happend hPfirst hQrest⟩
  · obtain ⟨events, hadds, hevents⟩ := hx p _ q he
    exact ⟨events, hadds, hfail hevents⟩

/-- A sequence, where the second part may rely on what the first one gave. -/
theorem bind_of_ends (hP : Additive P) {x : RenderT α (StateM σ) β}
    {f : β → RenderT α (StateM σ) γ} (hx : x.Leaves P)
    (hf : ∀ p b t, x.Ends p (.ok b) t → (f b).Leaves P) : (x >>= f).Leaves P :=
  bind_into hP.append id hx hf

/-- A sequence has a property of both its parts. -/
theorem bind (hP : Additive P) {x : RenderT α (StateM σ) β} {f : β → RenderT α (StateM σ) γ}
    (hx : x.Leaves P) (hf : ∀ b, (f b).Leaves P) : (x >>= f).Leaves P :=
  hx.bind_of_ends hP fun _ b _ _ ↦ hf b

theorem map (hP : Additive P) {x : RenderT α (StateM σ) β} (f : β → γ) (hx : x.Leaves P) :
    (f <$> x).Leaves P := by
  rw [map_eq_pure_bind]
  exact hx.bind hP fun b ↦ pure hP (f b)

/-- A list is mapped one element after another, so the events of the elements stand one after
another too. -/
theorem mapM_of_mem (hP : Additive P) {f : β → RenderT α (StateM σ) γ} {bs : List β}
    (hf : ∀ b ∈ bs, (f b).Leaves P) : (bs.mapM f).Leaves P := by
  -- the invariant is that every prefix of the list has the property
  induction bs with
  | nil => exact pure hP []
  | cons b rest ih =>
    obtain ⟨hb, hrest⟩ := List.forall_mem_cons.1 hf
    rw [List.mapM_cons]
    exact hb.bind hP fun _ ↦ (ih hrest).bind hP fun _ ↦ pure hP _

/-- A fold that keeps an invariant of what it has so far. -/
theorem foldlM_of_ends (hP : Additive P) {I : β → Prop} {f : β → γ → RenderT α (StateM σ) β}
    {cs : List γ} (hf : ∀ b, I b → ∀ c ∈ cs, (f b c).Leaves P)
    (hI : ∀ b, I b → ∀ c ∈ cs, ∀ p b' q, (f b c).Ends p (.ok b') q → I b') {b : β} (hb : I b) :
    (cs.foldlM f b).Leaves P := by
  induction cs generalizing b with
  | nil => exact pure hP b
  | cons c rest ih =>
    rw [List.foldlM_cons]
    refine (hf b hb c List.mem_cons_self).bind_of_ends hP fun p b' q hends ↦ ?_
    exact ih (fun b hb c hc ↦ hf b hb c (List.mem_cons_of_mem _ hc))
      (fun b hb c hc ↦ hI b hb c (List.mem_cons_of_mem _ hc))
      (hI b hb c List.mem_cons_self p b' q hends)

/-- A fold in which every step has the property. -/
theorem foldlM (hP : Additive P) {f : β → γ → RenderT α (StateM σ) β}
    (hf : ∀ b c, (f b c).Leaves P) (b : β) (cs : List γ) : (cs.foldlM f b).Leaves P :=
  foldlM_of_ends hP (I := fun _ ↦ True) (fun b _ c _ ↦ hf b c) (fun _ _ _ _ _ _ _ _ ↦ trivial)
    trivial

end Leaves

end RenderT

namespace Session

open RenderT (Additive Bearing Leaves ends_bind_of_ok ends_bind_ok failureOf)

variable {P : Option Failure → List (Event α) → Prop} {s : Session (StateM σ) α}
  {p q : Situation α σ}

/-- A job that is given to the engine is in the journal with the engine's answer, and never ends the
run by itself. -/
theorem ends_attempt {job : Job α} {r : Except Failure (Option Failure)} :
    (s.attempt job).Ends p r q ↔
      r = .ok (failureOf ((s.engine.run job).run p.world).1) ∧
      q = ⟨{ p.journal with events := p.journal.events ++
          [.ran job (failureOf ((s.engine.run job).run p.world).1)] },
        ((s.engine.run job).run p.world).2⟩ := by
  refine RenderT.ends_of_outcome_eq (show (s.attempt job).Ends p (.ok _) _ from ?_)
  rw [attempt]
  refine ends_bind_ok.2 ⟨_, _, RenderT.ends_observe.2 ⟨rfl, rfl⟩, ?_⟩
  cases ((s.engine.run job).run p.world).1 with
  | ok _ =>
    exact ends_bind_ok.2 ⟨_, _, RenderT.ends_pure.2 ⟨rfl, rfl⟩,
      ends_bind_ok.2 ⟨_, _, ends_record.2 ⟨rfl, rfl⟩, RenderT.ends_pure.2 ⟨rfl, rfl⟩⟩⟩
  | error e =>
    exact ends_bind_ok.2 ⟨_, _, RenderT.ends_pure.2 ⟨rfl, rfl⟩,
      ends_bind_ok.2 ⟨_, _, ends_record.2 ⟨rfl, rfl⟩, RenderT.ends_pure.2 ⟨rfl, rfl⟩⟩⟩

/-- Every job has an answer, and takes no number for a file. -/
theorem exists_ends_attempt (s : Session (StateM σ) α) (p : Situation α σ) (job : Job α) :
    ∃ failure? t, (s.attempt job).Ends p (.ok failure?) t ∧ p.Adds [.ran job failure?] t ∧
      t.journal.freshCount = p.journal.freshCount :=
  ⟨_, _, ends_attempt.2 ⟨rfl, rfl⟩, rfl, rfl⟩

/-- A job that has to succeed: the run goes on with its output, or ends with the failure of the
engine. Either way the job is in the journal. -/
theorem cases_of_ends_run {job : Job α} {r : Except Failure Path} (h : (s.run job).Ends p r q) :
    (r = .ok job.output ∧ p.Adds [.ran job none] q) ∨
      ∃ e, r = .error e ∧ p.Adds [.ran job (some e)] q := by
  obtain ⟨failure?, t, hattempt, hadds, -⟩ := exists_ends_attempt s p job
  rw [run, ends_bind_of_ok hattempt] at h
  cases failure? with
  | none =>
    obtain ⟨rfl, rfl⟩ := RenderT.ends_pure.1 h
    exact .inl ⟨rfl, hadds⟩
  | some e =>
    obtain ⟨rfl, rfl⟩ := RenderT.ends_throw.1 h
    exact .inr ⟨e, rfl, hadds⟩

/-- A job that has to succeed adds itself alone; the two hypotheses are its two outcomes. -/
theorem leaves_run {job : Job α} (hok : P none [.ran job none])
    (hfailed : ∀ e, P (some e) [.ran job (some e)]) : (s.run job).Leaves P := by
  intro p r q h
  rcases cases_of_ends_run h with ⟨rfl, hadds⟩ | ⟨e, rfl, hadds⟩
  · exact ⟨_, hadds, hok⟩
  · exact ⟨_, hadds, hfailed e⟩

/-- To take a number for a file is no event. -/
theorem leaves_freshPath (hP : Additive P) (label extension : String) :
    (s.freshPath label extension).Leaves P :=
  .of_adds_nil hP fun _ _ _ ↦ adds_of_ends_freshPath

/-- A file that cannot be looked at counts as unknown, and the run goes on. -/
theorem leaves_inspect (hP : Additive P) (path : Path) : (s.inspect path).Leaves P := by
  refine (Leaves.observe hP _).bind hP fun answer ↦ ?_
  cases answer with
  | ok info => exact .pure hP _
  | error e => exact .pure hP _

theorem leaves_hasAudio (hP : Additive P) (path : Path) : (s.hasAudio path).Leaves P :=
  (leaves_inspect hP path).bind hP fun _ ↦ .pure hP _

theorem leaves_source (hP : Additive P) (id : String) : (s.source id).Leaves P :=
  .perform hP _

theorem leaves_asset (hP : Additive P) (id : String) : (s.asset id).Leaves P :=
  .perform hP _

/-! ### Segments -/

/-- A job that blends nothing. -/
theorem leaves_run_quiet (hP : Bearing P) {job : Job α}
    (hquiet : (Event.ran job none).isQuiet = true) :
    (s.run job).Leaves P := by
  refine leaves_run (hP.quiet _ hquiet rfl) fun e ↦ hP.failed job e ?_
  cases job with
  | transition => cases hquiet
  | _ => rfl

/-- A filler is one blank job. -/
theorem leaves_renderFiller (hP : Bearing P) (filler : Filler α) :
    (s.renderFiller filler).Leaves P :=
  (leaves_freshPath hP.toAdditive _ _).bind hP.toAdditive fun _ ↦
    (leaves_run_quiet hP rfl).bind hP.toAdditive fun _ ↦ .pure hP.toAdditive _

/-- A drawn picture is in the journal only after the host has written it. -/
theorem leaves_drawInto (hP : Bearing P) (path : Path) (picture : Picture) :
    (s.drawInto path picture).Leaves P :=
  (Leaves.perform hP.toAdditive _).bind hP.toAdditive fun _ ↦ .record (hP.quiet _ rfl rfl)

section Scalar

variable [Scalar α]

/-- The source is looked at only where there is something to crop. -/
theorem leaves_cropOf (hP : Additive P) (look : Look α) (path : Path) :
    (s.cropOf look path).Leaves P := by
  rw [cropOf]
  cases look.crop? with
  | none => exact .pure hP _
  | some box => exact (leaves_inspect hP path).bind hP fun _ ↦ .pure hP _

/-- A segment: the source is looked at for its sound and its size, then there is one job. -/
theorem leaves_makeSegment (hP : Bearing P) (clip : Clip α) (media : MediaClip α) (path : Path)
    (blended : BlendedEdges) : (s.makeSegment clip media path blended).Leaves P := by
  refine (leaves_freshPath hP.toAdditive _ _).bind hP.toAdditive fun output ↦ ?_
  refine Leaves.bind hP.toAdditive ?_ fun job ↦
    (leaves_run_quiet hP rfl).bind hP.toAdditive fun _ ↦ .pure hP.toAdditive _
  exact (leaves_hasAudio hP.toAdditive path).bind hP.toAdditive fun _ ↦
    (leaves_cropOf hP.toAdditive _ path).bind hP.toAdditive fun _ ↦ .pure hP.toAdditive _

/-! ### Sounds -/

/-- A sound: a source without sound is refused before any job. -/
theorem leaves_mixSound (hP : Bearing P) (base : RenderedFile α) (path : Path) (time : α)
    (label : String) : (s.mixSound base path time label).Leaves P := by
  refine (leaves_hasAudio hP.toAdditive path).bind hP.toAdditive fun hasAudio ↦ ?_
  -- the two cases part here since the refusal comes before the name of the output is given out
  cases hasAudio with
  | false => exact .throw_bind hP.toAdditive _ _
  | true =>
    exact (leaves_hasAudio hP.toAdditive _).bind hP.toAdditive fun _ ↦
      (leaves_freshPath hP.toAdditive _ _).bind hP.toAdditive fun _ ↦
        (leaves_run_quiet hP rfl).bind hP.toAdditive fun _ ↦ .pure hP.toAdditive _

/-- A sound of the timeline is cut out of its source and then mixed in, in two jobs. -/
theorem leaves_mixClip (hP : Bearing P) (base : RenderedFile α) (clip : Clip α)
    (audio : AudioClip α) : (s.mixClip base clip audio).Leaves P :=
  (leaves_asset hP.toAdditive _).bind hP.toAdditive fun _ ↦
    (leaves_freshPath hP.toAdditive _ _).bind hP.toAdditive fun _ ↦
      (leaves_run_quiet hP rfl).bind hP.toAdditive fun _ ↦ leaves_mixSound hP _ _ _ _

/-- A sound whose source is a video is left out with an event, and content of another kind adds
nothing. -/
theorem leaves_addSound (hP : Bearing P) (base : RenderedFile α) (clip : Clip α) :
    (s.addSound base clip).Leaves P := by
  rw [addSound]
  split
  · split_ifs
    · exact (Leaves.record (hP.quiet _ rfl rfl)).bind hP.toAdditive fun _ ↦ .pure hP.toAdditive _
    · exact .pure hP.toAdditive _
    · exact leaves_mixClip hP _ _ _
  · exact .pure hP.toAdditive _

theorem leaves_addSounds (hP : Bearing P) (base : RenderedFile α) (clips : List (Clip α)) :
    (s.addSounds base clips).Leaves P :=
  .foldlM hP.toAdditive (leaves_addSound hP) base clips

/-! ### Overlays -/

omit [Scalar α] in
/-- The job that paints a clip is made without being run. -/
theorem leaves_paintJob (hP : Additive P) (clip : Clip α) (base : RenderedFile α)
    (source : Job.OverlayPicture) (placement : Placement α) (stop : α) (mode : FitMode)
    (rotation : α) : (s.paintJob clip base source placement stop mode rotation).Leaves P :=
  (leaves_freshPath hP _ _).bind hP fun _ ↦ .pure hP _

/-- An overlaid video: its own segment, the job that paints it, and the sound of the segment. -/
theorem leaves_paintVideo (hP : Bearing P) (base : RenderedFile α) (clip : Clip α)
    (media : MediaClip α) : (s.paintVideo base clip media).Leaves P := by
  refine (leaves_source hP.toAdditive _).bind hP.toAdditive fun _ ↦
    (leaves_makeSegment hP _ _ _ _).bind hP.toAdditive fun segment ↦
      (leaves_paintJob hP.toAdditive _ _ _ _ _ _ _).bind hP.toAdditive fun _ ↦
        (leaves_run_quiet hP rfl).bind hP.toAdditive fun painted ↦ ?_
  -- the segment carries the sound of the clip, which is mixed in unless it is turned off
  dsimp only
  split_ifs
  · exact leaves_mixSound hP _ _ _ _
  · exact .pure hP.toAdditive _

theorem leaves_paintPicture (hP : Bearing P) (base : RenderedFile α) (clip : Clip α)
    (media : MediaClip α) : (s.paintPicture base clip media).Leaves P :=
  (leaves_asset hP.toAdditive _).bind hP.toAdditive fun _ ↦
    (leaves_paintJob hP.toAdditive _ _ _ _ _ _ _).bind hP.toAdditive fun _ ↦
      (leaves_run_quiet hP rfl).bind hP.toAdditive fun _ ↦ .pure hP.toAdditive _

/-- An overlaid text takes one job and no source. -/
theorem leaves_paintText (hP : Bearing P) (base : RenderedFile α) (clip : Clip α)
    (text : TextClip α) : (s.paintText base clip text).Leaves P :=
  (leaves_freshPath hP.toAdditive _ _).bind hP.toAdditive fun _ ↦
    (leaves_run_quiet hP rfl).bind hP.toAdditive fun _ ↦ .pure hP.toAdditive _

/-- An overlaid shape is drawn first, and the drawing is painted like a picture. -/
theorem leaves_paintShape (hP : Bearing P) (base : RenderedFile α) (clip : Clip α)
    (shape : ShapeClip α) : (s.paintShape base clip shape).Leaves P :=
  (leaves_freshPath hP.toAdditive _ _).bind hP.toAdditive fun _ ↦
    (leaves_drawInto hP _ _).bind hP.toAdditive fun _ ↦
      (leaves_paintJob hP.toAdditive _ _ _ _ _ _ _).bind hP.toAdditive fun _ ↦
        (leaves_run_quiet hP rfl).bind hP.toAdditive fun _ ↦ .pure hP.toAdditive _

/-- One overlay of any kind; a sound has nothing to paint. -/
theorem leaves_addOverlay (hP : Bearing P) (base : RenderedFile α) (clip : Clip α) :
    (s.addOverlay base clip).Leaves P := by
  rw [addOverlay]
  split
  · exact leaves_paintVideo hP _ _ _
  · exact leaves_paintPicture hP _ _ _
  · exact leaves_paintText hP _ _ _
  · exact leaves_paintShape hP _ _ _
  · exact .pure hP.toAdditive _

theorem leaves_addOverlays (hP : Bearing P) (base : RenderedFile α) (clips : List (Clip α)) :
    (s.addOverlays base clips).Leaves P :=
  .foldlM hP.toAdditive (leaves_addOverlay hP) base clips

end Scalar

end Session

/-! ### Studios -/

namespace Studio

open RenderT (Additive Bearing Leaves)

variable {P : Option Failure → List (Event α) → Prop} {studio : Studio (StateM σ) α}
  {p q : Situation α σ}

/-- A stage is reported to the outside, and then it is in the journal. -/
theorem leaves_reach (hP : Bearing P) (stage : Stage) :
    (studio.reach stage : RenderT α (StateM σ) Unit).Leaves P :=
  (Leaves.observe hP.toAdditive _).bind hP.toAdditive fun _ ↦ .record (hP.quiet _ rfl rfl)

/-- The trace is written from the journal, and not into it. -/
theorem leaves_leaveTrace [Scalar α] (hP : Additive P) (project : Project α) (c : Composition α)
    (output : Path) (duration : α) :
    (studio.leaveTrace project c output duration).Leaves P :=
  (Leaves.get hP).bind hP fun _ ↦ (Leaves.perform hP _).bind hP fun _ ↦ .pure hP _

/-- The events of a run in a fresh directory are those of what runs there. -/
theorem leaves_inFreshDir (hnil : ∀ e, P (some e) []) {root? : Option Path}
    {body : Path → RenderT α (StateM σ) β} (hbody : ∀ dir, (body dir).Leaves P) :
    (studio.inFreshDir root? body).Leaves P := by
  intro p r q h
  rcases cases_of_ends_inFreshDir h with ⟨e, rfl, hopen⟩ | ⟨dir, t, u, hopen, hrun, hclose⟩
  · exact ⟨[], Session.adds_of_ends_perform hopen, hnil e⟩
  · obtain ⟨events, hadds, hevents⟩ := hbody dir t r u hrun
    refine ⟨events, ?_, hevents⟩
    have hall := (Session.adds_of_ends_perform hopen).trans
      (hadds.trans (Session.adds_of_ends_observe hclose))
    rwa [List.nil_append, List.append_nil] at hall

end Studio

end Splice
