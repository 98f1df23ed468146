import Splice.Render.Studio

/-!
# Runs

A render runs in a monad, and everything outside of the session (the engine, the storage, the files)
may answer as it likes. Here it runs against a world of an arbitrary type whose every answer may
depend on, and change, that world. A run starts and ends in a `Situation`, the journal together with
the world, and `RenderT.Ends` says with which result.

The lemmas `ends_…` invert a run of each way to build a computation. The lemmas of a session say
what its operations add to the journal; nothing else about a session is used in the modules after
this one. What a studio runs in a fresh directory is inverted here too
(`Studio.cases_of_ends_inFreshDir`), for successes and failures alike.
-/

namespace Splice

/-- Where a run stands: the journal, and the world outside of the session. -/
structure Situation (α σ : Type) where
  journal : Journal α
  world : σ

variable {α σ β γ : Type}

/-- The step in the assembly of the base sequence that an event is. -/
def Event.step? : Event α → Option (MergeStep α)
  | .merged step => some step
  | _ => none

/-- The job that was given to the engine. -/
def Event.job? : Event α → Option (Job α)
  | .ran job _ => some job
  | _ => none

/-- The sound that was left out. -/
def Event.leftOut? : Event α → Option SkippedAudio
  | .skipped audio => some audio
  | _ => none

/-- The stage that was reached. -/
def Event.stage? : Event α → Option Stage
  | .reached stage => some stage
  | _ => none

/-- The events are all that was added to the journal. -/
def Situation.Adds (p : Situation α σ) (events : List (Event α)) (q : Situation α σ) : Prop :=
  q.journal.events = p.journal.events ++ events

namespace Situation.Adds

variable {p q r : Situation α σ} {a b : List (Event α)}

theorem refl (p : Situation α σ) : p.Adds [] p := (List.append_nil _).symm

/-- What is added in two steps stands in the order of the steps. -/
theorem trans (hpq : p.Adds a q) (hqr : q.Adds b r) : p.Adds (a ++ b) r := by
  rw [Adds, hqr, hpq, List.append_assoc]

/-- The steps of the assembly are those that were there, and those among the added events. -/
theorem steps_eq (h : p.Adds a q) :
    q.journal.steps = p.journal.steps ++ a.filterMap Event.step? := by
  rw [Journal.steps, h, List.filterMap_append]
  rfl

theorem jobs_eq (h : p.Adds a q) :
    q.journal.jobs = p.journal.jobs ++ a.filterMap Event.job? := by
  rw [Journal.jobs, h, List.filterMap_append]
  rfl

theorem skippedAudio_eq (h : p.Adds a q) :
    q.journal.skippedAudio = p.journal.skippedAudio ++ a.filterMap Event.leftOut? := by
  rw [Journal.skippedAudio, h, List.filterMap_append]
  rfl

theorem stages_eq (h : p.Adds a q) :
    q.journal.stages = p.journal.stages ++ a.filterMap Event.stage? := by
  rw [Journal.stages, h, List.filterMap_append]
  rfl

end Situation.Adds

namespace RenderT

/-! ### Inversion -/

/-- The result and the situation in which a run ends. -/
def outcome (x : RenderT α (StateM σ) β) (p : Situation α σ) :
    Except Failure β × Situation α σ :=
  let final := (x.run.run p.journal).run p.world
  (final.1.1, ⟨final.1.2, final.2⟩)

/-- A run from a situation ends with a result in another one. -/
def Ends (x : RenderT α (StateM σ) β) (p : Situation α σ) (r : Except Failure β)
    (q : Situation α σ) : Prop :=
  x.outcome p = (r, q)

variable {p q : Situation α σ} {r : Except Failure β}

/-- A computation whose outcome is known ends in that and in nothing else. All inversions of a
single operation are cases of this. -/
theorem ends_of_outcome_eq {x : RenderT α (StateM σ) β} {r' : Except Failure β}
    {q' : Situation α σ} (h : x.outcome p = (r', q')) : x.Ends p r q ↔ r = r' ∧ q = q' := by
  rw [Ends, h, Prod.mk.injEq, eq_comm, @eq_comm _ q']

/-- A run that can be seen to succeed has a value and a situation. -/
theorem exists_ends {x : RenderT α (StateM σ) β} (h : (x.outcome p).1.isOk = true) :
    ∃ b s, x.Ends p (.ok b) s := by
  -- the result has to be taken apart before its situation has a name
  rcases hx : x.outcome p with ⟨e | b, s⟩
  · rw [hx] at h
    cases h
  · exact ⟨b, s, hx⟩

@[simp] theorem ends_pure {b : β} :
    (pure b : RenderT α (StateM σ) β).Ends p r q ↔ r = .ok b ∧ q = p :=
  ends_of_outcome_eq rfl

@[simp] theorem ends_throw {e : Failure} :
    (throw e : RenderT α (StateM σ) β).Ends p r q ↔ r = .error e ∧ q = p :=
  ends_of_outcome_eq rfl

theorem not_ends_throw {e : Failure} {b : β} :
    ¬ (throw e : RenderT α (StateM σ) β).Ends p (.ok b) q := by
  rw [ends_throw]
  rintro ⟨hresult, -⟩
  cases hresult

@[simp] theorem ends_get {r : Except Failure (Journal α)} :
    (get : RenderT α (StateM σ) (Journal α)).Ends p r q ↔ r = .ok p.journal ∧ q = p :=
  ends_of_outcome_eq rfl

@[simp] theorem ends_modify {f : Journal α → Journal α} {r : Except Failure PUnit} :
    (modify f : RenderT α (StateM σ) PUnit).Ends p r q ↔
      r = .ok ⟨⟩ ∧ q = ⟨f p.journal, p.world⟩ :=
  ends_of_outcome_eq rfl

@[simp] theorem ends_observe {action : StateM σ β} :
    (observe action : RenderT α (StateM σ) β).Ends p r q ↔
      r = .ok (action.run p.world).1 ∧ q = ⟨p.journal, (action.run p.world).2⟩ :=
  ends_of_outcome_eq rfl

@[simp] theorem ends_perform {action : StateM σ (Except Failure β)} :
    (perform action : RenderT α (StateM σ) β).Ends p r q ↔
      r = (action.run p.world).1 ∧ q = ⟨p.journal, (action.run p.world).2⟩ :=
  ends_of_outcome_eq rfl

@[simp] theorem ends_ofExcept {x : Except Failure β} :
    (MonadExcept.ofExcept x : RenderT α (StateM σ) β).Ends p r q ↔ r = x ∧ q = p := by
  cases x with
  | ok b => exact ends_pure
  | error e => exact ends_throw

/-- A run whose failure is kept as a result. -/
theorem ends_lift_run {x : RenderT α (StateM σ) β} {r : Except Failure (Except Failure β)} :
    Ends (ExceptT.lift x.run) p r q ↔ ∃ r', x.Ends p r' q ∧ r = .ok r' := by
  rw [ends_of_outcome_eq (show _ = (.ok (x.outcome p).1, (x.outcome p).2) from rfl)]
  constructor
  · rintro ⟨rfl, rfl⟩
    exact ⟨(x.outcome p).1, rfl, rfl⟩
  · rintro ⟨r', hx, rfl⟩
    rw [show x.outcome p = (r', q) from hx]
    exact ⟨rfl, rfl⟩

/-- The outcome of a sequence is that of its second part from where the first one succeeds, or else
the failure of the first. -/
theorem outcome_bind (x : RenderT α (StateM σ) β) (f : β → RenderT α (StateM σ) γ)
    (p : Situation α σ) : (x >>= f).outcome p =
      match x.outcome p with
      | (.ok b, s) => (f b).outcome s
      | (.error e, s) => (.error e, s) := by
  have hrun : ((x >>= f).run.run p.journal).run p.world =
      match (x.run.run p.journal).run p.world with
      | ((.ok b, j), w) => ((f b).run.run j).run w
      | ((.error e, j), w) => ((.error e, j), w) := by
    rw [ExceptT.run_bind, StateT.run_bind, StateT.run_bind]
    generalize (x.run.run p.journal).run p.world = final
    rcases final with ⟨⟨e | b, j⟩, w⟩ <;> rfl
  rw [outcome, hrun, outcome]
  rcases (x.run.run p.journal).run p.world with ⟨⟨e | b, j⟩, w⟩ <;> rfl

/-- A sequence ends as its second part does, unless the first one fails. -/
theorem ends_bind {x : RenderT α (StateM σ) β} {f : β → RenderT α (StateM σ) γ}
    {r : Except Failure γ} :
    (x >>= f).Ends p r q ↔
      (∃ b s, x.Ends p (.ok b) s ∧ (f b).Ends s r q) ∨
        ∃ e, x.Ends p (.error e) q ∧ r = .error e := by
  rw [Ends, outcome_bind]
  constructor
  · intro h
    rcases hx : x.outcome p with ⟨e | b, s⟩
    · rw [hx] at h
      obtain ⟨rfl, rfl⟩ := Prod.mk.inj h
      exact .inr ⟨e, hx, rfl⟩
    · rw [hx] at h
      exact .inl ⟨b, s, hx, h⟩
  · rintro (⟨b, s, hx, hf⟩ | ⟨e, hx, rfl⟩)
    · rw [show x.outcome p = _ from hx]
      exact hf
    · rw [show x.outcome p = _ from hx]

/-- Nothing comes after a failure. -/
@[simp] theorem ends_throw_bind {e : Failure} {f : β → RenderT α (StateM σ) γ}
    {r : Except Failure γ} :
    (throw e >>= f : RenderT α (StateM σ) γ).Ends p r q ↔ r = .error e ∧ q = p :=
  ends_of_outcome_eq rfl

/-- A sequence goes on from where its first part succeeds. -/
theorem outcome_bind_of_ends {x : RenderT α (StateM σ) β} {f : β → RenderT α (StateM σ) γ} {b : β}
    {t : Situation α σ} (hx : x.Ends p (.ok b) t) : (x >>= f).outcome p = (f b).outcome t := by
  rw [outcome_bind, show x.outcome p = _ from hx]

/-- Once its first part is known to succeed, a sequence is its second part. -/
theorem ends_bind_of_ok {x : RenderT α (StateM σ) β} {f : β → RenderT α (StateM σ) γ} {b : β}
    {t : Situation α σ} {r : Except Failure γ} (hx : x.Ends p (.ok b) t) :
    (x >>= f).Ends p r q ↔ (f b).Ends t r q := by
  rw [Ends, outcome_bind_of_ends hx]
  rfl

/-- A sequence succeeds if its parts do, one after the other. -/
theorem ends_bind_ok {x : RenderT α (StateM σ) β} {f : β → RenderT α (StateM σ) γ} {c : γ} :
    (x >>= f).Ends p (.ok c) q ↔ ∃ b s, x.Ends p (.ok b) s ∧ (f b).Ends s (.ok c) q := by
  rw [ends_bind, or_iff_left]
  exact fun ⟨e, _, h⟩ ↦ nomatch h

/-- A list is mapped element after element. -/
theorem ends_mapM_cons_ok {δ : Type} {f : γ → RenderT α (StateM σ) δ} {c : γ} {rest : List γ}
    {ds : List δ} :
    ((c :: rest).mapM f).Ends p (.ok ds) q ↔
      ∃ d s, (f c).Ends p (.ok d) s ∧ ∃ ds', (rest.mapM f).Ends s (.ok ds') q ∧ ds = d :: ds' := by
  rw [List.mapM_cons, ends_bind_ok]
  simp only [ends_bind_ok, ends_pure, Except.ok.injEq]
  constructor
  · rintro ⟨d, s, hd, ds', t, hds, rfl, rfl⟩
    exact ⟨d, s, hd, ds', hds, rfl⟩
  · rintro ⟨d, s, hd, ds', hds, rfl⟩
    exact ⟨d, s, hd, ds', q, hds, rfl, rfl⟩

end RenderT

/-! ### Operations of a session -/

/-- A job that renders what a video clip of some duration plays, as the clip says, with no fades at
the blended edges. -/
structure Job.Segment.Plays [Scalar α] (job : Job.Segment α) (media : MediaClip α) (duration : α)
    (blended : BlendedEdges) : Prop where
  seek_eq : job.seek = (media.excerpt duration).start
  sourceDuration_eq : job.sourceDuration = (media.excerpt duration).sourceDuration
  outputDuration_eq : job.outputDuration = (media.excerpt duration).outputDuration
  rotation_eq : job.rotation = media.look.rotation
  fades_eq : job.fades = Session.fadesOf media.look.effects blended

namespace Session

open RenderT (ends_bind_ok observe perform record)

variable {s : Session (StateM σ) α} {p q : Situation α σ} {path : Path}

/-- An event goes to the end of the journal, and the world stays as it is. -/
theorem ends_record {event : Event α} {r : Except Failure Unit} :
    (record event : RenderT α (StateM σ) Unit).Ends p r q ↔
      r = .ok () ∧ q = ⟨{ p.journal with events := p.journal.events ++ [event] }, p.world⟩ :=
  RenderT.ends_modify

theorem adds_of_ends_record {event : Event α} {r : Except Failure Unit}
    (h : (record event : RenderT α (StateM σ) Unit).Ends p r q) : p.Adds [event] q := by
  obtain ⟨-, rfl⟩ := ends_record.1 h
  rfl

theorem adds_of_ends_observe {action : StateM σ β} {r : Except Failure β}
    (h : (observe action : RenderT α (StateM σ) β).Ends p r q) : p.Adds [] q := by
  obtain ⟨-, rfl⟩ := RenderT.ends_observe.1 h
  exact .refl _

theorem adds_of_ends_perform {action : StateM σ (Except Failure β)} {r : Except Failure β}
    (h : (perform action : RenderT α (StateM σ) β).Ends p r q) : p.Adds [] q := by
  obtain ⟨-, rfl⟩ := RenderT.ends_perform.1 h
  exact .refl _

/-- The name of an intermediate file comes from the number of names given so far. -/
theorem ends_freshPath {label extension : String} {r : Except Failure Path} :
    (s.freshPath label extension).Ends p r q ↔
      r = .ok (s.workdir.join (freshName p.journal.freshCount label extension)) ∧
      q = ⟨{ p.journal with freshCount := p.journal.freshCount + 1 }, p.world⟩ :=
  RenderT.ends_of_outcome_eq rfl

theorem adds_of_ends_freshPath {label extension : String} {r : Except Failure Path}
    (h : (s.freshPath label extension).Ends p r q) : p.Adds [] q := by
  obtain ⟨-, rfl⟩ := ends_freshPath.1 h
  exact .refl _

/-- A job that is given to the engine is in the journal with what became of it. -/
theorem adds_of_ends_attempt {job : Job α} {failure? : Option Failure}
    (h : (s.attempt job).Ends p (.ok failure?) q) : p.Adds [.ran job failure?] q := by
  have hnote {t : Situation α σ} {noted? : Option Failure}
      (h : (record (.ran job noted?) >>= fun _ ↦ pure noted? :
        RenderT α (StateM σ) (Option Failure)).Ends t (.ok failure?) q) :
      t.Adds [.ran job failure?] q := by
    obtain ⟨_, u, hrecord, h⟩ := ends_bind_ok.1 h
    obtain ⟨hnoted, rfl⟩ := RenderT.ends_pure.1 h
    rw [Except.ok.inj hnoted]
    exact adds_of_ends_record hrecord
  rw [attempt, ends_bind_ok] at h
  obtain ⟨answer, t, hobserve, h⟩ := h
  refine (adds_of_ends_observe hobserve).trans ?_
  -- success and failure are noted alike
  cases answer with
  | ok _ => exact hnote (by simpa only [pure_bind] using h)
  | error e => exact hnote (by simpa only [pure_bind] using h)

/-- A job that has to succeed gives its output, and is in the journal as a success. -/
theorem ends_run {job : Job α} (h : (s.run job).Ends p (.ok path) q) :
    path = job.output ∧ p.Adds [.ran job none] q := by
  rw [run, ends_bind_ok] at h
  obtain ⟨failure?, t, hattempt, h⟩ := h
  -- a failure is thrown again, which is no success
  cases failure? with
  | none =>
    obtain ⟨hpath, rfl⟩ := RenderT.ends_pure.1 h
    exact ⟨Except.ok.inj hpath, adds_of_ends_attempt hattempt⟩
  | some e => exact absurd h RenderT.not_ends_throw

/-- A picture that was drawn is in the journal. -/
theorem adds_of_ends_drawInto {picture : Picture} {r : Unit}
    (h : (s.drawInto path picture).Ends p (.ok r) q) : p.Adds [.drew path] q := by
  obtain ⟨_, t, hperform, h⟩ := ends_bind_ok.1 h
  exact (adds_of_ends_perform hperform).trans (adds_of_ends_record h)

/-- What is known about a file does not get into the journal, whatever the engine says. -/
theorem adds_of_ends_inspect {info? : Option (MediaInfo α)}
    (h : (s.inspect path).Ends p (.ok info?) q) : p.Adds [] q := by
  rw [inspect, ends_bind_ok] at h
  obtain ⟨answer, t, hobserve, h⟩ := h
  -- both answers go on, with and without facts about the file
  cases answer with
  | ok info =>
    obtain ⟨-, rfl⟩ := RenderT.ends_pure.1 h
    exact adds_of_ends_observe hobserve
  | error e =>
    obtain ⟨-, rfl⟩ := RenderT.ends_pure.1 h
    exact adds_of_ends_observe hobserve

theorem adds_of_ends_hasAudio {b : Bool} (h : (s.hasAudio path).Ends p (.ok b) q) :
    p.Adds [] q := by
  obtain ⟨info?, t, hinspect, h⟩ := ends_bind_ok.1 h
  obtain ⟨-, rfl⟩ := RenderT.ends_pure.1 h
  exact adds_of_ends_inspect hinspect

theorem adds_of_ends_source {id : String} {r : Except Failure Path}
    (h : (s.source id).Ends p r q) : p.Adds [] q :=
  adds_of_ends_perform h

theorem adds_of_ends_asset {id : String} {r : Except Failure Path}
    (h : (s.asset id).Ends p r q) : p.Adds [] q :=
  adds_of_ends_perform h

/-! ### Segments -/

variable {file : RenderedFile α}

/-- A filler takes one blank job, and lasts exactly as planned. -/
theorem ends_renderFiller {filler : Filler α}
    (h : (s.renderFiller filler).Ends p (.ok file) q) :
    file.duration = filler.duration ∧ ∃ job : Job.Blank α,
      job.duration = filler.duration ∧ job.output = file.path ∧
        p.Adds [.ran (.blank job) none] q := by
  obtain ⟨output, t, hfresh, h⟩ := ends_bind_ok.1 h
  obtain ⟨written, u, hrun, h⟩ := ends_bind_ok.1 h
  obtain ⟨hfile, rfl⟩ := RenderT.ends_pure.1 h
  obtain ⟨rfl, hadds⟩ := ends_run hrun
  rw [Except.ok.inj hfile]
  exact ⟨rfl, _, rfl, rfl, (adds_of_ends_freshPath hfresh).trans hadds⟩

variable [Scalar α]

/-- To find the box that is cropped adds nothing. -/
theorem adds_of_ends_cropOf {look : Look α} {box? : Option PixelBox}
    (h : (s.cropOf look path).Ends p (.ok box?) q) : p.Adds [] q := by
  rw [cropOf] at h
  cases hcrop : look.crop? with
  | none =>
    rw [hcrop] at h
    obtain ⟨-, rfl⟩ := RenderT.ends_pure.1 h
    exact .refl _
  | some box =>
    rw [hcrop] at h
    obtain ⟨info?, t, hinspect, h⟩ := ends_bind_ok.1 h
    obtain ⟨-, rfl⟩ := RenderT.ends_pure.1 h
    exact adds_of_ends_inspect hinspect

/-- The job of a segment plays what the clip says. The source decides about sound and crop only, and
of these nothing is said here. -/
theorem ends_segmentOf {duration : α} {media : MediaClip α} {blended : BlendedEdges}
    {output : Path} {job : Job.Segment α}
    (h : (s.segmentOf duration media path blended output).Ends p (.ok job) q) :
    job.Plays media duration blended ∧ p.Adds [] q := by
  rw [segmentOf, ends_bind_ok] at h
  obtain ⟨hasAudio, t, haudio, h⟩ := h
  obtain ⟨crop?, u, hcrop, h⟩ := ends_bind_ok.1 h
  obtain ⟨hjob, rfl⟩ := RenderT.ends_pure.1 h
  rw [Except.ok.inj hjob]
  exact ⟨⟨rfl, rfl, rfl, rfl, rfl⟩,
    (adds_of_ends_hasAudio haudio).trans (adds_of_ends_cropOf hcrop)⟩

/-- A segment takes one job, and lasts as long as the clip plays. -/
theorem ends_makeSegment {clip : Clip α} {media : MediaClip α} {blended : BlendedEdges}
    (h : (s.makeSegment clip media path blended).Ends p (.ok file) q) :
    file.duration = (media.excerpt clip.duration).outputDuration ∧ ∃ job : Job.Segment α,
      job.Plays media clip.duration blended ∧ job.output = file.path ∧
        p.Adds [.ran (.segment job) none] q := by
  obtain ⟨output, t, hfresh, h⟩ := ends_bind_ok.1 h
  obtain ⟨job, u, hjob, h⟩ := ends_bind_ok.1 h
  obtain ⟨written, v, hrun, h⟩ := ends_bind_ok.1 h
  obtain ⟨hfile, rfl⟩ := RenderT.ends_pure.1 h
  obtain ⟨hplays, hdescribed⟩ := ends_segmentOf hjob
  obtain ⟨rfl, hadds⟩ := ends_run hrun
  rw [Except.ok.inj hfile]
  exact ⟨hplays.outputDuration_eq, job, hplays, rfl,
    ((adds_of_ends_freshPath hfresh).trans hdescribed).trans hadds⟩

end Session

/-! ### Directories -/

namespace Studio

open RenderT (ends_bind observe perform)

variable {studio : Studio (StateM σ) α} {p q : Situation α σ}

/-- What runs in a fresh directory ends between making the directory and removing it, however it
ends. Without a directory it does not run. -/
theorem cases_of_ends_inFreshDir {root? : Option Path} {body : Path → RenderT α (StateM σ) β}
    {r : Except Failure β} (h : (studio.inFreshDir root? body).Ends p r q) :
    (∃ e, r = .error e ∧
      (perform (studio.workspace.openDir root?) : RenderT α (StateM σ) Path).Ends p (.error e) q) ∨
    ∃ dir t u,
      (perform (studio.workspace.openDir root?) : RenderT α (StateM σ) Path).Ends p (.ok dir) t ∧
      (body dir).Ends t r u ∧
      (observe (studio.workspace.closeDir dir) : RenderT α (StateM σ) Unit).Ends u (.ok ()) q := by
  rcases ends_bind.1 h with ⟨dir, t, hopen, h⟩ | ⟨e, hopen, rfl⟩
  · rcases ends_bind.1 h with ⟨result, u, hbody, h⟩ | ⟨_, hbody, -⟩
    · rcases ends_bind.1 h with ⟨_, v, hclose, h⟩ | ⟨_, hclose, -⟩
      · obtain ⟨r', hbody, hr'⟩ := RenderT.ends_lift_run.1 hbody
        obtain ⟨rfl, rfl⟩ := RenderT.ends_ofExcept.1 h
        obtain rfl := Except.ok.inj hr'
        exact .inr ⟨dir, t, u, hopen, hbody, hclose⟩
      · exact nomatch (RenderT.ends_observe.1 hclose).1
    -- the failure of what runs there is kept until the directory is gone
    · obtain ⟨_, -, hr'⟩ := RenderT.ends_lift_run.1 hbody
      cases hr'
  · exact .inl ⟨e, rfl, hopen⟩

end Studio

end Splice
