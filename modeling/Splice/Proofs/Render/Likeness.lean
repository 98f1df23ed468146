import Mathlib.Data.List.Forall2
import Splice.Proofs.Render.FreshPaths
import Splice.Proofs.Render.Outcomes

/-!
# Runs that are alike

Two renders of one project, each in a studio and a world of its own, do the same as long as they get
the same answers. A `Likeness` says what is the same: which states of the two worlds go together,
which paths stand for each other, and which failures. Runs are alike (`Likeness.Runs`) if from
worlds that go together they end in such worlds, with results and events that are alike.

The session is walked through once, with one lemma `runs_…` for each of its operations. The walk
uses of the paths only that the files that are written have names of their own, and that they can be
read; of the failures only whether they are the engine's. A failure is either an answer of the
storage or the workspace, or thrown by the code, or else the engine's answer to the job that ran
last (`Likeness.Fails`).
-/

namespace Splice

variable {α σ τ β γ : Type}

/-! ### Jobs without their paths -/

namespace Job

/-- What an overlay shows, from another file. -/
def OverlayPicture.withPath (path : Path) : OverlayPicture → OverlayPicture
  | video _ => video path
  | image _ => image path

/-- The files that a job writes, the output first. -/
def written : Job α → List Path
  | concat j => [j.output, j.listPath]
  | job => [job.output]

/-- The job with an empty path in place of every path. -/
def pathless : Job α → Job α
  | blank j => blank { j with output := ⟨""⟩ }
  | segment j => segment { j with input := ⟨""⟩, output := ⟨""⟩ }
  | transition j => transition { j with first := ⟨""⟩, second := ⟨""⟩, output := ⟨""⟩ }
  | concat j => concat ⟨j.inputs.map fun _ ↦ ⟨""⟩, ⟨""⟩, ⟨""⟩⟩
  | overlay j => overlay
    { j with base := ⟨""⟩, source := j.source.withPath ⟨""⟩, output := ⟨""⟩ }
  | text j => text { j with base := ⟨""⟩, output := ⟨""⟩ }
  | audioTrim j => audioTrim { j with input := ⟨""⟩, output := ⟨""⟩ }
  | audioMix j => audioMix { j with base := ⟨""⟩, audio := ⟨""⟩, output := ⟨""⟩ }

end Job

/-! ### Likeness -/

/-- What counts as the same in two worlds. -/
structure Likeness (σ τ : Type) where
  /-- The states of the worlds that go together. -/
  World : σ → τ → Prop
  /-- The files that stand for each other when they are read. -/
  Read : Path → Path → Prop
  /-- The files that stand for each other when they are written. -/
  Written : Path → Path → Prop
  /-- The failures that stand for each other, of all but the engine. -/
  Failed : Failure → Failure → Prop
  /-- The failures of the engine that stand for each other. -/
  Answered : Failure → Failure → Prop
  /-- The stages that may be reached. -/
  Reached : Stage → Prop
  read_of_written : ∀ {a b}, Written a b → Read a b
  failed_of_ne : ∀ e, e ≠ .emptyProject → Failed e e
  isEngine_eq : ∀ {e e'}, Answered e e' → e.isEngine = e'.isEngine

/-- Results that are alike: values in a relation, or failures in another one. -/
inductive ResultsAlike (F : Failure → Failure → Prop) (R : β → γ → Prop) :
    Except Failure β → Except Failure γ → Prop
  | ok {b : β} {c : γ} (h : R b c) : ResultsAlike F R (.ok b) (.ok c)
  | error {e e' : Failure} (h : F e e') : ResultsAlike F R (.error e) (.error e')

/-- Every result is alike itself, where every value and every failure is. -/
theorem ResultsAlike.refl {F : Failure → Failure → Prop} {R : β → β → Prop} (hF : ∀ e, F e e)
    (hR : ∀ b, R b b) (r : Except Failure β) : ResultsAlike F R r r := by
  cases r with
  | ok b => exact .ok (hR b)
  | error e => exact .error (hF e)

namespace Likeness

variable (L : Likeness σ τ)

/-- Actions with answers that are in a relation. -/
def Actions (R : β → γ → Prop) (x : StateM σ β) (y : StateM τ γ) : Prop :=
  ∀ w v, L.World w v → R (x.run w).1 (y.run v).1 ∧ L.World (x.run w).2 (y.run v).2

/-- Jobs that are the same but for their paths, and their paths stand for each other. -/
structure Jobs (i j : Job α) : Prop where
  pathless_eq : i.pathless = j.pathless
  inputs : List.Forall₂ L.Read i.inputs j.inputs
  written : List.Forall₂ L.Written i.written j.written

/-- Rendered files that stand for each other. -/
structure Files (a b : RenderedFile α) : Prop where
  path : L.Read a.path b.path
  duration_eq : a.duration = b.duration

/-- Pieces that stand for each other. -/
structure Pieces (a b : Piece α) : Prop where
  rendered : L.Files a.rendered b.rendered
  clip?_eq : a.clip? = b.clip?

/-- Pictures of one kind, from files that stand for each other. -/
inductive Pictures : Job.OverlayPicture → Job.OverlayPicture → Prop
  | video {a b : Path} (h : L.Read a b) : Pictures (.video a) (.video b)
  | image {a b : Path} (h : L.Read a b) : Pictures (.image a) (.image b)

/-- Directories for intermediate files. -/
def Directories (a b : Path) : Prop :=
  ∀ number label extension, L.Written (a.join (freshName number label extension))
    (b.join (freshName number label extension))

theorem Pictures.path {L : Likeness σ τ} {a b : Job.OverlayPicture} (h : L.Pictures a b) :
    L.Read a.path b.path := by
  cases h with
  | video h | image h => exact h

/-- Without their paths, pictures of one kind are the same. -/
theorem Pictures.withPath_eq {L : Likeness σ τ} {a b : Job.OverlayPicture} (h : L.Pictures a b)
    (path : Path) : a.withPath path = b.withPath path := by
  cases h with
  | video | image => rfl

/-- Events that are alike. -/
inductive Events : Event α → Event α → Prop
  | reached {stage : Stage} (h : L.Reached stage) : Events (.reached stage) (.reached stage)
  | ran {i j : Job α} {failure? failure?' : Option Failure} (hjob : L.Jobs i j)
    (hfailure : Option.Rel L.Answered failure? failure?') :
    Events (.ran i failure?) (.ran j failure?')
  | drew {a b : Path} (h : L.Written a b) : Events (.drew a) (.drew b)
  | merged (step : MergeStep α) : Events (.merged step) (.merged step)
  | skipped (audio : SkippedAudio) : Events (.skipped audio) (.skipped audio)
  | published {a b : Path} (h : L.Read a b) : Events (.published a) (.published b)

/-- Failures that end two runs with these events. -/
inductive Fails : Failure → Failure → List (Event α) → List (Event α) → Prop
  | plain {e e' : Failure} {a b : List (Event α)} (h : L.Failed e e') : Fails e e' a b
  | job {e e' : Failure} {a b : List (Event α)} {i j : Job α} (h : L.Answered e e') :
    Fails e e' (a ++ [.ran i (some e)]) (b ++ [.ran j (some e')])

/-- What two runs did before they failed does not matter. -/
theorem Fails.append {e e' : Failure} {a b : List (Event α)} (h : L.Fails e e' a b)
    (c d : List (Event α)) : L.Fails e e' (c ++ a) (d ++ b) := by
  cases h with
  | plain h => exact .plain h
  | job h =>
    rw [← List.append_assoc, ← List.append_assoc]
    exact .job h

/-- Situations that go together. What happened before does not matter. -/
structure Situations (p : Situation α σ) (q : Situation α τ) : Prop where
  freshCount_eq : p.journal.freshCount = q.journal.freshCount
  world : L.World p.world q.world

/-- Two runs add alike events, and end in situations that go together. -/
structure Goes (p : Situation α σ) (q : Situation α τ) (a b : List (Event α)) (p' : Situation α σ)
    (q' : Situation α τ) : Prop where
  left : p.Adds a p'
  right : q.Adds b q'
  events : List.Forall₂ L.Events a b
  situations : L.Situations p' q'

namespace Goes

variable {L} {p p' p'' : Situation α σ} {q q' q'' : Situation α τ} {a b c d : List (Event α)}

theorem refl (h : L.Situations p q) : L.Goes p q [] [] p q := ⟨.refl p, .refl q, .nil, h⟩

/-- Two steps of two runs, one after the other. -/
theorem trans (h : L.Goes p q a b p' q') (h' : L.Goes p' q' c d p'' q'') :
    L.Goes p q (a ++ c) (b ++ d) p'' q'' :=
  ⟨h.left.trans h'.left, h.right.trans h'.right, List.rel_append h.events h'.events,
    h'.situations⟩

end Goes

/-- Two ends of runs that are alike. -/
inductive Outcomes (R : β → γ → Prop) (p : Situation α σ) (q : Situation α τ) :
    Except Failure β × Situation α σ → Except Failure γ × Situation α τ → Prop
  | ok {b : β} {c : γ} {a a' : List (Event α)} {p' : Situation α σ} {q' : Situation α τ}
    (hgoes : L.Goes p q a a' p' q') (h : R b c) : Outcomes R p q (.ok b, p') (.ok c, q')
  | error {e e' : Failure} {a a' : List (Event α)} {p' : Situation α σ} {q' : Situation α τ}
    (hgoes : L.Goes p q a a' p' q') (h : L.Fails e e' a a') :
    Outcomes R p q (.error e, p') (.error e', q')

/-- Two runs that went on alike for a while end as what is left of them ends. -/
theorem Outcomes.trans {R : β → γ → Prop} {p p' : Situation α σ} {q q' : Situation α τ}
    {a b : List (Event α)} {x : Except Failure β × Situation α σ}
    {y : Except Failure γ × Situation α τ} (h : L.Goes p q a b p' q')
    (hxy : L.Outcomes R p' q' x y) : L.Outcomes R p q x y := by
  cases hxy with
  | ok hgoes hR => exact .ok (h.trans hgoes) hR
  | error hgoes hfails => exact .error (h.trans hgoes) (hfails.append L _ _)

/-- Computations that run alike wherever they start. -/
def Runs (R : β → γ → Prop) (x : RenderT α (StateM σ) β) (y : RenderT α (StateM τ) γ) : Prop :=
  ∀ p q, L.Situations p q → L.Outcomes R p q (x.outcome p) (y.outcome q)

/-! ### Actions -/

section Actions

variable {L}

/-- A sequence of actions whose first answers are alike. -/
theorem Actions.bind {δ ε : Type} {R : β → γ → Prop} {S : δ → ε → Prop} {x : StateM σ β}
    {y : StateM τ γ} {f : β → StateM σ δ} {g : γ → StateM τ ε} (hxy : L.Actions R x y)
    (hfg : ∀ b c, R b c → L.Actions S (f b) (g c)) : L.Actions S (x >>= f) (y >>= g) := by
  intro w v hwv
  obtain ⟨hR, hworld⟩ := hxy w v hwv
  exact hfg _ _ hR _ _ hworld

theorem Actions.pure {R : β → γ → Prop} {b : β} {c : γ} (h : R b c) :
    L.Actions R (Pure.pure b) (Pure.pure c) :=
  fun _ _ hwv ↦ ⟨h, hwv⟩

variable {storage : Storage (StateM σ)} {storage' : Storage (StateM τ)}

/-- Sources are resolved alike, if all references are: what the manifest lacks is missing in both
worlds. -/
theorem actions_source (hresolve : ∀ reference, L.Actions (ResultsAlike L.Failed L.Read)
    (storage.resolve reference) (storage'.resolve reference)) (media : Manifest) (id : String) :
    L.Actions (ResultsAlike L.Failed L.Read) (storage.source media id)
      (storage'.source media id) := by
  rw [Storage.source, Storage.source]
  cases media.sources.lookup id with
  | none => exact .pure (.error (L.failed_of_ne _ nofun))
  | some reference => exact hresolve reference

/-- So are assets. -/
theorem actions_asset (hresolve : ∀ reference, L.Actions (ResultsAlike L.Failed L.Read)
    (storage.resolve reference) (storage'.resolve reference)) (media : Manifest) (id : String) :
    L.Actions (ResultsAlike L.Failed L.Read) (storage.asset media id)
      (storage'.asset media id) := by
  rw [Storage.asset, Storage.asset]
  cases media.assets.lookup id with
  | none => exact .pure (.error (L.failed_of_ne _ nofun))
  | some reference => exact hresolve reference

end Actions

/-! ### Ways to build a computation -/

namespace Runs

open RenderT (outcome_bind)

variable {L} {δ ε : Type} {R : β → γ → Prop} {S : δ → ε → Prop} {x : RenderT α (StateM σ) β}
  {y : RenderT α (StateM τ) γ}

theorem pure {b : β} {c : γ} (h : R b c) :
    L.Runs (α := α) R (Pure.pure b) (Pure.pure c) :=
  fun _ _ hpq ↦ .ok (.refl hpq) h

/-- Two failures of the code stand for each other if those of the storage do. -/
theorem throw {e e' : Failure} (h : L.Failed e e') :
    L.Runs (α := α) R (MonadExcept.throw e) (MonadExcept.throw e') :=
  fun _ _ hpq ↦ .error (.refl hpq) (.plain h)

/-- The code throws alike in both runs. -/
theorem throw_self (e : Failure) (h : e ≠ .emptyProject) :
    L.Runs (α := α) R (MonadExcept.throw e) (MonadExcept.throw e) :=
  throw (L.failed_of_ne e h)

/-- Alike events are added alike; no numbers for files are used up. -/
theorem record {event event' : Event α} (h : L.Events event event') :
    L.Runs (fun _ _ ↦ True) (RenderT.record event) (RenderT.record event') :=
  fun _ _ hpq ↦ .ok ⟨rfl, rfl, .cons h .nil, hpq.freshCount_eq, hpq.world⟩ trivial

/-- An action on the outside goes on alike. -/
theorem observe {a : StateM σ β} {b : StateM τ γ} (h : L.Actions R a b) :
    L.Runs (α := α) R (RenderT.observe a) (RenderT.observe b) := by
  intro p q hpq
  obtain ⟨hR, hworld⟩ := h p.world q.world hpq.world
  exact .ok ⟨.refl p, .refl q, .nil, hpq.freshCount_eq, hworld⟩ hR

/-- An action that may fail ends both runs, or neither. -/
theorem perform {a : StateM σ (Except Failure β)} {b : StateM τ (Except Failure γ)}
    (h : L.Actions (ResultsAlike L.Failed R) a b) :
    L.Runs (α := α) R (RenderT.perform a) (RenderT.perform b) := by
  intro p q hpq
  obtain ⟨hresult, hworld⟩ := h p.world q.world hpq.world
  have hgoes : L.Goes p q [] [] (⟨p.journal, (a.run p.world).2⟩ : Situation α σ)
      ⟨q.journal, (b.run q.world).2⟩ := ⟨.refl p, .refl q, .nil, hpq.freshCount_eq, hworld⟩
  show L.Outcomes R p q ((a.run p.world).1, _) ((b.run q.world).1, _)
  generalize (a.run p.world).1 = r, (b.run q.world).1 = r' at hresult
  cases hresult with
  | ok hR => exact .ok hgoes hR
  | error he => exact .error hgoes (.plain he)

/-- A sequence: both first parts succeed with results in a relation, or both end the runs. -/
theorem bind {f : β → RenderT α (StateM σ) δ} {g : γ → RenderT α (StateM τ) ε}
    (hxy : L.Runs R x y) (hfg : ∀ b c, R b c → L.Runs S (f b) (g c)) :
    L.Runs S (x >>= f) (y >>= g) := by
  -- both first parts succeed, or both fail
  intro p q hpq
  rw [outcome_bind, outcome_bind]
  have h := hxy p q hpq
  generalize x.outcome p = r, y.outcome q = r' at h
  cases h with
  | ok hgoes hR => exact .trans L hgoes (hfg _ _ hR _ _ hgoes.situations)
  | error hgoes hfails => exact .error hgoes hfails

/-- One list is mapped in two ways that run alike. -/
theorem mapM {f : δ → RenderT α (StateM σ) β} {g : δ → RenderT α (StateM τ) γ}
    (hfg : ∀ d, L.Runs R (f d) (g d)) (ds : List δ) :
    L.Runs (List.Forall₂ R) (ds.mapM f) (ds.mapM g) := by
  induction ds with
  | nil => exact pure .nil
  | cons d rest ih =>
    rw [List.mapM_cons, List.mapM_cons]
    exact (hfg d).bind fun _ _ hR ↦ ih.bind fun _ _ hrest ↦ pure (.cons hR hrest)

/-- One list is folded in two ways that run alike, whatever in the relation they have so far. -/
theorem foldlM {f : β → δ → RenderT α (StateM σ) β} {g : γ → δ → RenderT α (StateM τ) γ}
    (hfg : ∀ b c d, R b c → L.Runs R (f b d) (g c d)) {b : β} {c : γ} (h : R b c) (ds : List δ) :
    L.Runs R (ds.foldlM f b) (ds.foldlM g c) := by
  induction ds generalizing b c with
  | nil => exact pure h
  | cons d rest ih =>
    rw [List.foldlM_cons, List.foldlM_cons]
    exact (hfg b c d h).bind fun _ _ hR ↦ ih hR

end Runs

/-! ### Sessions -/

/-- Sessions that get the same answers. -/
structure Sessions (s : Session (StateM σ) α) (t : Session (StateM τ) α) : Prop where
  run : ∀ {i j}, L.Jobs i j →
    L.Actions (ResultsAlike L.Answered Eq) (s.engine.run i) (t.engine.run j)
  probe : ∀ {a b}, L.Read a b →
    L.Actions (fun r r' ↦ r.toOption = r'.toOption) (s.engine.probe a) (t.engine.probe b)
  resolve : ∀ reference, L.Actions (ResultsAlike L.Failed L.Read) (s.storage.resolve reference)
    (t.storage.resolve reference)
  draw : ∀ {a b} picture, L.Written a b →
    L.Actions (ResultsAlike L.Failed Eq) (s.draw a picture) (t.draw b picture)
  media_eq : s.media = t.media
  canvas_eq : s.canvas = t.canvas
  workdir : L.Directories s.workdir t.workdir

/-- Every job writes its output first. -/
theorem Jobs.output {L : Likeness σ τ} {i j : Job α} (h : L.Jobs i j) :
    L.Written i.output j.output := by
  have hhead (job : Job α) : job.written.head? = some job.output := by cases job <;> rfl
  have hwritten := h.written
  generalize hi : i.written = a, hj : j.written = b at hwritten
  cases hwritten with
  | nil => exact absurd (hhead i) (by rw [hi]; exact nofun)
  | cons h _ =>
    obtain rfl := Option.some.inj ((congrArg List.head? hi).symm.trans (hhead i))
    obtain rfl := Option.some.inj ((congrArg List.head? hj).symm.trans (hhead j))
    exact h

/-- Jobs that are the same up to equal paths are equal. -/
theorem Jobs.eq {L : Likeness σ τ} {i j : Job α} (hread : ∀ {a b}, L.Read a b → a = b)
    (hwritten : ∀ {a b}, L.Written a b → a = b) (h : L.Jobs i j) : i = j := by
  have hinputs : i.inputs = j.inputs :=
    List.forall₂_eq_eq_eq ▸ h.inputs.imp fun _ _ hab ↦ hread hab
  have houtputs : i.written = j.written :=
    List.forall₂_eq_eq_eq ▸ h.written.imp fun _ _ hab ↦ hwritten hab
  have hpathless := h.pathless_eq
  -- without their paths, jobs of different kinds differ
  cases i with
  | overlay a =>
    cases j with
    | overlay b =>
      rcases a with ⟨_, a⟩
      rcases b with ⟨_, b⟩
      cases a <;> cases b <;> simp_all [Job.pathless, Job.inputs, Job.written, Job.output,
        Job.OverlayPicture.withPath, Job.OverlayPicture.path]
    | _ => cases hpathless
  | _ a =>
    cases j <;> first
      | cases hpathless
      | rename_i b
        cases a
        cases b
        simp_all [Job.pathless, Job.inputs, Job.written, Job.output]

section Eq

variable {L : Likeness σ τ} (hread : ∀ {a b}, L.Read a b → a = b)
  (hwritten : ∀ {a b}, L.Written a b → a = b) (hanswered : ∀ {e e'}, L.Answered e e' → e = e')

include hread hwritten hanswered

/-- Under a likeness of equal paths and failures, alike events are the same. -/
theorem Events.eq {a b : Event α} (h : L.Events a b) : a = b := by
  cases h with
  | reached | merged | skipped => rfl
  | drew hpath => rw [hwritten hpath]
  | published hpath => rw [hread hpath]
  | ran hjob hfailure =>
    rw [hjob.eq hread hwritten]
    cases hfailure with
    | none => rfl
    | some he => rw [hanswered he]

/-- Two runs that are alike up to equal paths and failures have one journal. -/
theorem Goes.journal_eq {p p' : Situation α σ} {q q' : Situation α τ} {a b : List (Event α)}
    (hstart : p.journal.events = q.journal.events) (h : L.Goes p q a b p' q') :
    p'.journal = q'.journal := by
  have hevents : a = b :=
    List.forall₂_eq_eq_eq ▸ h.events.imp fun _ _ ↦ Events.eq hread hwritten hanswered
  have hleft : p'.journal.events = p.journal.events ++ a := h.left
  have hright : q'.journal.events = q.journal.events ++ b := h.right
  have hcount := h.situations.freshCount_eq
  have hall : p'.journal.events = q'.journal.events := by rw [hleft, hright, hstart, hevents]
  generalize p'.journal = j at hcount hall ⊢
  generalize q'.journal = j' at hcount hall ⊢
  cases j
  cases j'
  exact congrArg₂ Journal.mk hcount hall

end Eq

namespace Sessions

open RenderT (outcome_bind)

variable {L} {s : Session (StateM σ) α} {t : Session (StateM τ) α} (h : L.Sessions s t)

include h

/-- Both sessions count alike, so the names are the same and the directories make the difference. -/
theorem runs_freshPath (label extension : String) :
    L.Runs L.Written (s.freshPath label extension) (t.freshPath label extension) := by
  intro p q hpq
  rw [show (s.freshPath label extension).outcome p = _ from
      Session.ends_freshPath.2 ⟨rfl, rfl⟩, show (t.freshPath label extension).outcome q = _ from
      Session.ends_freshPath.2 ⟨rfl, rfl⟩]
  refine .ok ⟨.refl p, .refl q, .nil, ?_, hpq.world⟩ ?_
  · exact congrArg (· + 1) hpq.freshCount_eq
  · rw [hpq.freshCount_eq]
    exact h.workdir _ _ _

/-- After a job, two runs go on alike, or both end with the failure of the job. -/
theorem runs_attempt_bind {R : β → γ → Prop} {i j : Job α} (hjob : L.Jobs i j)
    {f : Option Failure → RenderT α (StateM σ) β} {g : Option Failure → RenderT α (StateM τ) γ}
    (hnone : L.Runs R (f none) (g none))
    (hsome : ∀ e e', L.Answered e e' → L.Runs R (f (some e)) (g (some e')) ∨
      f (some e) = throw e ∧ g (some e') = throw e') :
    L.Runs R (s.attempt i >>= f) (t.attempt j >>= g) := by
  intro p q hpq
  obtain ⟨hanswer, hworld⟩ := h.run hjob p.world q.world hpq.world
  rw [outcome_bind, outcome_bind, show (s.attempt i).outcome p = _ from
      Session.ends_attempt.2 ⟨rfl, rfl⟩, show (t.attempt j).outcome q = _ from
      Session.ends_attempt.2 ⟨rfl, rfl⟩]
  have hgoes {failure? failure?' : Option Failure}
      (hfailure : Option.Rel L.Answered failure? failure?') :
      L.Goes p q [.ran i failure?] [.ran j failure?']
        ⟨{ p.journal with events := p.journal.events ++ [.ran i failure?] },
          ((s.engine.run i).run p.world).2⟩
        ⟨{ q.journal with events := q.journal.events ++ [.ran j failure?'] },
          ((t.engine.run j).run q.world).2⟩ :=
    ⟨rfl, rfl, .cons (.ran hjob hfailure) .nil, hpq.freshCount_eq, hworld⟩
  -- the answers of the engines are all that is left to tell the two runs apart
  generalize ((s.engine.run i).run p.world).1 = r, ((t.engine.run j).run q.world).1 = r' at hanswer
  cases hanswer with
  | ok =>
    have hran := hgoes .none
    exact .trans L hran (hnone _ _ hran.situations)
  | @error e e' he =>
    have hran := hgoes (.some he)
    rcases hsome e e' he with hon | ⟨hf, hg⟩
    · exact .trans L hran (hon _ _ hran.situations)
    · show L.Outcomes R p q ((f (some e)).outcome _) ((g (some e')).outcome _)
      rw [hf, hg]
      exact .error hran (.job (a := []) (b := []) he)

theorem runs_run {i j : Job α} (hjob : L.Jobs i j) : L.Runs L.Written (s.run i) (t.run j) :=
  h.runs_attempt_bind hjob (.pure hjob.output) fun _ _ _ ↦ .inr ⟨rfl, rfl⟩

/-- One picture, drawn into two files that stand for each other. -/
theorem runs_drawInto {a b : Path} (hab : L.Written a b) (picture : Picture) :
    L.Runs (fun _ _ ↦ True) (s.drawInto a picture) (t.drawInto b picture) :=
  (Runs.perform (h.draw picture hab)).bind fun _ _ _ ↦ .record (.drew hab)

/-- Only whether a file can be looked at, and what is found, has to be the same; why it cannot be
does not matter. -/
theorem runs_inspect {a b : Path} (hab : L.Read a b) : L.Runs Eq (s.inspect a) (t.inspect b) := by
  refine (Runs.observe (h.probe hab)).bind fun r r' hr ↦ ?_
  cases r with
  | ok info =>
    cases r' with
    | ok info' => exact .pure (by simpa [Except.toOption] using hr)
    | error e' => cases hr
  | error e =>
    cases r' with
    | ok info' => cases hr
    | error e' => exact .pure rfl

theorem runs_hasAudio {a b : Path} (hab : L.Read a b) :
    L.Runs Eq (s.hasAudio a) (t.hasAudio b) :=
  (h.runs_inspect hab).bind fun _ _ hinfo ↦ .pure (by rw [hinfo])

/-- One source, in one manifest. -/
theorem runs_source (id : String) : L.Runs L.Read (s.source id) (t.source id) := by
  rw [Session.source, Session.source, h.media_eq]
  exact .perform (actions_source h.resolve _ _)

theorem runs_asset (id : String) : L.Runs L.Read (s.asset id) (t.asset id) := by
  rw [Session.asset, Session.asset, h.media_eq]
  exact .perform (actions_asset h.resolve _ _)

section Scalar

variable [Scalar α]

/-! ### Segments -/

/-- The box to crop depends on what is found in the source. -/
theorem runs_cropOf (look : Look α) {a b : Path} (hab : L.Read a b) :
    L.Runs Eq (s.cropOf look a) (t.cropOf look b) := by
  rw [Session.cropOf, Session.cropOf]
  cases look.crop? with
  | none => exact .pure rfl
  | some box => exact (h.runs_inspect hab).bind fun _ _ hinfo ↦ .pure (by rw [hinfo])

/-- One clip, from two sources that stand for each other. -/
theorem runs_makeSegment (clip : Clip α) (media : MediaClip α) {a b : Path} (hab : L.Read a b)
    (blended : BlendedEdges) :
    L.Runs L.Files (s.makeSegment clip media a blended) (t.makeSegment clip media b blended) := by
  refine (h.runs_freshPath _ _).bind fun out out' hout ↦ ?_
  have hjob : L.Runs
      (fun i j ↦ L.Jobs (.segment i) (.segment j) ∧ i.outputDuration = j.outputDuration)
      (s.segmentOf clip.duration media a blended out)
      (t.segmentOf clip.duration media b blended out') := by
    refine (h.runs_hasAudio hab).bind fun audio audio' haudio ↦
      (h.runs_cropOf _ hab).bind fun crop crop' hcrop ↦ .pure ⟨⟨?_, ?_, ?_⟩, rfl⟩
    · simp only [Job.pathless, h.canvas_eq, haudio, hcrop]
    · exact .cons hab .nil
    · exact .cons hout .nil
  refine hjob.bind fun i j ⟨hij, hduration⟩ ↦ (h.runs_run hij).bind fun _ _ hwritten ↦
    .pure ⟨L.read_of_written hwritten, hduration⟩

omit [Scalar α] in
/-- A filler needs nothing from outside. -/
theorem runs_renderFiller (filler : Filler α) :
    L.Runs L.Files (s.renderFiller filler) (t.renderFiller filler) := by
  refine (h.runs_freshPath _ _).bind fun out out' hout ↦ (h.runs_run ⟨?_, .nil, ?_⟩).bind
    fun _ _ hwritten ↦ .pure ⟨L.read_of_written hwritten, rfl⟩
  · simp only [Job.pathless, h.canvas_eq]
  · exact .cons hout .nil

/-- One entry; a base clip that is no video ends both runs. -/
theorem runs_renderEntry (c : Composition α) (entry : Entry α) :
    L.Runs L.Pieces (s.renderEntry c entry) (t.renderEntry c entry) := by
  cases entry with
  | clip index clip =>
    rw [Session.renderEntry, Session.renderEntry]
    cases clip.video? with
    | none => exact .throw_self _ nofun
    | some media =>
      refine (h.runs_source _).bind fun a b hab ↦ (h.runs_makeSegment clip media hab _).bind
        fun file file' hfile ↦ ?_
      rw [hfile.duration_eq]
      exact (Runs.record (.merged _)).bind fun _ _ _ ↦ .pure ⟨hfile, rfl⟩
  | filler filler =>
    exact (h.runs_renderFiller filler).bind fun _ _ hfile ↦ (Runs.record (.merged _)).bind
      fun _ _ _ ↦ .pure ⟨hfile, rfl⟩

/-! ### Merges -/

/-- The jobs of a blend differ in their paths only. -/
theorem runs_blendJob {left left' right right' : RenderedFile α} (hleft : L.Files left left')
    (hright : L.Files right right') (style : TransitionStyle) (duration : α) :
    L.Runs (fun i j ↦ L.Jobs (.transition i) (.transition j))
      (s.blendJob left right style duration) (t.blendJob left' right' style duration) := by
  refine (h.runs_freshPath _ _).bind fun out out' hout ↦ .pure ⟨?_, ?_, ?_⟩
  · simp only [Job.pathless, h.canvas_eq, hleft.duration_eq]
  · exact .cons hleft.path (.cons hright.path .nil)
  · exact .cons hout .nil

/-- Both engines fail at a blend or neither does, and a failure of both is the engine's or not in
both. So there is a second job in both runs or in neither. -/
theorem runs_blendFiles {left left' right right' : RenderedFile α} (hleft : L.Files left left')
    (hright : L.Files right right') (style : TransitionStyle) (duration : α) :
    L.Runs (fun a b ↦ L.Written a.1 b.1 ∧ a.2 = b.2) (s.blendFiles left right style duration)
      (t.blendFiles left' right' style duration) := by
  refine (h.runs_blendJob hleft hright style duration).bind fun i j hjob ↦
    h.runs_attempt_bind hjob (.pure ⟨hjob.output, rfl⟩) fun e e' he ↦ ?_
  -- the same failures are given another try
  dsimp only
  rw [L.isEngine_eq he]
  split_ifs
  · exact .inl ((h.runs_blendJob hleft hright .fallback duration).bind fun _ _ hsecond ↦
      (h.runs_run hsecond).bind fun _ _ hwritten ↦ .pure ⟨hwritten, rfl⟩)
  · exact .inr ⟨rfl, rfl⟩

/-- A blend is noted with the lengths of its files, which are the same. -/
theorem runs_mergeByTransition {left left' right right' : RenderedFile α}
    (hleft : L.Files left left') (hright : L.Files right right') (style : TransitionStyle)
    (duration : α) (fromId toId : String) :
    L.Runs L.Files (s.mergeByTransition left right style duration fromId toId)
      (t.mergeByTransition left' right' style duration fromId toId) := by
  refine (h.runs_blendFiles hleft hright style duration).bind ?_
  rintro ⟨path, used, usedFallback⟩ ⟨path', used', usedFallback'⟩ ⟨hpath, hused⟩
  obtain ⟨rfl, rfl⟩ := Prod.mk.inj hused
  dsimp only
  rw [hleft.duration_eq, hright.duration_eq]
  exact (Runs.record (.merged _)).bind fun _ _ _ ↦ .pure ⟨L.read_of_written hpath, rfl⟩

/-- A merge without a blend. -/
theorem runs_mergeByConcat {left left' right right' : RenderedFile α}
    (hleft : L.Files left left') (hright : L.Files right right') :
    L.Runs L.Files (s.mergeByConcat left right) (t.mergeByConcat left' right') := by
  refine (h.runs_freshPath _ _).bind fun list list' hlist ↦ (h.runs_freshPath _ _).bind
    fun out out' hout ↦ (h.runs_run ⟨?_, ?_, ?_⟩).bind fun _ _ hpath ↦ ?_
  · rfl
  · exact .cons hleft.path (.cons hright.path .nil)
  · exact .cons hout (.cons hlist .nil)
  · rw [hleft.duration_eq, hright.duration_eq]
    exact (Runs.record (.merged _)).bind fun _ _ _ ↦ .pure ⟨L.read_of_written hpath, rfl⟩

/-- All merges, by induction on the two lists of pieces side by side. -/
theorem runs_mergeOnto (blendAfter? : ℕ → Option (TransitionStyle × α))
    {pieces pieces' : List (Piece α)} (hpieces : List.Forall₂ L.Pieces pieces pieces')
    {running running' : RenderedFile α} (hrunning : L.Files running running')
    (last? : Option (ℕ × String)) :
    L.Runs L.Files (s.mergeOnto blendAfter? running last? pieces)
      (t.mergeOnto blendAfter? running' last? pieces') := by
  induction hpieces generalizing running running' last? with
  | nil => exact .pure hrunning
  | @cons next next' _ _ hnext _ ih =>
    rw [Session.mergeOnto, Session.mergeOnto, hnext.clip?_eq]
    rcases Piece.transitionTo? blendAfter? last? next'.clip? with
      - | ⟨style, duration, fromId, toId⟩
    · exact (h.runs_mergeByConcat hrunning hnext.rendered).bind fun _ _ hmerged ↦ ih hmerged _
    · exact (h.runs_mergeByTransition hrunning hnext.rendered _ _ _ _).bind
        fun _ _ hmerged ↦ ih hmerged _

/-- An empty sequence ends both runs. -/
theorem runs_mergePieces (blendAfter? : ℕ → Option (TransitionStyle × α))
    {pieces pieces' : List (Piece α)} (hpieces : List.Forall₂ L.Pieces pieces pieces') :
    L.Runs L.Files (s.mergePieces blendAfter? pieces) (t.mergePieces blendAfter? pieces') := by
  cases hpieces with
  | nil => exact .throw_self _ nofun
  | cons hfirst hrest =>
    rw [Session.mergePieces, Session.mergePieces, hfirst.clip?_eq]
    exact h.runs_mergeOnto blendAfter? hrest hfirst.rendered _

/-! ### Sounds -/

/-- A sound; both sources have sound or neither has. -/
theorem runs_mixSound {base base' : RenderedFile α} (hbase : L.Files base base') {a b : Path}
    (hab : L.Read a b) (time : α) (label : String) :
    L.Runs L.Files (s.mixSound base a time label) (t.mixSound base' b time label) := by
  refine (h.runs_hasAudio hab).bind ?_
  rintro hasAudio _ rfl
  cases hasAudio with
  | false => exact Runs.bind (.throw_self (R := fun _ _ ↦ False) _ nofun) fun _ _ h ↦ h.elim
  | true =>
    refine (h.runs_hasAudio hbase.path).bind fun audio audio' haudio ↦
      (h.runs_freshPath _ _).bind fun out out' hout ↦ (h.runs_run ⟨?_, ?_, ?_⟩).bind
        fun _ _ hpath ↦ .pure ⟨L.read_of_written hpath, hbase.duration_eq⟩
    · simp only [Job.pathless, haudio, hbase.duration_eq]
    · exact .cons hbase.path (.cons hab .nil)
    · exact .cons hout .nil

/-- A sound that is cut out of its asset first. -/
theorem runs_mixClip {base base' : RenderedFile α} (hbase : L.Files base base') (clip : Clip α)
    (audio : AudioClip α) :
    L.Runs L.Files (s.mixClip base clip audio) (t.mixClip base' clip audio) := by
  refine (h.runs_asset _).bind fun a b hab ↦ (h.runs_freshPath _ _).bind fun out out' hout ↦
    (h.runs_run ⟨?_, ?_, ?_⟩).bind fun _ _ hpath ↦
      h.runs_mixSound hbase (L.read_of_written hpath) _ _
  · rfl
  · exact .cons hab .nil
  · exact .cons hout .nil

/-- Whether a sound is left out depends on the one manifest. -/
theorem runs_addSound {base base' : RenderedFile α} (hbase : L.Files base base') (clip : Clip α) :
    L.Runs L.Files (s.addSound base clip) (t.addSound base' clip) := by
  rw [Session.addSound, Session.addSound, h.media_eq]
  split
  · split_ifs
    · exact (Runs.record (.skipped _)).bind fun _ _ _ ↦ .pure hbase
    · exact .pure hbase
    · exact h.runs_mixClip hbase _ _
  · exact .pure hbase

theorem runs_addSounds {base base' : RenderedFile α} (hbase : L.Files base base')
    (clips : List (Clip α)) : L.Runs L.Files (s.addSounds base clips) (t.addSounds base' clips) :=
  .foldlM (fun _ _ clip hfile ↦ h.runs_addSound hfile clip) hbase clips

/-! ### Overlays -/

omit [Scalar α] in
/-- The jobs that paint a clip differ in their paths only. -/
theorem runs_paintJob {base base' : RenderedFile α} (hbase : L.Files base base') (clip : Clip α)
    {source source' : Job.OverlayPicture} (hsource : L.Pictures source source')
    (placement : Placement α) (stop : α) (mode : FitMode) (rotation : α) :
    L.Runs (fun i j ↦ L.Jobs (.overlay i) (.overlay j))
      (s.paintJob clip base source placement stop mode rotation)
      (t.paintJob clip base' source' placement stop mode rotation) := by
  refine (h.runs_freshPath _ _).bind fun out out' hout ↦ .pure ⟨?_, ?_, ?_⟩
  · simp only [Job.pathless, h.canvas_eq, hsource.withPath_eq]
  · exact .cons hbase.path (.cons hsource.path .nil)
  · exact .cons hout .nil

/-- An overlaid video. -/
theorem runs_paintVideo {base base' : RenderedFile α} (hbase : L.Files base base') (clip : Clip α)
    (media : MediaClip α) :
    L.Runs L.Files (s.paintVideo base clip media) (t.paintVideo base' clip media) := by
  refine (h.runs_source _).bind fun a b hab ↦ (h.runs_makeSegment _ _ hab _).bind
    fun segment segment' hsegment ↦ ?_
  rw [Session.placementOf, Session.placementOf, h.canvas_eq, hsegment.duration_eq]
  refine (h.runs_paintJob hbase clip (.video hsegment.path) _ _ _ _).bind fun _ _ hjob ↦
    (h.runs_run hjob).bind fun out out' hout ↦ ?_
  have hpainted : L.Files (⟨out, base.duration⟩ : RenderedFile α) ⟨out', base'.duration⟩ :=
    ⟨L.read_of_written hout, hbase.duration_eq⟩
  dsimp only
  split_ifs
  · exact h.runs_mixSound hpainted hsegment.path _ _
  · exact .pure hpainted

theorem runs_paintPicture {base base' : RenderedFile α} (hbase : L.Files base base')
    (clip : Clip α) (media : MediaClip α) :
    L.Runs L.Files (s.paintPicture base clip media) (t.paintPicture base' clip media) := by
  refine (h.runs_asset _).bind fun a b hab ↦ ?_
  rw [Session.placementOf, Session.placementOf, h.canvas_eq]
  exact (h.runs_paintJob hbase clip (.image hab) _ _ _ _).bind fun _ _ hjob ↦
    (h.runs_run hjob).bind fun _ _ hout ↦ .pure ⟨L.read_of_written hout, hbase.duration_eq⟩

/-- An overlaid text. -/
theorem runs_paintText {base base' : RenderedFile α} (hbase : L.Files base base') (clip : Clip α)
    (text : TextClip α) :
    L.Runs L.Files (s.paintText base clip text) (t.paintText base' clip text) := by
  rw [Session.paintText, Session.paintText, Session.placementOf, Session.placementOf, h.canvas_eq]
  refine (h.runs_freshPath _ _).bind fun out out' hout ↦ (h.runs_run ⟨?_, ?_, ?_⟩).bind
    fun _ _ hpath ↦ .pure ⟨L.read_of_written hpath, hbase.duration_eq⟩
  · rfl
  · exact .cons hbase.path .nil
  · exact .cons hout .nil

/-- A shape is one picture, drawn in two directories. -/
theorem runs_paintShape {base base' : RenderedFile α} (hbase : L.Files base base') (clip : Clip α)
    (shape : ShapeClip α) :
    L.Runs L.Files (s.paintShape base clip shape) (t.paintShape base' clip shape) := by
  rw [Session.paintShape, Session.paintShape, Session.placementOf, Session.placementOf,
    h.canvas_eq]
  exact (h.runs_freshPath _ _).bind fun drawing drawing' hdrawing ↦
    (h.runs_drawInto hdrawing _).bind fun _ _ _ ↦
      (h.runs_paintJob hbase clip (.image (L.read_of_written hdrawing)) _ _ _ _).bind fun _ _ hjob ↦
        (h.runs_run hjob).bind fun _ _ hout ↦ .pure ⟨L.read_of_written hout, hbase.duration_eq⟩

/-- An overlay of any kind. -/
theorem runs_addOverlay {base base' : RenderedFile α} (hbase : L.Files base base')
    (clip : Clip α) : L.Runs L.Files (s.addOverlay base clip) (t.addOverlay base' clip) := by
  rw [Session.addOverlay, Session.addOverlay]
  split
  · exact h.runs_paintVideo hbase _ _
  · exact h.runs_paintPicture hbase _ _
  · exact h.runs_paintText hbase _ _
  · exact h.runs_paintShape hbase _ _
  · exact .pure hbase

theorem runs_addOverlays {base base' : RenderedFile α} (hbase : L.Files base base')
    (clips : List (Clip α)) :
    L.Runs L.Files (s.addOverlays base clips) (t.addOverlays base' clips) :=
  .foldlM (fun _ _ clip hfile ↦ h.runs_addOverlay hfile clip) hbase clips

end Scalar

end Sessions

end Likeness

end Splice
