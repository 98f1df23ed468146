import Splice.Proofs.Render.Exchanges
import Splice.Proofs.Render.Progress

/-!
# Logging changes nothing

A studio that keeps a log runs as it does without one (`Studio.outcome_logged_render`). So whatever
the log of a render shows, it shows of a render in the studio itself
(`Studio.ends_logged_render`).

A world with a log is like the world alone (`Likeness.unlogged`), so that both renders are the same
until the result is published. A computation `Mirrors` another one if it ends in the same way but
for the log, wherever both start; this is said of the delivery only.
-/

namespace Splice

variable {α σ β γ : Type}

namespace Exchange

/-- An action has the answers and effects of another one, but for the log. -/
def Echoes (action : StateM (σ × List (Exchange α)) β) (plain : StateM σ β) : Prop :=
  ∀ w, plain.run w.1 = ((action.run w).1, (action.run w).2.1)

theorem echoes_logging (note : β → Exchange α) (action : StateM σ β) :
    Echoes (logging note action) action := fun _ ↦ rfl

theorem echoes_silently (action : StateM σ β) :
    Echoes (α := α) (silently action) action := fun _ ↦ rfl

end Exchange

open Exchange (Echoes echoes_logging echoes_silently)

/-- A situation without the log. -/
def Situation.unlogged (p : Situation α (σ × List (Exchange α))) : Situation α σ :=
  ⟨p.journal, p.world.1⟩

/-! ### Likeness -/

/-- The likeness of a world with a log and the world alone. -/
def Likeness.unlogged (α σ : Type) : Likeness (σ × List (Exchange α)) σ where
  World w v := w.1 = v
  Read := Eq
  Written := Eq
  Failed := Eq
  Answered := Eq
  Reached _ := True
  read_of_written := id
  failed_of_ne _ _ := rfl
  isEngine_eq := congrArg Failure.isEngine

namespace Exchange

/-- An echo is alike under every relation that everything has to itself. -/
theorem Echoes.actions {R : β → β → Prop} {action : StateM (σ × List (Exchange α)) β}
    {plain : StateM σ β} (h : Echoes action plain) (hR : ∀ b, R b b) :
    (Likeness.unlogged α σ).Actions R action plain := by
  rintro w _ rfl
  rw [h w]
  exact ⟨hR _, rfl⟩

/-- In particular for results, compared as they are. -/
theorem Echoes.results {action : StateM (σ × List (Exchange α)) (Except Failure β)}
    {plain : StateM σ (Except Failure β)} (h : Echoes action plain) :
    (Likeness.unlogged α σ).Actions (ResultsAlike Eq Eq) action plain :=
  h.actions (.refl (fun _ ↦ rfl) fun _ ↦ rfl)

end Exchange

/-- A studio with a log and the studio itself are alike: every answer is the same. -/
theorem Studio.studios_logged (studio : Studio (StateM σ) α) :
    (Likeness.unlogged α σ).Studios studio.logged studio where
  run hij := by
    obtain rfl := hij.eq id id
    exact (echoes_logging _ _).results
  probe hab := by
    obtain rfl := hab
    exact (echoes_silently _).actions fun _ ↦ rfl
  resolve reference := (echoes_logging _ _).results
  draw picture hab := by
    obtain rfl := hab
    exact (echoes_logging _ _).results
  report stage := (echoes_silently _).actions fun _ ↦ trivial

/-! ### Mirrors -/

namespace RenderT

/-- A computation ends like another one, but for the log. -/
def Mirrors (x : RenderT α (StateM (σ × List (Exchange α))) β) (y : RenderT α (StateM σ) β) :
    Prop :=
  ∀ p, y.outcome p.unlogged = ((x.outcome p).1, (x.outcome p).2.unlogged)

namespace Mirrors

variable {x : RenderT α (StateM (σ × List (Exchange α))) β} {y : RenderT α (StateM σ) β}
  {f : β → RenderT α (StateM (σ × List (Exchange α))) γ} {g : β → RenderT α (StateM σ) γ}

theorem pure (b : β) : Mirrors (σ := σ) (α := α) (Pure.pure b) (Pure.pure b) := fun _ ↦ rfl

theorem get : Mirrors (σ := σ) (α := α) MonadState.get MonadState.get := fun _ ↦ rfl

theorem record (event : Event α) : Mirrors (σ := σ) (RenderT.record event) (RenderT.record event) :=
  fun _ ↦ rfl

/-- An echo on the outside is a mirror inside of the session. -/
theorem observe {action : StateM (σ × List (Exchange α)) β} {plain : StateM σ β}
    (h : Echoes action plain) : Mirrors (RenderT.observe action) (RenderT.observe plain) := by
  intro p
  show (Except.ok (plain.run p.world.1).1,
    (⟨p.journal, (plain.run p.world.1).2⟩ : Situation α σ)) = _
  rw [h p.world]
  rfl

/-- Likewise for an action that may fail. -/
theorem perform {action : StateM (σ × List (Exchange α)) (Except Failure β)}
    {plain : StateM σ (Except Failure β)} (h : Echoes action plain) :
    Mirrors (RenderT.perform action) (RenderT.perform plain) := by
  intro p
  show ((plain.run p.world.1).1, (⟨p.journal, (plain.run p.world.1).2⟩ : Situation α σ)) = _
  rw [h p.world]
  rfl

/-- A sequence of mirrors; both first parts fail together. -/
theorem bind (hx : Mirrors x y) (hf : ∀ b, Mirrors (f b) (g b)) :
    Mirrors (x >>= f) (y >>= g) := by
  intro p
  rw [outcome_bind, outcome_bind, hx p]
  rcases x.outcome p with ⟨e | b, t⟩
  · rfl
  · exact hf b t

theorem map (f : β → γ) (hx : Mirrors x y) : Mirrors (f <$> x) (f <$> y) := by
  rw [map_eq_pure_bind, map_eq_pure_bind]
  exact hx.bind fun b ↦ pure (f b)

end Mirrors

end RenderT

/-! ### Renders -/

namespace Studio

open RenderT (Mirrors)

variable [Scalar α] (studio : Studio (StateM σ) α)

omit [Scalar α] in
theorem mirrors_reach (stage : Stage) : Mirrors (studio.logged.reach stage) (studio.reach stage) :=
  (Mirrors.observe (echoes_silently _)).bind fun _ ↦ .record _

/-- The trace is written from journals that are the same. -/
theorem mirrors_leaveTrace (project : Project α) (c : Composition α) (output : Path)
    (duration : α) : Mirrors (studio.logged.leaveTrace project c output duration)
      (studio.leaveTrace project c output duration) :=
  Mirrors.get.bind fun _ ↦ (Mirrors.perform (echoes_silently _)).bind fun _ ↦ .pure _

/-- The delivery, whose publication is the only exchange in it. -/
theorem mirrors_deliver (project : Project α) (c : Composition α) (destination : Path)
    (options : RenderOptions) (rendered : RenderedFile α) :
    Mirrors (studio.logged.deliver project c destination options rendered)
      (studio.deliver project c destination options rendered) := by
  refine (studio.mirrors_reach _).bind fun _ ↦ (Mirrors.perform (echoes_logging _ _)).bind
    fun output ↦ (Mirrors.record _).bind fun _ ↦ ?_
  cases options.trace with
  | false => exact (Mirrors.pure none).bind fun _ ↦ (studio.mirrors_reach _).bind fun _ ↦ .pure _
  | true =>
    exact ((studio.mirrors_leaveTrace _ _ _ _).map some).bind fun _ ↦
      (studio.mirrors_reach _).bind fun _ ↦ .pure _

/-- A render with a log ends as it does without one. -/
theorem outcome_logged_render (project : Project α) (media : Manifest) (destination : Path)
    (settings : OutputSettings α) (options : RenderOptions)
    (p : Situation α (σ × List (Exchange α))) :
    (studio.render project media destination settings options).outcome p.unlogged =
      (((studio.logged.render project media destination settings options).outcome p).1,
        ((studio.logged.render project media destination settings options).outcome
          p).2.unlogged) := by
  -- two situations that are reached alike are the same, but for the log
  have hsame {p' : Situation α (σ × List (Exchange α))} {q' : Situation α σ}
      {events events' : List (Event α)}
      (hgoes : (Likeness.unlogged α σ).Goes p p.unlogged events events' p' q') :
      p'.unlogged = q' := by
    have hstart : p.journal.events = p.unlogged.journal.events := rfl
    have hjournal := hgoes.journal_eq id id id hstart
    have hworld := hgoes.situations.world
    cases q'
    exact congrArg₂ Situation.mk hjournal hworld
  -- both renders follow each other up to the assembled file; from there on the delivery mirrors
  refine studio.studios_logged.follows_render (fun _ _ ↦ trivial) (D := Eq)
    (Φ := fun x y ↦ y = (x.1, x.2.unlogged)) ?_ (fun _ _ ↦ rfl) (echoes_silently _).results ?_ ?_ ?_
    _ _ _ _ (.refl ⟨rfl, rfl⟩)
  · rintro dir _ rfl number label extension
    rfl
  · intro e e' events events' p' q' hgoes hfails
    rw [hsame hgoes]
    cases hfails with
    | plain he | job he => rw [show _ = _ from he]
  · rintro dir _ r r' p' q' rfl h
    obtain ⟨rfl, rfl⟩ := Prod.mk.inj h
    rfl
  · intro canvas file file' hfile events events' p' q' hgoes
    obtain rfl : file = file' := by
      cases file
      cases file'
      exact congrArg₂ RenderedFile.mk hfile.path hfile.duration_eq
    rw [← hsame hgoes]
    exact studio.mirrors_deliver project _ destination options file p'

/-- A render in a studio is one with a log. -/
theorem ends_logged_render {project : Project α} {media : Manifest} {destination : Path}
    {settings : OutputSettings α} {options : RenderOptions} {p q : Situation α σ}
    {r : Except Failure (RenderReport α)}
    (h : (studio.render project media destination settings options).Ends p r q) :
    ∃ log, (studio.logged.render project media destination settings options).Ends
      ⟨p.journal, p.world, []⟩ r ⟨q.journal, q.world, log⟩ := by
  have hrender := studio.outcome_logged_render project media destination settings options
    ⟨p.journal, p.world, []⟩
  obtain ⟨rfl, rfl⟩ := (RenderT.ends_of_outcome_eq hrender).1 h
  exact ⟨_, rfl⟩

end Studio

end Splice
