import Splice.Proofs.Render.Run
import Splice.Render.Studio

/-!
# Exchanges

What a studio is asked, and what it answers. Any studio can be made to keep a log of that
(`Studio.logged`), in the order of the exchanges; the answers stay what they are. The log says what
the journal of a session does not: which stored references were resolved, to which paths, and which
file was published.

`RenderT.Meets` is the calculus for statements about all runs of a computation: one condition holds
wherever a run ends, another one of its result where it succeeds.
-/

namespace Splice

variable {α σ β γ ω : Type}

/-- Something that a studio is asked in the course of a render, with the answer. -/
inductive Exchange (α : Type) where
  | resolved (reference : String) (answer : Except Failure Path)
  | ran (job : Job α) (answer : Except Failure Unit)
  | drew (path : Path) (answer : Except Failure Unit)
  | published (rendered destination : Path) (answer : Except Failure Path)

namespace Exchange

/-- Does something in a world, and adds it to a log. -/
def logging (note : β → Exchange α) (action : StateM σ β) : StateM (σ × List (Exchange α)) β :=
  fun (world, log) ↦
    let (answer, after) := action.run world
    (answer, after, log ++ [note answer])

/-- Does something in a world, and leaves the log as it is. -/
def silently (action : StateM σ β) : StateM (σ × List (Exchange α)) β :=
  fun (world, log) ↦
    let (answer, after) := action.run world
    (answer, after, log)

/-- The job that was done in an exchange. -/
def done? : Exchange α → Option (Job α)
  | ran job (.ok ()) => some job
  | _ => none

/-- The jobs that were done, in order. -/
def done (log : List (Exchange α)) : List (Job α) := log.filterMap done?

@[simp] theorem done_nil : done ([] : List (Exchange α)) = [] := rfl

theorem done_append (a b : List (Exchange α)) : done (a ++ b) = done a ++ done b :=
  List.filterMap_append

/-- No job was done in a log without jobs. -/
theorem done_eq_nil {log : List (Exchange α)}
    (h : ∀ exchange ∈ log, ∀ job answer, exchange ≠ .ran job answer) : done log = [] := by
  refine List.filterMap_eq_nil_iff.2 fun exchange hexchange ↦ ?_
  cases exchange with
  | ran job answer => exact absurd rfl (h _ hexchange job answer)
  | _ => rfl

end Exchange

open Exchange (logging silently)

/-- The studio that answers like another one, and keeps a log. -/
def Studio.logged (studio : Studio (StateM σ) α) : Studio (StateM (σ × List (Exchange α))) α where
  engine := {
    run := fun job ↦ logging (.ran job) (studio.engine.run job)
    probe := fun path ↦ silently (studio.engine.probe path) }
  storage := {
    resolve := fun reference ↦ logging (.resolved reference) (studio.storage.resolve reference)
    publish := fun rendered destination ↦
      logging (.published rendered destination) (studio.storage.publish rendered destination) }
  workspace := {
    openDir := fun root? ↦ silently (studio.workspace.openDir root?)
    closeDir := fun path ↦ silently (studio.workspace.closeDir path)
    draw := fun path picture ↦ logging (.drew path) (studio.workspace.draw path picture)
    write := fun path text ↦ silently (studio.workspace.write path text) }
  report := fun stage ↦ silently (studio.report stage)

/-! ### References -/

/-- The file that a reference stands for, if there is one. -/
def Storage.fetch {m : Type → Type} [Monad m] (storage : Storage m) (reference? : Option String)
    (missing : Failure) : m (Except Failure Path) :=
  match reference? with
  | some reference => storage.resolve reference
  | none => return .error missing

/-- A source is fetched by its entry in the manifest. -/
theorem Storage.source_eq {m : Type → Type} [Monad m] (storage : Storage m) (media : Manifest)
    (id : String) :
    storage.source media id = storage.fetch (media.sources.lookup id) (.missingSource id) := rfl

theorem Storage.asset_eq {m : Type → Type} [Monad m] (storage : Storage m) (media : Manifest)
    (id : String) :
    storage.asset media id = storage.fetch (media.assets.lookup id) (.missingAsset id) := rfl

/-! ### A calculus for all runs -/

namespace RenderT

/-- Wherever a run from a situation ends, one condition holds, and if it succeeds, another one holds
of its result. -/
def Meets (invariant : Situation α ω → Prop) (p : Situation α ω) (x : RenderT α (StateM ω) β)
    (post : β → Situation α ω → Prop) : Prop :=
  ∀ r q, x.Ends p r q → invariant q ∧ ∀ b, r = .ok b → post b q

namespace Meets

variable {invariant : Situation α ω → Prop} {p : Situation α ω} {x : RenderT α (StateM ω) β}
  {f : β → RenderT α (StateM ω) γ} {middle post : β → Situation α ω → Prop}
  {last : γ → Situation α ω → Prop}

/-- A sequence, from where its first part succeeds. The condition on all ends has to hold of the
first part as well, which may be the last that runs. -/
theorem bind (hx : Meets invariant p x middle)
    (hf : ∀ b t, middle b t → Meets invariant t (f b) last) : Meets invariant p (x >>= f) last := by
  intro r q h
  rcases ends_bind.1 h with ⟨b, t, hb, hrest⟩ | ⟨e, he, rfl⟩
  · exact hf b t ((hx _ t hb).2 b rfl) r q hrest
  · exact ⟨(hx _ q he).1, nofun⟩

/-- Less may be asked of the result. -/
theorem mono (hx : Meets invariant p x middle) (h : ∀ b t, middle b t → post b t) :
    Meets invariant p x post :=
  fun r q hends ↦ ⟨(hx r q hends).1, fun b hb ↦ h b q ((hx r q hends).2 b hb)⟩

theorem pure {b : β} (hp : invariant p) (h : post b p) :
    Meets invariant p (Pure.pure b) post := by
  intro r q hends
  obtain ⟨rfl, rfl⟩ := ends_pure.1 hends
  exact ⟨hp, fun b' hb' ↦ Except.ok.inj hb' ▸ h⟩

/-- A failure has no result, so nothing is asked of one. -/
theorem throw {e : Failure} (hp : invariant p) :
    Meets invariant p (MonadExcept.throw e) post := by
  intro r q hends
  obtain ⟨rfl, rfl⟩ := ends_throw.1 hends
  exact ⟨hp, nofun⟩

end Meets

end RenderT

/-! ### Sessions that keep a log -/

/-- The log in a situation. -/
def Situation.log (p : Situation α (σ × List (Exchange α))) : List (Exchange α) := p.world.2

/-- Nothing is added to the log, and no name is given to a file. -/
structure Situation.Rests (p q : Situation α (σ × List (Exchange α))) : Prop where
  log_eq : q.log = p.log
  count_eq : q.journal.freshCount = p.journal.freshCount

/-- A log grows by an exchange, and no name is given to a file. -/
structure Situation.Notes (p : Situation α (σ × List (Exchange α))) (exchange : Exchange α)
    (q : Situation α (σ × List (Exchange α))) : Prop where
  log_eq : q.log = p.log ++ [exchange]
  count_eq : q.journal.freshCount = p.journal.freshCount

/-- A session in which every exchange is logged. -/
structure Session.IsLogged (s : Session (StateM (σ × List (Exchange α))) α) : Prop where
  run : ∀ job, ∃ action, s.engine.run job = logging (.ran job) action
  probe : ∀ path, ∃ action, s.engine.probe path = silently action
  resolve : ∀ reference, ∃ action,
    s.storage.resolve reference = logging (.resolved reference) action
  draw : ∀ path picture, ∃ action, s.draw path picture = logging (.drew path) action

namespace Situation.Rests

variable {p q r : Situation α (σ × List (Exchange α))}

theorem refl (p : Situation α (σ × List (Exchange α))) : p.Rests p := ⟨rfl, rfl⟩

theorem trans (h : p.Rests q) (h' : q.Rests r) : p.Rests r :=
  ⟨h'.log_eq.trans h.log_eq, h'.count_eq.trans h.count_eq⟩

end Situation.Rests

namespace RenderT

variable {p q : Situation α (σ × List (Exchange α))}

/-- What is not logged leaves the log as it is. -/
theorem rests_of_ends_observe {action : StateM σ β} {r : Except Failure β}
    (h : (observe (silently action) : RenderT α (StateM (σ × List (Exchange α))) β).Ends p r q) :
    p.Rests q := by
  obtain ⟨-, rfl⟩ := ends_observe.1 h
  exact ⟨rfl, rfl⟩

theorem rests_of_ends_perform {action : StateM σ (Except Failure β)} {r : Except Failure β}
    (h : (perform (silently action) : RenderT α (StateM (σ × List (Exchange α))) β).Ends p r q) :
    p.Rests q := by
  obtain ⟨-, rfl⟩ := ends_perform.1 h
  exact ⟨rfl, rfl⟩

/-- What is logged is in the log with its answer, whether or not that is a failure. -/
theorem notes_of_ends_perform {note : Except Failure β → Exchange α}
    {action : StateM σ (Except Failure β)} {r : Except Failure β}
    (h : (perform (logging note action) : RenderT α (StateM (σ × List (Exchange α))) β).Ends p r
      q) :
    p.Notes (note r) q := by
  obtain ⟨rfl, rfl⟩ := ends_perform.1 h
  exact ⟨rfl, rfl⟩

theorem rests_of_ends_ofExcept {x r : Except Failure β}
    (h : (MonadExcept.ofExcept x : RenderT α (StateM (σ × List (Exchange α))) β).Ends p r q) :
    p.Rests q := by
  obtain ⟨-, rfl⟩ := ends_ofExcept.1 h
  exact .refl _

/-- Events stand in the journal and not in the log. -/
theorem rests_of_ends_record {event : Event α} {r : Except Failure Unit}
    (h : (record event : RenderT α (StateM (σ × List (Exchange α))) Unit).Ends p r q) :
    p.Rests q := by
  obtain ⟨-, rfl⟩ := Session.ends_record.1 h
  exact ⟨rfl, rfl⟩

end RenderT

namespace Session

open RenderT

variable {s : Session (StateM (σ × List (Exchange α))) α}
  {p q : Situation α (σ × List (Exchange α))}

/-- Probes are not logged, so a look at a file leaves no trace. -/
theorem rests_of_ends_inspect (hs : s.IsLogged) {path : Path}
    {r : Except Failure (Option (MediaInfo α))} (h : (s.inspect path).Ends p r q) : p.Rests q := by
  obtain ⟨action, hprobe⟩ := hs.probe path
  rw [inspect, hprobe] at h
  rcases ends_bind.1 h with ⟨answer, t, hobserve, h⟩ | ⟨_, hobserve, -⟩
  · cases answer with
    | ok info =>
      obtain ⟨-, rfl⟩ := ends_pure.1 h
      exact rests_of_ends_observe hobserve
    | error e =>
      obtain ⟨-, rfl⟩ := ends_pure.1 h
      exact rests_of_ends_observe hobserve
  · exact rests_of_ends_observe hobserve

end Session

end Splice
