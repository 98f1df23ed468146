import Splice.Proofs.Render.Progress
import Splice.Proofs.Render.Supplies

/-!
# What a failed render leaves behind

A project without clips or with faults is refused after nothing but the first stage. A render that
fails before it publishes its result has reached the first of the stages, does the same with every
other way to publish, and leaves the destination as it was (`Studio.failsCleanly_of_ends_render`).

The render is compared with one that delivers otherwise: by `Likeness.Studios.follows_render` they
are the same until a result is published. What the world keeps meanwhile is an invariant of the
likeness (`Studio.Keeps`), and that a project is called empty for its clips only is read off the
failures that the likeness knows.
-/

namespace Splice

variable {α σ β γ : Type}

/-! ### The check -/

section Check

variable [Scalar α] {project : Project α} {settings : OutputSettings α}

/-- A fault of the project or of the format asked for is among the faults of the check. -/
theorem Project.faults_ne_nil (h : project.issues ≠ [] ∨ settings.issues ≠ []) :
    project.faults settings ≠ [] := by
  intro hnone
  obtain ⟨hissues, hsettings⟩ := List.append_eq_nil_iff.1 hnone
  rw [List.map_eq_nil_iff] at hissues
  rw [hissues] at hsettings
  rcases h with h | h
  · exact h hissues
  · exact h (by simpa using hsettings)

/-- A project without clips is refused as empty, before its faults are looked at. -/
theorem Project.check_of_isEmpty (h : project.isEmpty = true) :
    project.check settings = .error .emptyProject := if_pos h

/-- A project with faults is refused with all of them in one line. -/
theorem Project.check_of_issues (hempty : project.isEmpty = false)
    (h : project.issues ≠ [] ∨ settings.issues ≠ []) :
    project.check settings = .error (.invalid ("; ".intercalate (project.faults settings))) := by
  rw [check, if_neg (by rw [hempty]; exact Bool.false_ne_true),
    if_neg (by simpa using faults_ne_nil h)]

/-- The check calls no other project empty. -/
theorem Project.isEmpty_of_check {e : Failure} (h : project.check settings = .error e)
    (he : e = .emptyProject) : project.isEmpty = true := by
  subst he
  rw [check] at h
  split_ifs at h
  · assumption
  · cases h

end Check

/-! ### Failures -/

namespace RenderT

/-- Every failure of the computation has a property. -/
def Raises (P : Failure → Prop) (x : RenderT α (StateM σ) β) : Prop :=
  ∀ p e q, x.Ends p (.error e) q → P e

namespace Raises

variable {P : Failure → Prop} {x : RenderT α (StateM σ) β}

/-- What never fails has no failure to look at. -/
theorem of_never (h : ∀ p e q, ¬ x.Ends p (.error e) q) : x.Raises P :=
  fun p e q hends ↦ absurd hends (h p e q)

theorem pure (b : β) : (Pure.pure b : RenderT α (StateM σ) β).Raises P :=
  of_never fun _ _ _ h ↦ nomatch (ends_pure.1 h).1

theorem perform {action : StateM σ (Except Failure β)}
    (h : ∀ w e, (action.run w).1 = .error e → P e) :
    (RenderT.perform action : RenderT α (StateM σ) β).Raises P :=
  fun p e _ hends ↦ h p.world e (ends_perform.1 hends).1.symm

/-- A failure of two computations in a row is one of either. -/
theorem bind {f : β → RenderT α (StateM σ) γ} (hx : x.Raises P) (hf : ∀ b, (f b).Raises P) :
    (x >>= f).Raises P := by
  intro p e q h
  rcases ends_bind.1 h with ⟨b, t, -, hrest⟩ | ⟨e', hfirst, he⟩
  · exact hf b t e q hrest
  · exact Except.error.inj he ▸ hx p e' q hfirst

end Raises

end RenderT

/-! ### A run beside itself -/

/-- Two runs from one situation that are alike in this way are one. -/
theorem Likeness.Goes.eq_self {I : σ → Prop} {W : Path → Prop} {E : Prop} {S : Stage → Prop}
    {p p' q' : Situation α σ} {a b : List (Event α)} (h : (self I W E S).Goes p p a b p' q') :
    p' = q' := by
  have hjournal := h.journal_eq id And.left id rfl
  have hworld := h.situations.world.1
  cases p'
  cases q'
  exact congrArg₂ Situation.mk hjournal hworld

/-! ### Failed renders -/

namespace Studio

open RenderT (Ends Raises ends_bind ends_bind_of_ok)
open Likeness (self)

variable {studio : Studio (StateM σ) α} {p q : Situation α σ}

/-- A situation after nothing but the first stage was reported. -/
def validated (studio : Studio (StateM σ) α) (p : Situation α σ) : Situation α σ :=
  ⟨{ p.journal with events := p.journal.events ++ [.reached .validating] },
    ((studio.report .validating).run p.world).2⟩

/-- Neither the storage nor the workspace calls a project empty. -/
structure CallsNoneEmpty (studio : Studio (StateM σ) α) : Prop where
  keeps : studio.Keeps (fun _ ↦ True) (fun _ ↦ True) False
  publish : ∀ rendered destination w,
    ((studio.storage.publish rendered destination).run w).1 ≠ .error .emptyProject
  write : ∀ path text w, ((studio.workspace.write path text).run w).1 ≠ .error .emptyProject

/-- Neither the storage in a directory nor the workspace on a machine does. -/
theorem CallsNoneEmpty.of_host {host disk : Host (StateM σ)} {root : Path}
    (hstorage : studio.storage = .folder disk root) (hworkspace : studio.workspace = .ofHost host) :
    studio.CallsNoneEmpty := by
  have hcivil {β : Type} {r : Except Failure β} (h : IsCivil r) : r ≠ .error .emptyProject :=
    fun he ↦ nomatch h _ he
  -- what the machine answers is civil; only a source that is not found has to be looked at
  exact {
    keeps := { studio.keeps_true with
      resolve := fun reference w _ ↦ by
        rw [hstorage]
        refine ⟨fun he ↦ ?_, trivial⟩
        rw [Storage.folder, StateT.run_bind] at he
        generalize (disk.isFile (root.join reference)).run w = found at he
        rcases found with ⟨_ | _, _⟩
        · cases he
        · cases he
      draw := fun path picture _ w _ ↦ by
        rw [hworkspace]
        exact ⟨hcivil (Workspace.isCivil_draw host path picture w), trivial⟩
      openDir := fun root? w _ ↦ by
        rw [hworkspace]
        exact ⟨⟨hcivil (Workspace.isCivil_makeDir host root? w), fun _ _ _ _ ↦ trivial⟩, trivial⟩ }
    publish := fun rendered destination w ↦ by
      rw [hstorage]
      exact hcivil (Storage.isCivil_copyOut disk rendered destination w)
    write := fun path text w ↦ by
      rw [hworkspace]
      exact hcivil (Workspace.isCivil_write host path text w) }

/-- Until it publishes a result, a studio leaves a path alone as long as it writes other files. -/
def LeavesAlone (look : σ → Path → Option String) (path : Path) (studio : Studio (StateM σ) α) :
    Prop :=
  ∀ text?, studio.Keeps (fun w ↦ look w path = text?) (· ≠ path) True

variable [Scalar α] {project : Project α} {media : Manifest} {destination : Path}
  {settings : OutputSettings α} {options : RenderOptions} {r : Except Failure (RenderReport α)}

/-- A render of a project that is refused ends right after its first stage. -/
theorem ends_render_of_check {e : Failure}
    (hcheck : project.check (settings.or project.outputSettings) = .error e)
    (h : (studio.render project media destination settings options).Ends p r q) :
    r = .error e ∧ q = studio.validated p := by
  rw [render, ends_bind_of_ok (ends_reach.2 ⟨rfl, rfl⟩)] at h
  rcases ends_bind.1 h with ⟨_, t, hpassed, -⟩ | ⟨e', hfailed, rfl⟩
  · cases hcheck.symm.trans (RenderT.ends_ofExcept.1 hpassed).1.symm
  · obtain ⟨he, rfl⟩ := RenderT.ends_ofExcept.1 hfailed
    exact ⟨congrArg _ (Except.error.inj (he.trans hcheck)), rfl⟩

/-- What fails while it is delivered could not be published, or its trace could not be written. -/
theorem raises_deliver {P : Failure → Prop} {c : Composition α} {file : RenderedFile α}
    (hpublish : ∀ w e, ((studio.storage.publish file.path destination).run w).1 = .error e → P e)
    (hwrite : ∀ path text w e, ((studio.workspace.write path text).run w).1 = .error e → P e) :
    (studio.deliver project c destination options file).Raises P := by
  have hreach (stage : Stage) : (studio.reach stage : RenderT α (StateM σ) Unit).Raises P :=
    .of_never fun _ _ _ h ↦ nomatch (ends_reach.1 h).1
  have hcomplete (report : RenderReport α) :
      (studio.reach .complete >>= fun _ ↦ pure report :
        RenderT α (StateM σ) (RenderReport α)).Raises P :=
    (hreach .complete).bind fun _ ↦ .pure report
  refine (hreach .finalizing).bind fun _ ↦ (Raises.perform hpublish).bind fun output ↦
    (Raises.of_never fun _ _ _ h ↦ nomatch (Session.ends_record.1 h).1).bind fun _ ↦ ?_
  cases options.trace with
  | false => exact (Raises.pure none).bind fun _ ↦ hcomplete _
  | true =>
    have hleave : (studio.leaveTrace project c output file.duration).Raises P :=
      (Raises.of_never fun _ _ _ h ↦ nomatch (RenderT.ends_get.1 h).1).bind fun _ ↦
        (Raises.perform (hwrite _ _)).bind fun _ ↦ .pure _
    exact (hleave.bind fun _ ↦ .pure _).bind fun _ ↦ hcomplete _

/-- Ends of two renders, of which the first one begins in a situation. -/
structure EndsSpared (I : σ → Prop) (E : Prop) (p : Situation α σ)
    (x y : Except Failure (RenderReport α) × Situation α σ) : Prop where
  /-- The project may be called empty, or the engine calls it so at the last job. -/
  empty : x.1 = .error .emptyProject →
    E ∨ ∃ events job, x.2.journal.events = events ++ [.ran job (some .emptyProject)]
  /-- A result was to be published, or the end is the same, and the invariant is kept. -/
  early : ∃ events, p.Adds events x.2 ∧
    (.finalizing ∈ events.filterMap Event.stage? ∨ x = y ∧ I x.2.world)

variable {I : σ → Prop} {W : Path → Prop} {E : Prop}

omit [Scalar α] in
/-- If no result was to be published, both renders end in the same way. -/
theorem EndsSpared.same {x y : Except Failure (RenderReport α) × Situation α σ}
    (h : EndsSpared I E p x y) {events : List (Event α)} (hadds : p.Adds events x.2)
    (hfinalizing : .finalizing ∉ events.filterMap Event.stage?) : x = y ∧ I x.2.world := by
  obtain ⟨events', hadds', hearly⟩ := h.early
  obtain rfl : events = events' := List.append_cancel_left (hadds.symm.trans hadds')
  exact hearly.resolve_left hfinalizing

omit [Scalar α] in
/-- A failure before the delivery is that of the other render too. -/
theorem endsSpared_of_fails {S : Stage → Prop} {e e' : Failure} {events events' : List (Event α)}
    {p' q' : Situation α σ} (hgoes : (self I W E S).Goes p p events events' p' q')
    (hfails : (self I W E S).Fails e e' events events') :
    EndsSpared I E p (.error e, p') (.error e', q') := by
  obtain rfl := hgoes.eq_self
  refine ⟨fun he ↦ ?_, events, hgoes.left, .inr ⟨?_, hgoes.situations.world.2⟩⟩
  · obtain rfl := Except.error.inj he
    cases hfails with
    | plain hfailed => exact .inl (hfailed.2 rfl)
    | @job front _ i =>
      refine .inr ⟨p.journal.events ++ front, i, ?_⟩
      rw [List.append_assoc]
      exact hgoes.left
  · cases hfails with
    | plain hfailed => rw [hfailed.1]
    | job hanswered => rw [show _ = _ from hanswered]

section Delivery

variable (hpublish : ∀ rendered w e, ((studio.storage.publish rendered destination).run w).1 =
    .error e → e = .emptyProject → E)
  (hwrite : ∀ path text w e,
    ((studio.workspace.write path text).run w).1 = .error e → e = .emptyProject → E)

include hpublish hwrite

/-- When the delivery begins, a result is to be published. -/
theorem endsSpared_of_deliver {c : Composition α} {file : RenderedFile α} {events : List (Event α)}
    {p' : Situation α σ} (hadds : p.Adds events p')
    (y : Except Failure (RenderReport α) × Situation α σ) :
    EndsSpared I E p ((studio.deliver project c destination options file).outcome p') y := by
  set x := studio.deliver project c destination options file
  obtain ⟨last, hlast, hstage, -⟩ :=
    leaves_deliver project c destination options file p' (x.outcome p').1 (x.outcome p').2 rfl
  refine ⟨fun he ↦ .inl ?_, events ++ last, hadds.trans hlast, .inl ?_⟩
  · have hends : x.Ends p' (.error .emptyProject) (x.outcome p').2 := Prod.ext he rfl
    exact raises_deliver (hpublish _) hwrite p' _ _ hends rfl
  · rw [List.filterMap_append]
    exact List.mem_append_right _ hstage

/-- What a studio keeps, it keeps until a result is published, and so does any other one that only
delivers otherwise. -/
theorem Keeps.endsSpared (h : studio.Keeps I W E) (hempty : project.isEmpty = true → E)
    (hp : I p.world)
    (hends : (studio.render project media destination settings options).Ends p r q)
    (publish : Path → Path → StateM σ (Except Failure Path))
    (write : Path → String → StateM σ (Except Failure Unit)) :
    EndsSpared I E p (r, q) (((studio.delivering publish write).render project media destination
      settings options).outcome p) := by
  rw [← show _ = (r, q) from hends]
  refine (h.studios (fun _ ↦ True) publish write).follows_render (fun _ _ ↦ trivial)
    (D := fun dir dir' ↦ dir = dir' ∧ dir.HoldsOnly W) ?_ ?_ ?_
    (fun _ _ _ _ _ _ ↦ endsSpared_of_fails) ?_
    (fun _ _ _ _ _ _ _ _ hgoes ↦ endsSpared_of_deliver hpublish hwrite hgoes.left _) _ _ _ _
    (.refl ⟨rfl, rfl, hp⟩)
  · rintro dir _ ⟨rfl, hdir⟩ number label extension
    exact ⟨rfl, hdir _ (isAbsolute_freshName _ _ _)⟩
  · exact fun e he ↦ ⟨rfl, fun hcase ↦ hempty (Project.isEmpty_of_check he hcase)⟩
  · exact Likeness.actions_self (h.openDir _) fun r hr ↦
      Likeness.results_self hr.1 fun dir hdir ↦ ⟨rfl, hr.2 dir hdir⟩
  · -- the directory is removed from both worlds
    rintro dir _ r r' p' q' ⟨rfl, hdir⟩ ⟨hcalled, events, hadds, hearly⟩
    refine ⟨hcalled, events, hadds, hearly.imp_right ?_⟩
    rintro ⟨hsame, hI⟩
    obtain ⟨rfl, rfl⟩ := Prod.mk.inj hsame
    exact ⟨rfl, h.closeDir dir hdir _ hI⟩

end Delivery

/-- A project that is called empty is so, or the engine has said it of the last job. -/
theorem isEmpty_of_ends_render (hcalls : studio.CallsNoneEmpty)
    (h : (studio.render project media destination settings options).Ends p r q)
    (hr : r = .error .emptyProject) : project.isEmpty = true ∨
      ∃ events job, q.journal.events = events ++ [.ran job (some .emptyProject)] := by
  cases hempty : project.isEmpty with
  | true => exact .inl rfl
  | false =>
    have hspared := hcalls.keeps.endsSpared
      (fun rendered w e he hcase ↦ hcalls.publish rendered destination w (hcase ▸ he))
      (fun path text w e he hcase ↦ hcalls.write path text w (hcase ▸ he))
      (fun h ↦ Bool.false_ne_true (hempty.symm.trans h)) trivial h studio.storage.publish
      studio.workspace.write
    exact .inr ((hspared.empty hr).resolve_left id)

/-- What a render leaves behind if it fails. -/
structure FailsCleanly (studio : Studio (StateM σ) α) (project : Project α) (media : Manifest)
    (destination : Path) (settings : OutputSettings α) (options : RenderOptions)
    (p : Situation α σ) (r : Except Failure (RenderReport α)) (q : Situation α σ) : Prop where
  /-- A project without clips is called empty, and nothing else happens. -/
  empty : project.isEmpty = true → r = .error .emptyProject ∧ q = studio.validated p
  /-- No other project is, unless the engine says so to the last job. -/
  isEmpty : studio.CallsNoneEmpty → r = .error .emptyProject → project.isEmpty = true ∨
    ∃ events job, q.journal.events = events ++ [.ran job (some .emptyProject)]
  /-- With media in a directory and a workspace on a machine, only the engine can say so. -/
  isEmpty_of_host : ∀ host disk root, studio.storage = .folder disk root →
    studio.workspace = .ofHost host → r = .error .emptyProject → project.isEmpty = true ∨
      ∃ events job, q.journal.events = events ++ [.ran job (some .emptyProject)]
  /-- A project with faults is refused with all of them, and nothing else happens. -/
  faulty : project.isEmpty = false →
    project.issues ≠ [] ∨ (settings.or project.outputSettings).issues ≠ [] →
    r = .error (.invalid
      ("; ".intercalate (project.faults (settings.or project.outputSettings)))) ∧
      q = studio.validated p
  /-- Before a result is published, a failed render has reached the first of the early stages, does
  the same with every other way to publish, and leaves the destination alone. -/
  early : ∃ events, p.Adds events q ∧ events.filterMap Event.stage? <+: Stage.all ∧
    ∀ e, r = .error e → .finalizing ∉ events.filterMap Event.stage? →
      events.filterMap Event.stage? <+: Stage.early ∧
      (∀ publish write, ((studio.delivering publish write).render project media destination
        settings options).Ends p r q) ∧
      ∀ look, ∀ path ∈ [destination, traceFile destination], studio.LeavesAlone look path →
        look q.world path = look p.world path

/-- A failed render leaves the destination alone. -/
theorem failsCleanly_of_ends_render
    (h : (studio.render project media destination settings options).Ends p r q) :
    studio.FailsCleanly project media destination settings options p r q where
  empty hempty := ends_render_of_check (Project.check_of_isEmpty hempty) h
  faulty hempty hissues := ends_render_of_check (Project.check_of_issues hempty hissues) h
  isEmpty hcalls := isEmpty_of_ends_render hcalls h
  isEmpty_of_host _ _ _ hstorage hworkspace :=
    isEmpty_of_ends_render (.of_host hstorage hworkspace) h
  early := by
    obtain ⟨events, hadds, hstages, -⟩ := climbs_render project media destination settings options
      p r q h
    refine ⟨events, hadds, hstages, fun e he hfinalizing ↦
      ⟨Stage.prefix_early hstages hfinalizing, fun publish write ↦ ?_, ?_⟩⟩
    · have hspared := studio.keeps_true.endsSpared (fun _ _ _ _ _ ↦ trivial)
        (fun _ _ _ _ _ _ ↦ trivial) (fun _ ↦ trivial) trivial h publish write
      exact (hspared.same hadds hfinalizing).1.symm
    · intro look path _ halone
      have hspared := (halone (look p.world path)).endsSpared (fun _ _ _ _ _ ↦ trivial)
        (fun _ _ _ _ _ _ ↦ trivial) (fun _ ↦ trivial) rfl h studio.storage.publish
        studio.workspace.write
      exact (hspared.same hadds hfinalizing).2

end Studio

/-! ### The sample -/

namespace Sample

/-- What the world of a sample studio tells of a file. -/
def made? (w : List Path × ℕ) (path : Path) : Option String :=
  if path ∈ w.1 then some "made" else none

theorem leavesAlone_studioIn [Scalar α] (refuses : Job α → Bool) {dir path : Path}
    (hdir : dir.HoldsOnly (· ≠ path)) (step : ℕ) :
    (studioIn refuses dir step).LeavesAlone made? path := by
  have hother {other : Path} (hne : other ≠ path) (files : List Path) (n : ℕ) :
      made? (other :: files, n) path = made? (files, n) path := by
    simp only [made?, List.mem_cons, or_iff_right hne.symm]
  intro text?
  exact {
    report := fun _ _ h ↦ h
    probe := fun _ _ h ↦ h
    run := fun job hwritten w h ↦ by
      have houtput : job.output ∈ job.written := by cases job <;> exact List.mem_cons_self
      show made? (ite _ _ _ : Except Failure Unit × List Path × ℕ).2 path = text?
      split_ifs
      · exact h
      · exact (hother (hwritten _ houtput) _ _).trans h
    resolve := fun _ _ h ↦ ⟨fun _ ↦ trivial, h⟩
    draw := fun _ _ hne _ h ↦ ⟨fun _ ↦ trivial, (hother hne _ _).trans h⟩
    openDir := fun _ _ h ↦ ⟨⟨fun _ ↦ trivial, fun _ hopened ↦ Except.ok.inj hopened ▸ hdir⟩, h⟩
    closeDir := fun _ _ _ h ↦ h }

end Sample

/-- The engine refuses to put the pieces of the sample one after another. -/
theorem Studio.failsCleanly_sample : ∃ e q,
    ((Sample.studioIn Sample.isConcat ⟨"work"⟩ 1).render (Sample.project : Project Exact)
      Sample.media ⟨"out.mp4"⟩ {} {}).Ends ⟨{}, [], 0⟩ (.error e) q ∧
    .finalizing ∉ q.journal.stages ∧ q.journal.stages <+: Stage.early ∧ q.journal.jobs ≠ [] ∧
    Sample.made? q.world ⟨"out.mp4"⟩ = none := by
  set x := (Sample.studioIn Sample.isConcat ⟨"work"⟩ 1).render (Sample.project : Project Exact)
    Sample.media ⟨"out.mp4"⟩ {} {} with hx
  -- the run is computed once, and all but its outcome follows from the theorem
  have hfails : (x.outcome ⟨{}, [], 0⟩).1.isOk = false ∧
      .finalizing ∉ (x.outcome ⟨{}, [], 0⟩).2.journal.stages ∧
      (x.outcome ⟨{}, [], 0⟩).2.journal.jobs ≠ [] := by
    rw [hx, Sample.outcome_render (by cbv)]
    decide +kernel
  rcases hends : x.outcome ⟨{}, [], 0⟩ with ⟨e | report, q⟩
  · rw [hends] at hfails
    obtain ⟨-, hfinalizing, hjobs⟩ := hfails
    obtain ⟨events, hadds, -, hearly⟩ := (failsCleanly_of_ends_render hends).early
    obtain rfl : q.journal.events = events := hadds
    obtain ⟨hstages, -, hkept⟩ := hearly e rfl hfinalizing
    have hdir : Path.HoldsOnly (· ≠ ⟨"out.mp4"⟩) ⟨"work"⟩ := by
      intro name hname hout
      have hchars := congrArg (fun path ↦ path.text.toList.head?) hout
      rw [Path.join, hname] at hchars
      simp [Path.endsInSlash] at hchars
    exact ⟨e, q, hends, hfinalizing, hstages, hjobs, hkept Sample.made? _ List.mem_cons_self
      (Sample.leavesAlone_studioIn _ hdir 1)⟩
  · rw [hends] at hfails
    cases hfails.1

end Splice
