import Splice.Proofs.Render.Supplies

/-!
# What validation approves

If a project is validated together with a manifest and nothing is found wrong with it, it can be
planned and rendered. In particular that holds of what the command loads, if the command succeeds
(`Command.exists_isRenderable_of_runValidate`).

The check of the command and the stages of a render look up references on their own, and each has
its own case distinctions. What they share is stated once, in `Clip.IsFound`: validation establishes
it for every clip (`Command.Inputs.isSupplied_of_allMessages`), and a render needs nothing else of a
storage (`Command.Inputs.IsSupplied.isRenderable`).

The storage and the engine may depend on a world, which every call may change. An invariant of the
world says what does not change between the calls: as long as it holds, the storage has the same
answer for the same reference (`Storage.IsSteady`).
-/

namespace Splice

variable {α σ β γ : Type} {I : σ → Prop}

/-! ### Steady storages -/

/-- Under the invariant, the answers of a storage to a reference do not change. -/
def Storage.IsSteady (I : σ → Prop) (storage : Storage (StateM σ)) : Prop :=
  ∀ reference, ∃ answer, Upholds I (fun found ↦ found = answer) (storage.resolve reference)

namespace Storage.IsSteady

variable {storage : Storage (StateM σ)}

/-- A steady storage has the same answer for a source every time. -/
theorem source (h : storage.IsSteady I) (media : Manifest) (id : String) :
    ∃ answer, Upholds I (fun found ↦ found = answer) (storage.source media id) := by
  rw [Storage.source]
  cases media.sources.lookup id with
  | none => exact ⟨_, .pure rfl⟩
  | some reference => exact h reference

/-- And for an asset. -/
theorem asset (h : storage.IsSteady I) (media : Manifest) (id : String) :
    ∃ answer, Upholds I (fun found ↦ found = answer) (storage.asset media id) := by
  rw [Storage.asset]
  cases media.assets.lookup id with
  | none => exact ⟨_, .pure rfl⟩
  | some reference => exact h reference

end Storage.IsSteady

/-- Of an action whose answer does not change, one answer tells all. -/
theorem Finds.of_run {action : StateM σ (Except Failure Path)}
    (hsteady : ∃ answer, Upholds I (fun found ↦ found = answer) action) {w : σ} (hw : I w)
    {path : Path} (h : (action.run w).1 = .ok path) : Finds I action := by
  obtain ⟨answer, hanswer⟩ := hsteady
  have hpath : answer = .ok path := (hanswer w hw).1.symm.trans h
  exact ⟨path, hpath ▸ hanswer⟩

namespace Command

variable {inputs : Inputs (StateM σ) α}

/-- The report on one lookup, which is all that a clip takes: it leaves the invariant as it is, and
says nothing only if the file is there. -/
theorem finds_of_report {action : StateM σ (Except Failure Path)}
    (hsteady : ∃ answer, Upholds I (fun found ↦ found = answer) action)
    {report : Except Failure Path → Option Failure} (hreport : ∀ e, report (.error e) = some e)
    {w : σ} (hw : I w) :
    I ((do return report (← action) : StateM σ (Option Failure)).run w).2 ∧
      (((do return report (← action) : StateM σ (Option Failure)).run w).1 = none →
        Finds I action) := by
  refine ⟨?_, fun hnone ↦ ?_⟩
  · obtain ⟨answer, hanswer⟩ := hsteady
    exact (hanswer w hw).2
  · change report (action.run w).1 = none at hnone
    cases hrun : (action.run w).1 with
    | ok path => exact .of_run hsteady hw hrun
    | error e =>
      rw [hrun, hreport] at hnone
      cases hnone

/-- What validation finds out about a clip. It makes the same distinctions as a render. -/
theorem isFound_of_missingMedia (hsteady : inputs.storage.IsSteady I) (clip : Clip α) {w : σ}
    (hw : I w) : I ((missingMedia inputs clip).run w).2 ∧
      (((missingMedia inputs clip).run w).1 = none →
        clip.IsFound I inputs.media inputs.storage) := by
  rw [missingMedia, Clip.IsFound]
  cases clip.content with
  | video video => exact finds_of_report (hsteady.source _ _) (fun _ ↦ rfl) hw
  | image image => exact finds_of_report (hsteady.asset _ _) (fun _ ↦ rfl) hw
  | audio audio =>
    dsimp only
    split_ifs with hsource
    · exact finds_of_report (hsteady.source _ _) (fun _ ↦ rfl) hw
    · exact finds_of_report (hsteady.asset _ _) (fun _ ↦ rfl) hw
  | text _ | shape _ => exact ⟨hw, fun _ ↦ trivial⟩

/-- If looking at elements one after another yields nothing, each of them passed. -/
theorem forall_of_mapM_eq_nil {f : β → StateM σ (Option γ)} {P : β → Prop}
    (hf : ∀ b w, I w → I ((f b).run w).2 ∧ (((f b).run w).1 = none → P b)) {bs : List β} {w : σ}
    (hw : I w) (h : ((bs.mapM f).run w).1.filterMap id = []) : ∀ b ∈ bs, P b := by
  induction bs generalizing w with
  | nil => exact List.forall_mem_nil _
  | cons b rest ih =>
    obtain ⟨hkept, hpassed⟩ := hf b w hw
    have hrun : (((b :: rest).mapM f).run w).1 =
        ((f b).run w).1 :: ((rest.mapM f).run ((f b).run w).2).1 := by
      rw [List.mapM_cons]
      rfl
    rw [hrun, List.filterMap_cons] at h
    cases hfirst : ((f b).run w).1 with
    | some message =>
      rw [hfirst] at h
      cases h
    | none =>
      rw [hfirst] at h
      exact List.forall_mem_cons.2 ⟨hpassed hfirst, ih hkept h⟩

variable [Scalar α]

/-- Validation with a manifest finds nothing wrong with a supplied project only. -/
theorem Inputs.isSupplied_of_allMessages (hsteady : inputs.storage.IsSteady I)
    {files : ProjectFiles} (hmedia : files.media?.isSome = true) {w : σ} (hw : I w)
    (h : ((allMessages files inputs).run w).1 = []) : inputs.IsSupplied I := by
  have hrun : ((allMessages files inputs).run w).1 = inputs.project.issues.map Issue.message ++
      (if inputs.project.isEmpty then ["project has no clips"] else []) ++
        ((missingMessages inputs).run w).1 := by
    rw [allMessages, if_pos hmedia]
    rfl
  rw [hrun, List.append_eq_nil_iff, List.append_eq_nil_iff, List.map_eq_nil_iff] at h
  obtain ⟨⟨hissues, hempty⟩, hmissing⟩ := h
  refine ⟨hissues, ?_, ?_⟩
  · by_contra hclips
    rw [if_pos (Bool.eq_true_of_not_eq_false hclips)] at hempty
    cases hempty
  · refine forall_of_mapM_eq_nil (fun clip w hw ↦ ?_) hw hmissing
    obtain ⟨hkept, hfound⟩ := isFound_of_missingMedia hsteady clip hw
    refine ⟨hkept, fun hnone ↦ hfound ?_⟩
    exact Option.map_eq_none_iff.1 hnone

variable {files : ProjectFiles} {w : σ}

/-- What validation with a manifest approves can be rendered, as long as the answers of the storage
do not change. -/
theorem isRenderable_of_allMessages (hsteady : inputs.storage.IsSteady I)
    (hmedia : files.media?.isSome = true) (hw : I w)
    (h : ((allMessages files inputs).run w).1 = []) : inputs.IsRenderable I :=
  (Inputs.isSupplied_of_allMessages hsteady hmedia hw h).isRenderable

/-- The sample is approved: its video and its sound are stored. -/
theorem isRenderable_sample :
    (Sample.studio (α := Exact)).storage.IsSteady (fun _ ↦ True) ∧
    ((allMessages ⟨⟨"project.json"⟩, some ⟨"media.json"⟩, none⟩
      ⟨(Sample.project : Project Exact), Sample.media, (Sample.studio (α := Exact)).storage⟩).run
        ()).1 = [] ∧
    Inputs.IsRenderable (fun _ ↦ True)
      ⟨(Sample.project : Project Exact), Sample.media, (Sample.studio (α := Exact)).storage⟩ := by
  have hsteady : (Sample.studio (α := Exact)).storage.IsSteady (fun _ ↦ True) :=
    fun reference ↦ ⟨.ok ⟨reference⟩, .pure rfl⟩
  have happroved : ((allMessages ⟨⟨"project.json"⟩, some ⟨"media.json"⟩, none⟩
      ⟨(Sample.project : Project Exact), Sample.media, (Sample.studio (α := Exact)).storage⟩).run
        ()).1 = [] := by
    decide +kernel
  exact ⟨hsteady, happroved, isRenderable_of_allMessages hsteady rfl trivial happroved⟩

/-! ### The command -/

/-- The second part of a command runs where the first one has left the world. -/
theorem run_bind (x : CommandT (StateM σ) β) (f : β → CommandT (StateM σ) γ) (w : σ) :
    (x >>= f).run.run w = match x.run.run w with
      | (.ok b, after) => (f b).run.run after
      | (.error e, after) => (.error e, after) := by
  rw [ExceptT.run_bind, StateT.run_bind]
  generalize x.run.run w = final
  rcases final with ⟨e | b, after⟩ <;> rfl

/-- A command that succeeds does so part after part. -/
theorem exists_of_bind {x : CommandT (StateM σ) β} {f : β → CommandT (StateM σ) γ} {c : γ}
    (hx : Preserves I x.run) (hw : I w) (h : ((x >>= f).run.run w).1 = .ok c) :
    ∃ b after, I after ∧ (x.run.run w).1 = .ok b ∧ ((f b).run.run after).1 = .ok c := by
  have hkept := hx w hw
  rw [run_bind] at h
  generalize x.run.run w = final at h hkept ⊢
  rcases final with ⟨e | b, after⟩
  · cases h
  · exact ⟨b, after, hkept, rfl, h⟩

/-- A command keeps what both of its parts keep. -/
theorem preserves_bind {x : CommandT (StateM σ) β} {f : β → CommandT (StateM σ) γ}
    (hx : Preserves I x.run) (hf : ∀ b, Preserves I (f b).run) : Preserves I (x >>= f).run := by
  intro w hw
  have hkept := hx w hw
  rw [run_bind]
  generalize x.run.run w = final at hkept ⊢
  rcases final with ⟨e | b, after⟩
  · exact hkept
  · exact hf b after hkept

theorem preserves_always {action : StateM σ β} (h : Preserves I action) :
    Preserves I (always action).run := h

/-- Failing with a message keeps what the action keeps. -/
theorem preserves_orFail {ε : Type} {message : ε → String} {action : StateM σ (Except ε β)}
    (h : Preserves I action) : Preserves I (orFail message action).run := by
  refine preserves_bind (preserves_always h) fun result ↦ ?_
  cases result with
  | ok _ => exact fun _ hw ↦ hw
  | error _ => exact fun _ hw ↦ hw

variable {host : Host (StateM σ)}

/-- Loading only reads files, so it keeps what reading keeps. -/
theorem preserves_loadInputs (hread : ∀ path, Preserves I (host.readText path)) :
    Preserves I (loadInputs host files : CommandT (StateM σ) (Inputs (StateM σ) α)).run := by
  have hproject (path : Path) :
      Preserves I (Project.load host path : StateM σ (Except ProjectError (Project α))) := by
    refine (hread path).bind fun text ↦ ?_
    rcases text with e | text
    · exact fun _ hw ↦ hw
    · dsimp only
      cases (Project.ofText? text : Option (Project α)) <;> exact fun _ hw ↦ hw
  have hmedia (path : Path) : Preserves I (Manifest.load host path) := by
    refine (hread path).bind fun text ↦ ?_
    rcases text with e | text
    · exact fun _ hw ↦ hw
    · dsimp only
      cases Manifest.ofText? text <;> exact fun _ hw ↦ hw
  refine preserves_bind (preserves_orFail (hproject _)) fun project ↦ preserves_bind ?_
    fun media _ hw ↦ hw
  cases files.media? with
  | none => exact fun _ hw ↦ hw
  | some path => exact preserves_orFail (hmedia path)

/-- The media are taken from the directory that the command says. -/
theorem storage_of_loadInputs {inputs : Inputs (StateM σ) α}
    (h : ((loadInputs host files).run.run w).1 = .ok inputs) :
    inputs.storage = .folder host (mediaRoot files) := by
  have hany {δ : Type} {x : CommandT (StateM σ) δ} : Preserves (fun _ ↦ True) x.run :=
    fun _ _ ↦ trivial
  obtain ⟨project, w', -, -, h⟩ := exists_of_bind hany trivial h
  obtain ⟨media, w'', -, -, h⟩ := exists_of_bind hany trivial h
  exact Except.ok.inj h ▸ rfl

/-- The command itself: if it succeeds, what it loaded can be rendered. -/
theorem exists_isRenderable_of_runValidate (hprint : ∀ text, Preserves I (host.print text))
    (hread : ∀ path, Preserves I (host.readText path))
    (hsteady : (Storage.folder host (mediaRoot files)).IsSteady I)
    (hmedia : files.media?.isSome = true) (hw : I w)
    (h : ((runValidate host α files).run.run w).1 = .ok ()) :
    ∃ (inputs : Inputs (StateM σ) α) (w' : σ), I w' ∧
      ((loadInputs host files).run.run w').1 = .ok inputs ∧ inputs.IsRenderable I := by
  have hline (text : String) : Preserves I (printLine host text).run := hprint _
  rw [runValidate] at h
  obtain ⟨_, w₁, hw₁, -, h⟩ := exists_of_bind (hline _) hw h
  obtain ⟨inputs, w₂, hw₂, hload, h⟩ := exists_of_bind (preserves_loadInputs hread) hw₁ h
  obtain ⟨_, w₃, hw₃, -, h⟩ := exists_of_bind (hline _) hw₂ h
  obtain ⟨_, w₄, hw₄, -, h⟩ := exists_of_bind (hline _) hw₃ h
  obtain ⟨_, w₅, hw₅, -, h⟩ := exists_of_bind (hline _) hw₄ h
  obtain ⟨messages, w₆, -, hall, h⟩ :=
    exists_of_bind (I := fun _ ↦ True) (fun _ _ ↦ trivial) trivial h
  have hmessages : ((allMessages files inputs).run w₅).1 = messages := Except.ok.inj hall
  -- the command reports messages as its failure, if there are any
  have hnil : messages = [] := by
    rcases messages with - | ⟨message, rest⟩
    · rfl
    · obtain ⟨_, w₇, -, -, h⟩ := exists_of_bind (I := fun _ ↦ True) (fun _ _ ↦ trivial) trivial h
      obtain ⟨_, w₈, -, -, h⟩ := exists_of_bind (I := fun _ ↦ True) (fun _ _ ↦ trivial) trivial h
      cases h
  rw [hnil] at hmessages
  have hstorage := storage_of_loadInputs hload
  rw [← hstorage] at hsteady
  exact ⟨inputs, w₁, hw₁, hload,
    (Inputs.isSupplied_of_allMessages hsteady hmedia hw₅ hmessages).isRenderable⟩

end Command

end Splice
