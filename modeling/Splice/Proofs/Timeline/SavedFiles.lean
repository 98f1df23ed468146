import Splice.Proofs.Host.Files
import Splice.Proofs.Number.Finite
import Splice.Proofs.Samples
import Splice.Proofs.Timeline.Loaded
import Splice.Timeline.File

/-!
# Saved projects

A project is what its file says: once saved it is loaded as the same project, with every clip and
every field (`Project.IsKept`). This holds of each project of finite numbers, and so of each project
that has been loaded, since a document holds no other numbers (`Binary64.isFinite_of_scalar?`).

One thing is taken for granted: that the shortest decimal of a finite double is read as that double.
It is only asked of the numbers that the project has, since a significand of 64 bits is scaled in
doubles, which does not give every decimal its nearest double.
-/

namespace Splice

variable {α : Type} [Scalar α]

namespace Json

instance [DecidableEq α] (x : α) : Decidable (ReadsBack x) :=
  inferInstanceAs (Decidable (scalar? (ofScalar x) = some x))

end Json

/-! ### Projects and their texts -/

namespace Project

/-- What is read of a project's text is the project, on any host that keeps texts. -/
structure IsKept (p : Project α) : Prop where
  /-- The text is that of this project only. -/
  ofText?_text : ofText? p.text = some p
  /-- What has been read is written as the same text. -/
  text_text : ((ofText? p.text).map fun again : Project α ↦ again.text) = some p.text
  /-- A file that the project has been saved to is loaded as the project. -/
  load_save : ∀ {σ : Type} (host : Host (StateM σ)) (path : Path) (s s' : σ), host.KeepsTexts →
    p.save host path s = (.ok (), s') → (load host path s').1 = .ok p

/-- The text of a project whose numbers are read back is read as the project. -/
theorem ofText?_text_of_readsBack {p : Project α} (h : ∀ x ∈ p.numbers, Json.ReadsBack x)
    (hp : p.IsStorable) : ofText? p.text = some p := by
  have hreturns := returns h hp
  rw [ofText?, text, Json.parse?_pretty hreturns.fit.wellFormed, Option.bind_some,
    hreturns.read_encode]

/-- A project that was saved is a text that was written. -/
theorem writeText_of_save {σ : Type} {host : Host (StateM σ)} {path : Path} {s s' : σ}
    {p : Project α} (h : p.save host path s = (.ok (), s')) :
    host.writeText path p.text s = (.ok (), s') := by
  obtain ⟨hresult, hstate⟩ :
      (host.writeText path p.text s).1.mapError (ProjectError.os path) = .ok () ∧
        (host.writeText path p.text s).2 = s' := Prod.mk.inj h
  refine Prod.ext ?_ hstate
  cases hwritten : (host.writeText path p.text s).1 with
  | ok u => rfl
  | error e =>
    rw [hwritten] at hresult
    cases hresult

/-- What is loaded is what the text of the file is read as. -/
theorem fst_load_eq_ok_iff {σ : Type} {host : Host (StateM σ)} {path : Path} {s : σ}
    {p : Project α} : (load host path s).1 = .ok p ↔
      ∃ file, (host.readText path s).1 = .ok file ∧ ofText? file = some p := by
  rw [load]
  simp only [bind, StateT.bind]
  rcases host.readText path s with ⟨e | file, t⟩
  · constructor
    · nofun
    · rintro ⟨file, hfile, -⟩
      cases hfile
  · simp only [Except.ok.injEq, exists_eq_left']
    cases (ofText? file : Option (Project α)) with
    | none => exact ⟨nofun, nofun⟩
    | some project =>
      exact ⟨fun h ↦ congrArg some (Except.ok.inj h),
        fun h ↦ congrArg Except.ok (Option.some.inj h)⟩

/-- A project whose text is read as the project is kept by its file. -/
theorem isKept_of_ofText? {p : Project α} (h : ofText? p.text = some p) : p.IsKept where
  ofText?_text := h
  text_text := by rw [h, Option.map_some]
  load_save host path s s' hhost hsave :=
    fst_load_eq_ok_iff.2 ⟨p.text, hhost path p.text s s' (writeText_of_save hsave), h⟩

/-- The numbers of a project that has been read are finite, and fit their words. -/
theorem of_ofText? {file : String} {p : Project Float} (h : ofText? file = some p) :
    (∀ x ∈ p.numbers, Scalar.isFinite x = true) ∧ p.IsStorable := by
  have hdocumented : Documented fun x : Float ↦ Scalar.isFinite x = true :=
    ⟨fun _ _ ↦ Binary64.isFinite_of_scalar?, by decide +kernel, by decide +kernel,
      by decide +kernel⟩
  obtain ⟨value, -, hvalue⟩ := Option.bind_eq_some_iff.1 h
  exact yields hdocumented value p hvalue

/-- A project of finite numbers is kept by its file, and so is each project that has been loaded. -/
theorem isKept_of_readsBack (p : Project Float)
    (hprint : ∀ x ∈ p.numbers, Scalar.isFinite x = true → Json.ReadsBack x) :
    (p.IsStorable → (∀ x ∈ p.numbers, Scalar.isFinite x = true) → p.IsKept) ∧
      (∀ file, ofText? file = some p → p.IsKept) ∧
      ∀ {σ : Type} (host : Host (StateM σ)) (path : Path) (s : σ),
        (load host path s).1 = .ok p → p.IsKept := by
  have hkept (hstorable : p.IsStorable) (hfinite : ∀ x ∈ p.numbers, Scalar.isFinite x = true) :
      p.IsKept :=
    isKept_of_ofText? (ofText?_text_of_readsBack (fun x hx ↦ hprint x hx (hfinite x hx)) hstorable)
  have hread (file : String) (h : ofText? file = some p) : p.IsKept :=
    hkept (of_ofText? h).2 (of_ofText? h).1
  refine ⟨hkept, hread, fun host path s hload ↦ ?_⟩
  obtain ⟨file, -, hfile⟩ := fst_load_eq_ok_iff.1 hload
  exact hread file hfile

/-- A project with every kind of clip, saved on a machine in memory. -/
theorem isKept_gallery : (Sample.gallery : Project Float).IsStorable ∧
    (∀ x ∈ (Sample.gallery : Project Float).numbers, Scalar.isFinite x = true) ∧
    (∀ x ∈ (Sample.gallery : Project Float).numbers, Json.ReadsBack x) ∧
    (Sample.gallery : Project Float).IsKept ∧
    ∃ machine, (Sample.gallery : Project Float).save Machine.host ⟨"/state.json"⟩ {} =
      (.ok (), machine) ∧
        (load Machine.host ⟨"/state.json"⟩ machine).1 = .ok (Sample.gallery : Project Float) := by
  have hstorable : (Sample.gallery : Project Float).IsStorable := by decide
  have hfinite : ∀ x ∈ (Sample.gallery : Project Float).numbers, Scalar.isFinite x = true := by
    decide +kernel
  have hreads : ∀ x ∈ (Sample.gallery : Project Float).numbers, Json.ReadsBack x := by
    decide +kernel
  have hkept := (isKept_of_readsBack Sample.gallery fun x hx _ ↦ hreads x hx).1 hstorable hfinite
  have hsave : ((Sample.gallery : Project Float).save Machine.host ⟨"/state.json"⟩ {}).1 = .ok () :=
    rfl
  exact ⟨hstorable, hfinite, hreads, hkept, _, Prod.ext hsave rfl,
    hkept.load_save _ _ _ _ Machine.keepsTexts_host (Prod.ext hsave rfl)⟩

end Project

end Splice
