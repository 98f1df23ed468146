import Splice.Proofs.Render.Assembly
import Splice.Proofs.Render.Outcomes

/-!
# Refusals

Some failures say that a project should never have been given to a render: it has no clips or has
faults, or what a clip plays is not there (`Failure.isRefusal`). Here a session runs in a world with
an invariant that its engine and its files keep, and under which the storage has everything that the
clips play (`Clip.IsFound`). No failure of such a session is a refusal, unless an engine answers
with one and the run ends right there (`Excused`).

The session is walked through once, with one lemma `passes_…` for each of its operations. Wherever
the code resolves a reference, the clip at hand is one of those that were found; nothing else about
the storage is used. What the code throws by itself is harmless or cannot be reached: a base
sequence without pieces, and a base clip that is no video, are ruled out by what is already known
of entries and pieces.
-/

namespace Splice

variable {α σ β γ : Type}

/-- Whether a failure refuses a project as it is: it has no clips or has faults, or something that
it plays is not there. -/
def Failure.isRefusal : Failure → Bool
  | invalid _ => true
  | emptyProject => true
  | missingSource _ => true
  | missingAsset _ => true
  | resource text => "Stored media not found".toList.isPrefixOf text.toList
  | _ => false

/-- A result is no refusal. -/
def IsCivil (r : Except Failure β) : Prop := ∀ e, r = .error e → e.isRefusal = false

/-- An action that never refuses keeps an invariant civilly. -/
theorem Upholds.of_isCivil {I : σ → Prop} {action : StateM σ (Except Failure β)}
    (hcivil : ∀ w, IsCivil (action.run w).1) (h : Preserves I action) : Upholds I IsCivil action :=
  fun w hw ↦ ⟨hcivil w, h w hw⟩

/-! ### Excuses -/

/-- A failure is no refusal, or a job ended with it, or it refuses the result at the very end. -/
inductive Excused (refuses : Failure → Prop) : Failure → List (Event α) → Prop
  | harmless {e : Failure} {events : List (Event α)} (h : e.isRefusal = false) :
    Excused refuses e events
  | engine (events : List (Event α)) (job : Job α) (e : Failure) :
    Excused refuses e (events ++ [.ran job (some e)])
  | storage (events : List (Event α)) {e : Failure} (h : refuses e) :
    Excused refuses e (events ++ [.reached .finalizing])

namespace RenderT

/-- A run in a world with an invariant keeps it, and is excused if it fails. -/
def Passes (I : σ → Prop) (refuses : Failure → Prop) (x : RenderT α (StateM σ) β) : Prop :=
  ∀ p r q, I p.world → x.Ends p r q →
    I q.world ∧ ∀ e, r = .error e → Excused refuses e q.journal.events

namespace Passes

variable {I : σ → Prop} {refuses : Failure → Prop} {x : RenderT α (StateM σ) β}

theorem pure (b : β) : (Pure.pure b : RenderT α (StateM σ) β).Passes I refuses := by
  intro p r q hp h
  obtain ⟨rfl, rfl⟩ := ends_pure.1 h
  exact ⟨hp, nofun⟩

/-- A result that the code has already, when it is no refusal. -/
theorem ofExcept {r : Except Failure β} (h : IsCivil r) :
    (MonadExcept.ofExcept r : RenderT α (StateM σ) β).Passes I refuses := by
  intro p r' q hp hends
  obtain ⟨rfl, rfl⟩ := ends_ofExcept.1 hends
  exact ⟨hp, fun e he ↦ .harmless (h e he)⟩

/-- A failure that the code throws by itself has to be harmless. -/
theorem throw_bind {e : Failure} (h : e.isRefusal = false) (f : β → RenderT α (StateM σ) γ) :
    (MonadExcept.throw e >>= f).Passes I refuses := by
  intro p r q hp hends
  obtain ⟨rfl, rfl⟩ := ends_throw_bind.1 hends
  exact ⟨hp, fun e' he ↦ .harmless (Except.error.inj he ▸ h)⟩

theorem get : (MonadState.get : RenderT α (StateM σ) (Journal α)).Passes I refuses := by
  intro p r q hp h
  obtain ⟨rfl, rfl⟩ := ends_get.1 h
  exact ⟨hp, nofun⟩

theorem record (event : Event α) :
    (RenderT.record event : RenderT α (StateM σ) Unit).Passes I refuses := by
  intro p r q hp h
  obtain ⟨rfl, rfl⟩ := Session.ends_record.1 h
  exact ⟨hp, nofun⟩

/-- What an action on the world says is a result and no failure, so it only has to keep the
invariant. -/
theorem observe {action : StateM σ β} (h : Preserves I action) :
    (RenderT.observe action : RenderT α (StateM σ) β).Passes I refuses := by
  intro p r q hp hends
  obtain ⟨rfl, rfl⟩ := ends_observe.1 hends
  exact ⟨h _ hp, nofun⟩

/-- An action that may fail must keep the invariant and must not refuse. -/
theorem perform {action : StateM σ (Except Failure β)} (h : Upholds I IsCivil action) :
    (RenderT.perform action : RenderT α (StateM σ) β).Passes I refuses := by
  intro p r q hp hends
  obtain ⟨rfl, rfl⟩ := ends_perform.1 hends
  exact ⟨(h _ hp).2, fun e he ↦ .harmless ((h _ hp).1 e he)⟩

/-- A sequence: the second part starts in a world with the invariant, and may rely on what the first
one gave. -/
theorem bind_of_ends {f : β → RenderT α (StateM σ) γ} (hx : x.Passes I refuses)
    (hf : ∀ p b q, x.Ends p (.ok b) q → (f b).Passes I refuses) :
    (x >>= f).Passes I refuses := by
  intro p r q hp h
  -- either both parts run, or the failure of the first one is that of the whole
  rcases ends_bind.1 h with ⟨b, t, hb, hrest⟩ | ⟨e, he, rfl⟩
  · exact hf p b t hb t r q (hx p _ t hp hb).1 hrest
  · obtain ⟨hq, hexcused⟩ := hx p _ q hp he
    exact ⟨hq, fun e' he' ↦ hexcused e' (congrArg _ (Except.error.inj he'))⟩

theorem bind {f : β → RenderT α (StateM σ) γ} (hx : x.Passes I refuses)
    (hf : ∀ b, (f b).Passes I refuses) : (x >>= f).Passes I refuses :=
  hx.bind_of_ends fun _ b _ _ ↦ hf b

theorem map (f : β → γ) (hx : x.Passes I refuses) : (f <$> x).Passes I refuses := by
  rw [map_eq_pure_bind]
  exact hx.bind fun b ↦ pure (f b)

/-- A list is mapped without refusal if no element is refused. -/
theorem mapM {f : β → RenderT α (StateM σ) γ} {bs : List β}
    (hf : ∀ b ∈ bs, (f b).Passes I refuses) : (bs.mapM f).Passes I refuses := by
  -- on the list, with the code unfolded one element at a time
  induction bs with
  | nil => exact pure []
  | cons b rest ih =>
    obtain ⟨hb, hrest⟩ := List.forall_mem_cons.1 hf
    rw [List.mapM_cons]
    exact hb.bind fun _ ↦ (ih hrest).bind fun _ ↦ pure _

/-- Likewise for a fold, whatever it has so far. -/
theorem foldlM {f : β → γ → RenderT α (StateM σ) β} {cs : List γ}
    (hf : ∀ b, ∀ c ∈ cs, (f b c).Passes I refuses) (b : β) :
    (cs.foldlM f b).Passes I refuses := by
  induction cs generalizing b with
  | nil => exact pure b
  | cons c rest ih =>
    rw [List.foldlM_cons]
    exact (hf b c List.mem_cons_self).bind
      (ih fun b' c' hc' ↦ hf b' c' (List.mem_cons_of_mem _ hc'))

end Passes

/-- A run in a world with an invariant, which it need not keep, is excused if it fails. -/
def Excuses (I : σ → Prop) (refuses : Failure → Prop) (x : RenderT α (StateM σ) β) : Prop :=
  ∀ p e q, I p.world → x.Ends p (.error e) q → Excused refuses e q.journal.events

variable {I : σ → Prop} {refuses : Failure → Prop} {x : RenderT α (StateM σ) β}

/-- To pass is more than to be excused. -/
theorem Passes.excuses (hx : x.Passes I refuses) : x.Excuses I refuses :=
  fun p e q hp h ↦ (hx p _ q hp h).2 e rfl

/-- Only the last part of a sequence may leave the invariant. -/
theorem Excuses.bind {f : β → RenderT α (StateM σ) γ} (hx : x.Passes I refuses)
    (hf : ∀ b, (f b).Excuses I refuses) : (x >>= f).Excuses I refuses := by
  intro p e q hp h
  rcases ends_bind.1 h with ⟨b, t, hb, hrest⟩ | ⟨e', he, heq⟩
  · exact hf b t e q (hx p _ t hp hb).1 hrest
  · rw [Except.error.inj heq]
    exact hx.excuses p e' q hp he

end RenderT

/-! ### Storages -/

/-- An action always has the path of the file. -/
def Finds (I : σ → Prop) (action : StateM σ (Except Failure Path)) : Prop :=
  ∃ path, Upholds I (fun found ↦ found = .ok path) action

/-- A storage that has the file does not refuse it. -/
theorem Finds.isCivil {I : σ → Prop} {action : StateM σ (Except Failure Path)}
    (h : Finds I action) : Upholds I IsCivil action := by
  obtain ⟨path, hfound⟩ := h
  refine hfound.mono fun r hr e he ↦ ?_
  rw [hr] at he
  cases he

/-- What a clip plays is always there. A sound whose id is that of a video source plays the
video. -/
def Clip.IsFound (I : σ → Prop) (media : Manifest) (storage : Storage (StateM σ)) (clip : Clip α) :
    Prop :=
  match clip.content with
  | .video video => Finds I (storage.source media video.sourceId)
  | .image image => Finds I (storage.asset media image.sourceId)
  | .audio audio =>
    if media.hasSource audio.sourceId then Finds I (storage.source media audio.sourceId)
    else Finds I (storage.asset media audio.sourceId)
  | .text _ => True
  | .shape _ => True

/-- For a video, found means that its source is. -/
theorem Clip.IsFound.of_video {I : σ → Prop} {media : Manifest} {storage : Storage (StateM σ)}
    {clip : Clip α} {video : MediaClip α} (h : clip.IsFound I media storage)
    (hvideo : clip.video? = some video) : Finds I (storage.source media video.sourceId) := by
  rwa [Clip.IsFound, Clip.content_of_video? hvideo] at h

/-! ### Sessions -/

/-- A session in a world with an invariant, which its engine and its pictures keep. -/
structure Session.KeepsWorld (I : σ → Prop) (s : Session (StateM σ) α) : Prop where
  run : ∀ job, Preserves I (s.engine.run job)
  probe : ∀ path, Preserves I (s.engine.probe path)
  draw : ∀ path picture, Upholds I IsCivil (s.draw path picture)

namespace Session

open RenderT (Passes ends_bind_of_ok)

variable {I : σ → Prop} {refuses : Failure → Prop} {s : Session (StateM σ) α}

/-- Numbers for files are counted in the journal, so the world stays as it is. -/
theorem passes_freshPath (s : Session (StateM σ) α) (label extension : String) :
    (s.freshPath label extension).Passes I refuses := by
  intro p r q hp h
  obtain ⟨rfl, rfl⟩ := ends_freshPath.1 h
  exact ⟨hp, nofun⟩

/-- After a job, the journal ends with the engine's answer, which excuses a failure with the same
words. -/
theorem passes_attempt_bind (hs : s.KeepsWorld I) {job : Job α}
    {f : Option Failure → RenderT α (StateM σ) β} (hdone : (f none).Passes I refuses)
    (hfailed : ∀ e, f (some e) = throw e ∨ (f (some e)).Passes I refuses) :
    (s.attempt job >>= f).Passes I refuses := by
  intro p r q hp h
  rw [ends_bind_of_ok (ends_attempt.2 ⟨rfl, rfl⟩)] at h
  have hkept := hs.run job p.world hp
  cases hanswer : ((s.engine.run job).run p.world).1 with
  | ok _ =>
    rw [hanswer] at h
    exact hdone _ r q hkept h
  | error e =>
    rw [hanswer] at h
    -- a failure that is thrown is the one in the journal; otherwise the continuation answers for
    -- itself
    rcases hfailed e with hthrow | hpasses
    · rw [show RenderT.failureOf (.error e : Except Failure Unit) = some e from rfl, hthrow] at h
      obtain ⟨rfl, rfl⟩ := RenderT.ends_throw.1 h
      refine ⟨hkept, fun e' he ↦ ?_⟩
      rw [← Except.error.inj he]
      exact .engine _ job e
    · exact hpasses _ r q hkept h

/-- A job that has to succeed is excused by its own entry in the journal. -/
theorem passes_run (hs : s.KeepsWorld I) (job : Job α) : (s.run job).Passes I refuses :=
  passes_attempt_bind hs (.pure _) fun _ ↦ .inl rfl

/-- A file that cannot be looked at is no failure of the run. -/
theorem passes_inspect (hs : s.KeepsWorld I) (path : Path) : (s.inspect path).Passes I refuses := by
  refine (Passes.observe (hs.probe path)).bind fun answer ↦ ?_
  cases answer with
  | ok info => exact .pure _
  | error e => exact .pure _

theorem passes_hasAudio (hs : s.KeepsWorld I) (path : Path) :
    (s.hasAudio path).Passes I refuses :=
  (passes_inspect hs path).bind fun _ ↦ .pure _

/-- A picture that cannot be written is a failure of the host, which is no refusal. -/
theorem passes_drawInto (hs : s.KeepsWorld I) (path : Path) (picture : Picture) :
    (s.drawInto path picture).Passes I refuses :=
  (Passes.perform (hs.draw path picture)).bind fun _ ↦ .record _

theorem passes_source {id : String} (h : Finds I (s.storage.source s.media id)) :
    (s.source id).Passes I refuses :=
  .perform h.isCivil

theorem passes_asset {id : String} (h : Finds I (s.storage.asset s.media id)) :
    (s.asset id).Passes I refuses :=
  .perform h.isCivil

theorem passes_renderFiller (hs : s.KeepsWorld I) (filler : Filler α) :
    (s.renderFiller filler).Passes I refuses :=
  (passes_freshPath s _ _).bind fun _ ↦ (passes_run hs _).bind fun _ ↦ .pure _

/-! ### Segments and merges -/

variable [Scalar α]

theorem passes_cropOf (hs : s.KeepsWorld I) (look : Look α) (path : Path) :
    (s.cropOf look path).Passes I refuses := by
  rw [cropOf]
  cases look.crop? with
  | none => exact .pure _
  | some box => exact (passes_inspect hs path).bind fun _ ↦ .pure _

/-- A segment asks the engine only; its source has been resolved before. -/
theorem passes_makeSegment (hs : s.KeepsWorld I) (clip : Clip α) (media : MediaClip α) (path : Path)
    (blended : BlendedEdges) : (s.makeSegment clip media path blended).Passes I refuses := by
  refine (passes_freshPath s _ _).bind fun output ↦ Passes.bind ?_ fun job ↦
    (passes_run hs _).bind fun _ ↦ .pure _
  exact (passes_hasAudio hs path).bind fun _ ↦ (passes_cropOf hs _ path).bind fun _ ↦ .pure _

/-- A blend: the failure of the first job is excused, or there is a second one whose failure is. -/
theorem passes_blendFiles (hs : s.KeepsWorld I) (left right : RenderedFile α)
    (style : TransitionStyle) (duration : α) :
    (s.blendFiles left right style duration).Passes I refuses := by
  have hjob (style : TransitionStyle) :
      (s.blendJob left right style duration).Passes I refuses :=
    (passes_freshPath s _ _).bind fun _ ↦ .pure _
  refine (hjob style).bind fun job ↦ passes_attempt_bind hs (.pure _) fun e ↦ ?_
  -- another try, or the failure of the first one
  by_cases hrecoverable : (e.isEngine && style != .fallback) = true
  · refine .inr ?_
    simp only [hrecoverable, if_true]
    exact (hjob .fallback).bind fun second ↦ (passes_run hs _).bind fun _ ↦ .pure _
  · exact .inl (if_neg hrecoverable)

/-- All merges; no reference is resolved any more. -/
theorem passes_mergeOnto (hs : s.KeepsWorld I) (blendAfter? : ℕ → Option (TransitionStyle × α))
    (running : RenderedFile α) (last? : Option (ℕ × String)) (pieces : List (Piece α)) :
    (s.mergeOnto blendAfter? running last? pieces).Passes I refuses := by
  induction pieces generalizing running last? with
  | nil => exact .pure _
  | cons next rest ih =>
    rw [mergeOnto]
    cases Piece.transitionTo? blendAfter? last? next.clip? with
    | none =>
      have hconcat : (s.mergeByConcat running next.rendered).Passes I refuses :=
        (passes_freshPath s _ _).bind fun _ ↦ (passes_freshPath s _ _).bind fun _ ↦
          (passes_run hs _).bind fun _ ↦ (Passes.record _).bind fun _ ↦ .pure _
      exact hconcat.bind fun merged ↦ ih merged _
    | some seam =>
      obtain ⟨style, duration, fromId, toId⟩ := seam
      have hblend : (s.mergeByTransition running next.rendered style duration fromId toId).Passes I
          refuses :=
        (passes_blendFiles hs _ _ _ _).bind fun _ ↦ (Passes.record _).bind fun _ ↦ .pure _
      exact hblend.bind fun merged ↦ ih merged _

/-- Merging refuses an empty sequence only. -/
theorem passes_mergePieces (hs : s.KeepsWorld I) (blendAfter? : ℕ → Option (TransitionStyle × α))
    {pieces : List (Piece α)} (hne : pieces ≠ []) :
    (s.mergePieces blendAfter? pieces).Passes I refuses := by
  cases pieces with
  | nil => exact absurd rfl hne
  | cons first rest => exact passes_mergeOnto hs _ _ _ rest

/-- An entry whose clip is a video and was found. -/
theorem passes_renderEntry (hs : s.KeepsWorld I) (c : Composition α) {entry : Entry α}
    (hfound : ∀ index clip, entry = .clip index clip →
      clip.isVideo = true ∧ clip.IsFound I s.media s.storage) :
    (s.renderEntry c entry).Passes I refuses := by
  cases entry with
  | filler filler =>
    exact (passes_renderFiller hs filler).bind fun _ ↦ (Passes.record _).bind fun _ ↦ .pure _
  | clip index clip =>
    obtain ⟨hvideo, hfound⟩ := hfound index clip rfl
    obtain ⟨media, hvideo⟩ := Option.isSome_iff_exists.1 hvideo
    have hpath : Finds I (s.storage.source s.media media.sourceId) := hfound.of_video hvideo
    rw [renderEntry, hvideo]
    exact (passes_source hpath).bind fun _ ↦ (passes_makeSegment hs _ _ _ _).bind fun _ ↦
      (Passes.record _).bind fun _ ↦ .pure _

/-! ### Sounds and overlays -/

/-- A file without sound is a failure of the engine's kind, which is no refusal. -/
theorem passes_mixSound (hs : s.KeepsWorld I) (base : RenderedFile α) (path : Path) (time : α)
    (label : String) : (s.mixSound base path time label).Passes I refuses := by
  refine (passes_hasAudio hs path).bind fun hasAudio ↦ ?_
  cases hasAudio with
  | false => exact .throw_bind rfl _
  | true =>
    exact (passes_hasAudio hs _).bind fun _ ↦ (passes_freshPath s _ _).bind fun _ ↦
      (passes_run hs _).bind fun _ ↦ .pure _

/-- A sound resolves nothing, if it is left out or silent, and its asset otherwise. -/
theorem passes_addSound (hs : s.KeepsWorld I) (base : RenderedFile α) {clip : Clip α}
    (hfound : clip.IsFound I s.media s.storage) : (s.addSound base clip).Passes I refuses := by
  -- the two definitions split on the content in the same way
  rw [Clip.IsFound] at hfound
  rw [addSound]
  cases hcontent : clip.content with
  | audio audio =>
    rw [hcontent] at hfound
    by_cases hsource : s.media.hasSource audio.sourceId = true
    · simp only [hsource, if_true]
      exact (Passes.record _).bind fun _ ↦ .pure _
    · simp only [hsource, if_false, Bool.false_eq_true] at hfound ⊢
      split_ifs
      · exact .pure _
      · exact (passes_asset hfound).bind fun _ ↦ (passes_freshPath s _ _).bind fun _ ↦
          (passes_run hs _).bind fun _ ↦ passes_mixSound hs _ _ _ _
  | video _ | image _ | text _ | shape _ => exact .pure _

/-- An overlay of any kind. Only videos and pictures resolve a reference. -/
theorem passes_addOverlay (hs : s.KeepsWorld I) (base : RenderedFile α) {clip : Clip α}
    (hfound : clip.IsFound I s.media s.storage) : (s.addOverlay base clip).Passes I refuses := by
  rw [Clip.IsFound] at hfound
  rw [addOverlay]
  have hpaint (source : Job.OverlayPicture) (placement : Placement α) (stop : α) (mode : FitMode)
      (rotation : α) :
      (s.paintJob clip base source placement stop mode rotation).Passes I refuses :=
    (passes_freshPath s _ _).bind fun _ ↦ .pure _
  cases hcontent : clip.content with
  | video media =>
    rw [hcontent] at hfound
    refine (passes_source hfound).bind fun _ ↦ (passes_makeSegment hs _ _ _ _).bind fun segment ↦
      (hpaint _ _ _ _ _).bind fun _ ↦ (passes_run hs _).bind fun painted ↦ ?_
    dsimp only
    split_ifs
    · exact passes_mixSound hs _ _ _ _
    · exact .pure _
  | image media =>
    rw [hcontent] at hfound
    exact (passes_asset hfound).bind fun _ ↦ (hpaint _ _ _ _ _).bind fun _ ↦
      (passes_run hs _).bind fun _ ↦ .pure _
  | text text =>
    exact (passes_freshPath s _ _).bind fun _ ↦ (passes_run hs _).bind fun _ ↦ .pure _
  | shape shape =>
    exact (passes_freshPath s _ _).bind fun _ ↦ (passes_drawInto hs _ _).bind fun _ ↦
      (hpaint _ _ _ _ _).bind fun _ ↦ (passes_run hs _).bind fun _ ↦ .pure _
  | audio audio => exact .pure _

end Session

end Splice
