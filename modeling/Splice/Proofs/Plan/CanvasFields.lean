import Splice.Proofs.Number.Doubles
import Splice.Render.Studio

/-!
# The fields of a canvas

Where each field of a canvas comes from. The candidates of a field are what the settings ask for,
what their platform asks for, what is known about the first video, and the default; the first usable
one counts (`firstUsable?`), and no field looks at the candidates of another one
(`Canvas.SettledBy`). So a canvas can always be drawn on.

The engine is asked about the video only if a field of the picture is settled by no earlier
candidate, and then once (`Studio.run_resolveWith`). What it would have answered does not matter
where it is not asked (`Canvas.resolve_eq_of_settled`), so the fields are stated with its answer in
both cases.
-/

namespace Splice

/-- The first of some candidates that is there and usable. -/
def firstUsable? {β : Type} (usable : β → Bool) (candidates : List (Option β)) : Option β :=
  candidates.findSome? fun candidate ↦ candidate.filter usable

section FirstUsable

variable {β : Type} {usable : β → Bool} {asked named known : Option β} {standard : β}

/-- The first two candidates of a field, of which the platform is always usable. -/
theorem firstUsable?_pair (hnamed : ∀ x ∈ named, usable x = true) :
    firstUsable? usable [asked, named] = (asked.filter usable).or named := by
  have hfilter : named.filter usable = named := by
    cases named with
    | none => rfl
    | some x => exact Option.filter_some_pos (hnamed x rfl)
  rw [firstUsable?, List.findSome?_cons, List.findSome?_cons, hfilter]
  cases asked.filter usable <;> cases named <;> rfl

/-- All four candidates of a field, of which the default is always usable. -/
theorem firstUsable?_eq (hnamed : ∀ x ∈ named, usable x = true)
    (hstandard : usable standard = true) :
    firstUsable? usable [asked, named, known, some standard] =
      some ((((asked.filter usable).or named).or (known.filter usable)).getD standard) := by
  have hlate : firstUsable? usable [known, some standard] =
      some ((known.filter usable).getD standard) := by
    rw [firstUsable?_pair fun _ h ↦ Option.some.inj h ▸ hstandard]
    cases known.filter usable <;> rfl
  show firstUsable? usable ([asked, named] ++ [known, some standard]) = _
  rw [firstUsable?, List.findSome?_append, ← firstUsable?, ← firstUsable?,
    firstUsable?_pair hnamed, hlate]
  cases (asked.filter usable).or named <;> rfl

/-- What is chosen is usable. -/
theorem usable_of_firstUsable? {candidates : List (Option β)} {x : β}
    (h : firstUsable? usable candidates = some x) : usable x = true := by
  obtain ⟨candidate, -, hx⟩ := List.exists_of_findSome?_eq_some h
  exact (Option.filter_eq_some_iff.1 hx).2

end FirstUsable

/-! ### Fields -/

section Fields

variable {α : Type} [Scalar α]

/-- Whether a width or a height is positive. -/
def isUsableSide (n : ℕ) : Bool := decide (0 < n)

/-- Whether a text has something to show. -/
def isUsableText (text : String) : Bool := !Text.isBlankText text

/-- Whether a field of the picture is usable neither in the settings nor in their platform. -/
def OutputSettings.needsVideo (s : OutputSettings α) : Bool :=
  (firstUsable? isUsableSide [s.width?, s.platform?.map Preset.width]).isNone ||
  (firstUsable? isUsableSide [s.height?, s.platform?.map Preset.height]).isNone ||
  (firstUsable? isUsableRate [s.fps?, s.platform?.map Preset.fps]).isNone

/-- Each field of a canvas is the first usable one of what the settings ask for, what their platform
asks for, what is known about a video, and the default. -/
structure Canvas.SettledBy (canvas : Canvas α) (s : OutputSettings α)
    (video? : Option (MediaInfo α)) : Prop where
  width_eq : some canvas.width = firstUsable? isUsableSide
    [s.width?, s.platform?.map Preset.width, video?.map MediaInfo.width, some 1920]
  height_eq : some canvas.height = firstUsable? isUsableSide
    [s.height?, s.platform?.map Preset.height, video?.map MediaInfo.height, some 1080]
  fps_eq : some canvas.fps = firstUsable? isUsableRate
    [s.fps?, s.platform?.map Preset.fps, video?.map MediaInfo.fps, some 30.0]
  bitrate_eq : canvas.bitrate? = firstUsable? isUsableText
    [s.bitrate?, s.platform?.map Preset.bitrate]

end Fields

/-- A canvas that can be drawn on. -/
structure Canvas.IsDrawable (canvas : Canvas Float) : Prop where
  one_le_width : 1 ≤ canvas.width
  one_le_height : 1 ≤ canvas.height
  fps_finite : Scalar.isFinite canvas.fps = true
  fps_pos : 0.0 < canvas.fps

/-- A canvas whose fields are settled can be drawn on. -/
theorem Canvas.SettledBy.isDrawable {canvas : Canvas Float} {s : OutputSettings Float}
    {video? : Option (MediaInfo Float)} (h : canvas.SettledBy s video?) : canvas.IsDrawable := by
  have hwidth : isUsableSide canvas.width = true := usable_of_firstUsable? h.width_eq.symm
  have hheight : isUsableSide canvas.height = true := usable_of_firstUsable? h.height_eq.symm
  have hfps : isUsableRate canvas.fps = true := usable_of_firstUsable? h.fps_eq.symm
  obtain ⟨hfinite, hpos⟩ := Bool.and_eq_true_iff.1 hfps
  exact ⟨of_decide_eq_true hwidth, of_decide_eq_true hheight, hfinite, of_decide_eq_true hpos⟩

/-! ### Platforms -/

/-- Every field of a known platform's format can be used. -/
theorem Preset.usable_of_platform? {s : OutputSettings Float} {preset : Preset Float}
    (h : s.platform? = some preset) : isUsableSide preset.width = true ∧
      isUsableSide preset.height = true ∧ isUsableRate preset.fps = true ∧
      isUsableText preset.bitrate = true := by
  obtain ⟨name, -, hname⟩ := Option.bind_eq_some_iff.1 h
  have hall : ∀ preset ∈ (Preset.all : List (Preset Float)), isUsableSide preset.width = true ∧
      isUsableSide preset.height = true ∧ isUsableRate preset.fps = true ∧
      isUsableText preset.bitrate = true := by
    decide +kernel
  rw [Preset.ofName?] at hname
  exact hall preset (List.mem_of_find?_eq_some hname)

/-! ### Resolving -/

namespace Canvas

variable (s : OutputSettings Float) (video? : Option (MediaInfo Float))

/-- Resolving settles every field by its candidates. -/
theorem settledBy_resolve : (resolve s video?).SettledBy s video? where
  width_eq := by
    rw [firstUsable?_eq (Option.forall_mem_map.2 fun _ h ↦ (Preset.usable_of_platform? h).1)
      (by decide), resolve, OutputSettings.request]
    cases s.platform? <;> cases video? <;> rfl
  height_eq := by
    rw [firstUsable?_eq (Option.forall_mem_map.2 fun _ h ↦ (Preset.usable_of_platform? h).2.1)
      (by decide), resolve, OutputSettings.request]
    cases s.platform? <;> cases video? <;> rfl
  fps_eq := by
    rw [firstUsable?_eq (Option.forall_mem_map.2 fun _ h ↦ (Preset.usable_of_platform? h).2.2.1)
      (by decide +kernel), resolve, OutputSettings.request]
    cases s.platform? <;> cases video? <;> rfl
  bitrate_eq := by
    rw [firstUsable?_pair (Option.forall_mem_map.2 fun _ h ↦
      (Preset.usable_of_platform? h).2.2.2), resolve, OutputSettings.request]
    cases s.platform? <;> cases video? <;> exact Option.or_none

/-- The fields of the picture that are asked for are those that no video is needed for. -/
theorem leavesOpen_request : s.request.leavesOpen = s.needsVideo := by
  rw [OutputSettings.needsVideo,
    firstUsable?_pair (Option.forall_mem_map.2 fun _ h ↦ (Preset.usable_of_platform? h).1),
    firstUsable?_pair (Option.forall_mem_map.2 fun _ h ↦ (Preset.usable_of_platform? h).2.1),
    firstUsable?_pair (Option.forall_mem_map.2 fun _ h ↦ (Preset.usable_of_platform? h).2.2.1),
    OutputSettings.request]
  cases s.platform? <;> rfl

variable {s}

/-- A video that is not needed changes nothing. -/
theorem resolve_eq_of_settled (h : s.needsVideo = false) : resolve s video? = resolve s none := by
  rw [← leavesOpen_request, OutputSettings.leavesOpen, Bool.or_eq_false_iff,
    Bool.or_eq_false_iff] at h
  obtain ⟨⟨hwidth, hheight⟩, hfps⟩ := h
  obtain ⟨width, hwidth⟩ := Option.isSome_iff_exists.1 (Option.isNone_eq_false_iff.1 hwidth)
  obtain ⟨height, hheight⟩ := Option.isSome_iff_exists.1 (Option.isNone_eq_false_iff.1 hheight)
  obtain ⟨fps, hfps⟩ := Option.isSome_iff_exists.1 (Option.isNone_eq_false_iff.1 hfps)
  simp only [resolve, ofSettings, OutputSettings.or, hwidth, hheight, hfps, Option.some_or]
  cases video? <;> rfl

end Canvas

/-! ### Asking the engine -/

variable {σ α : Type}

/-- The world after an engine was asked about files, one after another. -/
def Engine.asked (engine : Engine (StateM σ) α) (files : List Path) (w : σ) : σ :=
  files.foldl (fun w file ↦ ((engine.probe file).run w).2) w

/-- What an engine tells about a video, if there is one. A failure tells nothing. -/
def Engine.known? (engine : Engine (StateM σ) α) (video? : Option Path) (w : σ) :
    Option (MediaInfo α) :=
  video?.bind fun file ↦ ((engine.probe file).run w).1.toOption

namespace Studio

/-- The file of the first video of a project, if there is a video. -/
def firstFile {m : Type → Type} [Monad m] (studio : Studio m α) (project : Project α)
    (media : Manifest) : m (Except Failure (Option Path)) :=
  match project.firstVideo? with
  | none => return .ok none
  | some video => return (← studio.storage.source media video.sourceId).map some

variable (studio : Studio (StateM σ) Float)

/-- A look at the video happens only if the video is needed. -/
theorem run_resolveWith (settings : OutputSettings Float)
    (look : StateM σ (Option (MediaInfo Float))) (w : σ) :
    (Canvas.resolveWith settings look).run w =
      (Canvas.resolve settings (look.run w).1,
        if settings.needsVideo then (look.run w).2 else w) := by
  rw [Canvas.resolveWith, Canvas.leavesOpen_request]
  cases hneeds : settings.needsVideo with
  | true => rfl
  | false =>
    rw [Canvas.resolve_eq_of_settled (look.run w).1 hneeds]
    rfl

/-- A canvas is settled field by field. The engine is asked about the first video once if the video
is needed, and not at all if it is not, or if there is none. -/
theorem settledBy_canvas (project : Project Float) (media : Manifest)
    (settings : OutputSettings Float) (w : σ) :
    match (studio.firstFile project media).run w with
    | (.error e, after) => (studio.canvas project media settings).run w = (.error e, after)
    | (.ok video?, after) => ∃ canvas : Canvas Float,
      (studio.canvas project media settings).run w = (.ok canvas,
        studio.engine.asked (if settings.needsVideo then video?.toList else []) after) ∧
      canvas.SettledBy settings (studio.engine.known? video? after) ∧ canvas.IsDrawable := by
  have hresolved (video? : Option (MediaInfo Float)) :
      (Canvas.resolve settings video?).SettledBy settings video? ∧
        (Canvas.resolve settings video?).IsDrawable :=
    ⟨Canvas.settledBy_resolve settings video?, (Canvas.settledBy_resolve settings video?).isDrawable⟩
  rw [firstFile, canvas]
  -- the engine can only be asked about a first video whose file was found
  cases project.firstVideo? with
  | none =>
    refine ⟨Canvas.resolve settings none, ?_, hresolved none⟩
    let unseen : StateM σ (Option (MediaInfo Float)) := pure none
    show (Except.ok ((Canvas.resolveWith settings unseen).run w).1,
      ((Canvas.resolveWith settings unseen).run w).2) = _
    rw [run_resolveWith]
    cases settings.needsVideo <;> rfl
  | some video =>
    dsimp only
    rw [StateT.run_bind, StateT.run_bind]
    rcases (studio.storage.source media video.sourceId).run w with ⟨e | path, after⟩
    · rfl
    · refine ⟨Canvas.resolve settings (studio.engine.known? (some path) after), ?_, hresolved _⟩
      show (Except.ok ((Canvas.resolveWith settings (studio.inspect path)).run after).1,
        ((Canvas.resolveWith settings (studio.inspect path)).run after).2) = _
      rw [run_resolveWith]
      cases settings.needsVideo <;> rfl

end Studio

end Splice
