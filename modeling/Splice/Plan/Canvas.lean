import Splice.Media.Info
import Splice.Timeline.Settings

/-!
# The canvas

The output format of one render. Each field is settled on its own: by the settings, by the platform
that the settings name, by the first video of the project, or by the default of 1920 by 1080 pixels
at 30 frames per second. A field counts only if it is usable. The bitrate has no default and is
not taken from a video.

`Canvas.resolveWith` looks at the video at most once, and only if the settings and the platform
leave a field of the picture open.
-/

namespace Splice

/-- The output format of one render. -/
structure Canvas (α : Type) where
  width : Nat
  height : Nat
  fps : α
  bitrate? : Option String

/-- The encoding that all jobs of one render share. -/
structure Encoding (α : Type) where
  fps : α
  bitrate? : Option String

/-! ### Usable fields -/

section Usable

variable {α : Type} [Scalar α]

/-- Whether a frame rate is finite and positive. -/
def isUsableRate (fps : α) : Bool := Scalar.isFinite fps && decide (0.0 < fps)

/-- The fields of settings that can be used. -/
def OutputSettings.usable (s : OutputSettings α) : OutputSettings α where
  width? := s.width?.filter (0 < ·)
  height? := s.height?.filter (0 < ·)
  fps? := s.fps?.filter isUsableRate
  bitrate? := s.bitrate?.filter (!Text.isBlankText ·)

/-- The settings that a platform asks for. -/
def Preset.settings (p : Preset α) : OutputSettings α where
  width? := some p.width
  height? := some p.height
  fps? := some p.fps
  bitrate? := some p.bitrate

/-- The settings under which a video keeps its format. -/
def MediaInfo.settings (info : MediaInfo α) : OutputSettings α where
  width? := some info.width
  height? := some info.height
  fps? := some info.fps

/-- What the settings and the platform that they name ask for. -/
def OutputSettings.request (s : OutputSettings α) : OutputSettings α :=
  s.usable.or ((s.platform?.map Preset.settings).getD {})

/-- Whether a field of the picture is open. -/
def OutputSettings.leavesOpen {β : Type} (s : OutputSettings β) : Bool :=
  s.width?.isNone || s.height?.isNone || s.fps?.isNone

end Usable

namespace Canvas

/-- The canvas that nobody asked for. -/
def standard {α : Type} [Scalar α] : Canvas α := ⟨1920, 1080, 30.0, none⟩

/-- The canvas that settings ask for, with the default for what they leave out. -/
def ofSettings {α : Type} [Scalar α] (s : OutputSettings α) : Canvas α where
  width := s.width?.getD (standard (α := α)).width
  height := s.height?.getD (standard (α := α)).height
  fps := s.fps?.getD standard.fps
  bitrate? := s.bitrate?

/-- The canvas for settings and the format of the first video, if it is known. -/
def resolve {α : Type} [Scalar α] (s : OutputSettings α) (video? : Option (MediaInfo α)) :
    Canvas α :=
  ofSettings (s.request.or ((video?.map fun info ↦ info.settings.usable).getD {}))

/-- The canvas for settings, where the first video is looked at only if it matters. -/
def resolveWith {α : Type} [Scalar α] {m : Type → Type} [Monad m] (s : OutputSettings α)
    (video? : m (Option (MediaInfo α))) : m (Canvas α) := do
  if s.request.leavesOpen then return resolve s (← video?) else return resolve s none

/-- A length of time in whole frames; a half goes away from zero. -/
def frames {α : Type} [Scalar α] (canvas : Canvas α) (seconds : α) : Int :=
  Scalar.toInt64 (Scalar.round (seconds * canvas.fps))

/-- The encoding for a canvas. -/
def encoding {α : Type} (canvas : Canvas α) : Encoding α := ⟨canvas.fps, canvas.bitrate?⟩

end Canvas

end Splice
