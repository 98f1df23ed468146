import Splice.Json.Basic

/-!
# Media files

What is known about one media file. A side or a rate that is not known is zero.
-/

namespace Splice

/-- Facts about one media file. -/
structure MediaInfo (α : Type) where
  duration : α
  width : Nat
  height : Nat
  fps : α
  hasAudio : Bool

/-- The document of facts about a media file. -/
def MediaInfo.encode {α : Type} [Scalar α] (info : MediaInfo α) : Json :=
  .object [("duration", .ofScalar info.duration), ("width", .ofNat info.width),
    ("height", .ofNat info.height), ("fps", .ofScalar info.fps),
    ("has_audio", .bool info.hasAudio)]

end Splice
