import Splice.Job.Basic
import Splice.Plan.Encode

/-!
# Jobs as documents

The document of a job: one flat object, with the name of the operation as its tag. A curve is the
list of its samples.
-/

namespace Splice

open Json (ofScalar ofInt ofNat ofOption)

variable {α : Type} [Scalar α]

/-! ### Parts of jobs -/

/-- The document of a path. -/
def Path.encode (p : Path) : Json := .string p.text

/-- The document of a rectangle. -/
def PixelBox.encode (r : PixelBox) : Json :=
  .object [("x", ofInt r.x), ("y", ofInt r.y), ("width", ofNat r.width),
    ("height", ofNat r.height)]

/-- The document of a curve. -/
def Curve.encode (c : Curve α) : Json :=
  .array (c.points.map fun (time, value) ↦ .array [ofScalar time, ofScalar value])

/-- The document of an adjustment of colors. -/
def ColorBalance.encode (c : ColorBalance α) : Json :=
  .object [("brightness", ofScalar c.brightness), ("contrast", ofScalar c.contrast),
    ("saturation", ofScalar c.saturation), ("gamma", ofScalar c.gamma)]

/-- The document of fades. -/
def Fades.encode (f : Fades α) : Json :=
  .object [("video_in", ofScalar f.videoIn), ("video_out", ofScalar f.videoOut),
    ("audio_in", ofScalar f.audioIn), ("audio_out", ofScalar f.audioOut)]

/-- The document of what an overlay shows. -/
def Job.OverlayPicture.encode : OverlayPicture → Json
  | video path => .object [("kind", .string "video"), ("path", path.encode)]
  | image path => .object [("kind", .string "image"), ("path", path.encode)]

/-! ### Jobs -/

namespace Job

/-- The members of a blank. -/
def Blank.members (j : Blank α) : List (String × Json) :=
  [("width", ofNat j.width), ("height", ofNat j.height), ("duration", ofScalar j.duration),
    ("encoding", j.encoding.encode), ("output", j.output.encode)]

/-- The members of a segment. -/
def Segment.members (j : Segment α) : List (String × Json) :=
  [("input", j.input.encode), ("seek", ofScalar j.seek),
    ("source_duration", ofScalar j.sourceDuration),
    ("output_duration", ofScalar j.outputDuration), ("has_audio", .bool j.hasAudio),
    ("crop", ofOption PixelBox.encode j.crop?), ("fit", .string j.fit.name),
    ("width", ofNat j.width), ("height", ofNat j.height), ("rotation", ofScalar j.rotation),
    ("color", j.color.encode), ("hue", ofScalar j.hue), ("blur", ofScalar j.blur),
    ("opacity", ofScalar j.opacity), ("speed", ofScalar j.speed), ("volume", ofScalar j.volume),
    ("fades", j.fades.encode), ("encoding", j.encoding.encode), ("output", j.output.encode)]

/-- The members of a transition. -/
def Transition.members (j : Transition α) : List (String × Json) :=
  [("first", j.first.encode), ("second", j.second.encode), ("style", j.style.encode),
    ("duration", ofScalar j.duration), ("offset", ofScalar j.offset),
    ("encoding", j.encoding.encode), ("output", j.output.encode)]

/-- The members of a concatenation. -/
def Concat.members (j : Concat) : List (String × Json) :=
  [("inputs", .array (j.inputs.map Path.encode)), ("list_path", j.listPath.encode),
    ("output", j.output.encode)]

/-- The members of an overlay. -/
def Overlay.members (j : Overlay α) : List (String × Json) :=
  [("base", j.base.encode), ("source", j.source.encode), ("start", ofScalar j.start),
    ("end", ofScalar j.stop), ("x", j.x.encode), ("y", j.y.encode), ("width", ofNat j.width),
    ("height", ofNat j.height), ("opacity", j.opacity.encode), ("fit", .string j.fit.name),
    ("rotation", ofScalar j.rotation), ("blend", .string j.blend.name),
    ("canvas_width", ofNat j.canvasWidth), ("canvas_height", ofNat j.canvasHeight),
    ("encoding", j.encoding.encode), ("output", j.output.encode)]

/-- The members of a text. -/
def Text.members (j : Text α) : List (String × Json) :=
  [("base", j.base.encode), ("text", .string j.text), ("start", ofScalar j.start),
    ("end", ofScalar j.stop), ("x", j.x.encode), ("y", j.y.encode),
    ("opacity", j.opacity.encode), ("font_size", ofNat j.fontSize), ("color", .string j.color),
    ("encoding", j.encoding.encode), ("output", j.output.encode)]

/-- The members of a part of a sound. -/
def AudioTrim.members (j : AudioTrim α) : List (String × Json) :=
  [("input", j.input.encode), ("start", ofScalar j.start), ("duration", ofScalar j.duration),
    ("volume", ofScalar j.volume), ("fade_in", ofScalar j.fadeIn),
    ("fade_out", ofScalar j.fadeOut), ("output", j.output.encode)]

/-- The members of a mixed sound. -/
def AudioMix.members (j : AudioMix α) : List (String × Json) :=
  [("base", j.base.encode), ("audio", j.audio.encode), ("at", ofScalar j.time),
    ("volume", ofScalar j.volume), ("base_has_audio", .bool j.baseHasAudio),
    ("max_duration", ofScalar j.maxDuration), ("output", j.output.encode)]

/-- The members of a job. -/
def members : Job α → List (String × Json)
  | blank j => j.members
  | segment j => j.members
  | transition j => j.members
  | concat j => j.members
  | overlay j => j.members
  | text j => j.members
  | audioTrim j => j.members
  | audioMix j => j.members

/-- The document of a job. -/
def encode (j : Job α) : Json := .object (("job", .string j.operation) :: j.members)

end Job

end Splice
