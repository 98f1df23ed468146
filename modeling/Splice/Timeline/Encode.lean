import Splice.Timeline.Project
import Splice.Json.Basic

/-!
# Projects as documents

The document of a project. A clip is one flat object: its own fields, the `type` of its kind, and
the fields of the kind and of the placement beside them. Optional fields that are absent are left
out.
-/

namespace Splice

open Json (ofScalar ofInt ofNat member?)

variable {α : Type} [Scalar α]

/-! ### Parts of a clip -/

/-- The document of a position. -/
def Position.encode (p : Position α) : Json := .object [("x", ofScalar p.x), ("y", ofScalar p.y)]

/-- The document of a size. -/
def Size.encode (s : Size α) : Json :=
  .object [("width", ofScalar s.width), ("height", ofScalar s.height)]

/-- The document of a crop box. -/
def Crop.encode (b : Crop α) : Json :=
  .object [("x", ofScalar b.x), ("y", ofScalar b.y), ("width", ofScalar b.width),
    ("height", ofScalar b.height)]

/-- The document of a fit mode. -/
def FitMode.encode (mode : FitMode) : Json := .string mode.name

/-- The document of effects. -/
def Effects.encode (e : Effects α) : Json :=
  .object <|
    member? "opacity" ofScalar e.opacity? ++
    member? "brightness" ofScalar e.brightness? ++
    member? "contrast" ofScalar e.contrast? ++
    member? "saturation" ofScalar e.saturation? ++
    member? "gamma" ofScalar e.gamma? ++
    member? "hue" ofScalar e.hue? ++
    member? "blur" ofScalar e.blur? ++
    member? "volume" ofScalar e.volume? ++
    member? "fadeIn" ofScalar e.fadeIn? ++
    member? "fadeOut" ofScalar e.fadeOut? ++
    member? "audioFadeIn" ofScalar e.audioFadeIn? ++
    member? "audioFadeOut" ofScalar e.audioFadeOut? ++
    member? "speed" ofScalar e.speed? ++
    member? "transition" .string e.transition? ++
    member? "transitionDuration" ofScalar e.transitionDuration? ++
    member? "transitionWith" .string e.transitionWith? ++
    member? "blendMode" .string e.blendMode?

/-- The document of a keyframe's position. -/
def PartialPosition.encode (p : PartialPosition α) : Json :=
  .object (member? "x" ofScalar p.x? ++ member? "y" ofScalar p.y?)

/-- The document of a keyframe. -/
def Keyframe.encode (k : Keyframe α) : Json :=
  .object <|
    [("time", ofScalar k.time), ("absolute", .bool k.absolute)] ++
    member? "position" PartialPosition.encode k.position? ++
    member? "opacity" ofScalar k.opacity?

/-- The members of a placement. -/
def Look.members (v : Look α) : List (String × Json) :=
  [("position", v.position.encode), ("size", v.size.encode), ("rotation", ofScalar v.rotation),
    ("fitMode", v.fitMode.encode)] ++
  member? "crop" Crop.encode v.crop? ++
  [("effects", v.effects.encode)] ++
  (if v.keyframes.isEmpty then [] else [("keyframes", .array (v.keyframes.map Keyframe.encode))])

/-! ### Clips -/

/-- The members of a video or an image clip. -/
def MediaClip.members (m : MediaClip α) : List (String × Json) :=
  [("sourceId", .string m.sourceId), ("trimStart", ofScalar m.trimStart)] ++
  member? "trimEnd" ofScalar m.trimEnd? ++ m.look.members

/-- The members of a text clip. -/
def TextClip.members (t : TextClip α) : List (String × Json) :=
  member? "text" .string t.text? ++ member? "label" .string t.label? ++
  [("style", .object (member? "color" .string t.color?))] ++ t.look.members

/-- The members of a shape clip. -/
def ShapeClip.members (s : ShapeClip α) : List (String × Json) :=
  member? "label" .string s.label? ++
  [("style", .object (member? "shapeType" .string s.shapeType? ++
    member? "color" .string s.color? ++ [("outline", .bool s.outline)]))] ++ s.look.members

/-- The members of a sound. -/
def AudioClip.members (a : AudioClip α) : List (String × Json) :=
  [("sourceId", .string a.sourceId), ("trimStart", ofScalar a.trimStart),
    ("effects", a.effects.encode)]

/-- The members of what a clip consists of. -/
def Content.members : Content α → List (String × Json)
  | video media => media.members
  | image media => media.members
  | text t => t.members
  | shape s => s.members
  | audio a => a.members

/-- The document of a clip. -/
def Clip.encode (c : Clip α) : Json :=
  .object <|
    [("id", .string c.id), ("startTime", ofScalar c.startTime),
      ("duration", ofScalar c.duration), ("layer", ofInt c.layer)] ++
    member? "layerGroup" .string c.layerGroup? ++
    [("type", .string c.content.name)] ++ c.content.members

/-! ### Projects -/

/-- The document of a requested output format. -/
def OutputSettings.encode (s : OutputSettings α) : Json :=
  .object <|
    member? "width" ofNat s.width? ++ member? "height" ofNat s.height? ++
    member? "fps" ofScalar s.fps? ++ member? "bitrate" .string s.bitrate? ++
    member? "preset" .string s.preset?

/-- The document of a track. -/
def Track.encode (t : Track α) : Json :=
  .object (member? "id" .string t.id? ++ [("clips", .array (t.clips.map Clip.encode))])

/-- The document of a project. -/
def Project.encode (p : Project α) : Json :=
  .object (("tracks", .array (p.tracks.map Track.encode)) ::
    member? "outputSettings" OutputSettings.encode p.outputSettings?)

end Splice
