import Splice.Timeline.Area
import Splice.Timeline.Curve
import Splice.Timeline.Effects

/-!
# Clips

One item on a timeline: a video, an image, a text, a shape or a sound, with its place in time and
its layer. All but a sound have a placement on the canvas (`Look`).

A video clip lasts as long as its source window plays at its speed (`Clip.effectiveDuration`); every
other clip lasts for its `duration`.
-/

namespace Splice

/-- The shortest segment that is rendered, in seconds. -/
def leastSegment {α : Type} [Scalar α] : α := 0.05

/-! ### Placement -/

/-- The position that a keyframe sets; either axis may be left out. -/
structure PartialPosition (α : Type) where
  x? : Option α
  y? : Option α
deriving BEq

/-- One animation sample. Its time counts from the start of the clip, or of the timeline if it is
absolute. -/
structure Keyframe (α : Type) where
  time : α
  absolute : Bool := false
  position? : Option (PartialPosition α) := none
  opacity? : Option α := none
deriving BEq

/-- The placement of a clip that can be seen. -/
structure Look (α : Type) where
  position : Position α
  size : Size α
  rotation : α
  fitMode : FitMode
  crop? : Option (Crop α)
  effects : Effects α
  keyframes : List (Keyframe α)
deriving BEq

/-! ### Kinds of clips -/

/-- What a video or an image clip plays. -/
structure MediaClip (α : Type) where
  sourceId : String
  trimStart : α
  trimEnd? : Option α
  look : Look α
deriving BEq

/-- A text that is drawn into the picture. -/
structure TextClip (α : Type) where
  text? : Option String
  label? : Option String
  color? : Option String
  look : Look α
deriving BEq

/-- A shape that is drawn into the picture. -/
structure ShapeClip (α : Type) where
  label? : Option String
  shapeType? : Option String
  color? : Option String
  outline : Bool
  look : Look α
deriving BEq

/-- A sound that is mixed in. -/
structure AudioClip (α : Type) where
  sourceId : String
  trimStart : α
  effects : Effects α
deriving BEq

/-- What a clip consists of. -/
inductive Content (α : Type) where
  | video (media : MediaClip α)
  | image (media : MediaClip α)
  | text (text : TextClip α)
  | shape (shape : ShapeClip α)
  | audio (audio : AudioClip α)
deriving BEq

/-- One item on a timeline. -/
structure Clip (α : Type) where
  id : String
  startTime : α
  duration : α
  layer : Int
  layerGroup? : Option String
  content : Content α
deriving BEq

/-! ### Layer groups -/

/-- The groups in which clips are painted. -/
inductive LayerGroup where
  | video
  | graphics
  | audio
  | other
deriving DecidableEq, Repr

namespace LayerGroup

/-- The group of a tag; an unknown tag is `other`. -/
def ofTag (tag : String) : LayerGroup :=
  match Text.nameKey tag with
  | "video" => video
  | "graphics" => graphics
  | "audio" => audio
  | _ => other

/-- The paint rank: video below graphics, graphics below everything else. -/
def rank : LayerGroup → Nat
  | video => 0
  | graphics => 1
  | audio => 2
  | other => 2

/-- The name of a group. -/
def name : LayerGroup → String
  | video => "video"
  | graphics => "graphics"
  | audio => "audio"
  | other => "other"

end LayerGroup

variable {α : Type} [Scalar α]

/-! ### Source windows -/

/-- The part of a source that a clip plays, and how long it takes at the clip's speed. -/
structure Excerpt (α : Type) where
  start : α
  sourceDuration : α
  outputDuration : α
  speed : α

/-- The source window of a clip that lasts for `duration`. A finite trim end decides the length in
place of the duration. -/
def MediaClip.excerpt (media : MediaClip α) (duration : α) : Excerpt α :=
  let speed := media.look.effects.speed
  let start := Scalar.max media.trimStart 0.0
  let sourceDuration := match media.trimEnd?.filter Scalar.isFinite with
    | some stop => Scalar.max (stop - start) leastSegment
    | none => Scalar.max duration leastSegment * speed
  ⟨start, sourceDuration, Scalar.max (sourceDuration / speed) leastSegment, speed⟩

/-! ### Texts and shapes -/

/-- The text that is drawn: the text, else the label, else a placeholder. A blank one does not
count. -/
def TextClip.shownText {β : Type} (clip : TextClip β) : String :=
  ([clip.text?, clip.label?].filterMap id).find? (!Text.isBlankText ·) |>.getD "Text"

/-- The name of the shape: its type, else the label, else a square. Blank ones do not count. -/
def ShapeClip.shownShape {β : Type} (clip : ShapeClip β) : String :=
  (([clip.shapeType?, clip.label?].filterMap id).map Text.nameKey).find? (!·.isEmpty)
    |>.getD "square"

/-! ### Clips -/

namespace Content

/-- The name of a kind. -/
def name {β : Type} : Content β → String
  | video _ => "video"
  | image _ => "image"
  | text _ => "text"
  | shape _ => "shape"
  | audio _ => "audio"

/-- The group that clips of a kind belong to by default. -/
def group {β : Type} : Content β → LayerGroup
  | video _ => .video
  | image _ => .graphics
  | text _ => .graphics
  | shape _ => .graphics
  | audio _ => .audio

/-- The placement, of every kind but a sound. -/
def look? {β : Type} : Content β → Option (Look β)
  | video media => some media.look
  | image media => some media.look
  | text t => some t.look
  | shape s => some s.look
  | audio _ => none

/-- The effects. -/
def effects {β : Type} : Content β → Effects β
  | video media => media.look.effects
  | image media => media.look.effects
  | text t => t.look.effects
  | shape s => s.look.effects
  | audio a => a.effects

/-- The source or asset that is played. -/
def sourceId? {β : Type} : Content β → Option String
  | video media => some media.sourceId
  | image media => some media.sourceId
  | audio a => some a.sourceId
  | text _ => none
  | shape _ => none

end Content

namespace Clip

/-- The effects of a clip. -/
def effects {β : Type} (clip : Clip β) : Effects β := clip.content.effects

/-- What a video clip plays. -/
def video? {β : Type} (clip : Clip β) : Option (MediaClip β) :=
  match clip.content with
  | .video media => some media
  | _ => none

/-- Whether the clip is a video. -/
def isVideo {β : Type} (clip : Clip β) : Bool := clip.video?.isSome

/-- The layer group: the tag if it is not blank, else the default of the kind. -/
def group {β : Type} (clip : Clip β) : LayerGroup :=
  match clip.layerGroup?.filter (!Text.isBlankText ·) with
  | some tag => LayerGroup.ofTag tag
  | none => clip.content.group

/-- The end on the timeline. -/
def endTime (clip : Clip α) : α := clip.startTime + clip.duration

/-- The seconds that the clip takes when it is rendered. -/
def effectiveDuration (clip : Clip α) : α :=
  match clip.content with
  | .video media =>
    if media.trimEnd?.isSome then (media.excerpt clip.duration).outputDuration
    else clip.duration
  | _ => clip.duration

/-- The end that follows from the effective duration. -/
def effectiveEnd (clip : Clip α) : α := clip.startTime + clip.effectiveDuration

end Clip

end Splice
