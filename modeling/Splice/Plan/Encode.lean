import Splice.Json.Basic
import Splice.Plan.Composition
import Splice.Plan.ClipView

/-!
# Compositions as documents

The document of a composition, for people and tools that want to know what a render would do.
-/

namespace Splice

open Json (ofScalar ofInt ofNat ofOption member?)

variable {α : Type} [Scalar α]

/-- The document of a canvas. -/
def Canvas.encode (c : Canvas α) : Json :=
  .object ([("width", ofNat c.width), ("height", ofNat c.height), ("fps", ofScalar c.fps)] ++
    member? "bitrate" .string c.bitrate?)

/-- The document of an encoding. -/
def Encoding.encode (e : Encoding α) : Json :=
  .object [("fps", ofScalar e.fps), ("bitrate", ofOption .string e.bitrate?)]

/-- The document of a view. -/
def ClipView.encode (s : ClipView α) : Json :=
  .object <|
    [("id", .string s.id), ("type", .string s.kind), ("start", ofScalar s.start),
      ("duration", ofScalar s.duration), ("effective_duration", ofScalar s.effectiveDuration),
      ("layer", ofInt s.layer), ("group", .string s.group.name)] ++
    member? "source_id" .string s.sourceId? ++
    member? "transition" .string s.transition? ++
    member? "transition_with" .string s.transitionTarget? ++
    [("transition_duration", ofScalar s.transitionDuration)]

/-- The document of a demotion. -/
def Demotion.encode (d : Demotion α) : Json :=
  .object [("clip_id", .string d.clipId), ("start", ofScalar d.start),
    ("cursor", ofScalar d.cursor), ("reason", .string "start_before_cursor")]

/-- The document of an entry of the base sequence. -/
def Entry.encode : Entry α → Json
  | clip _ c =>
    .object [("entry", .string "clip"), ("clip_id", .string c.id),
      ("start", ofScalar c.startTime), ("duration", ofScalar c.effectiveDuration)]
  | filler f =>
    .object [("entry", .string "filler"), ("kind", .string f.kind.name),
      ("start", ofScalar f.start), ("duration", ofScalar f.duration)]

/-- The document of a transition style. -/
def TransitionStyle.encode (style : TransitionStyle) : Json := .string style.name

/-- The document of a decision on a transition. -/
def EdgeDecision.encode (d : EdgeDecision α) : Json :=
  .object [("index", ofNat d.index), ("from_clip_id", .string d.fromClipId),
    ("to_clip_id", .string d.toClipId), ("gap_seconds", ofScalar d.gapSeconds),
    ("gap_frames", ofInt d.gapFrames), ("accepted", .bool d.isAccepted),
    ("reason", .string d.reason.name),
    ("normalized_transition", ofOption TransitionStyle.encode d.style?),
    ("requested_duration", ofScalar d.requestedDuration),
    ("duration", ofOption ofScalar d.duration?),
    ("max_duration", ofOption ofScalar d.maxDuration?)]

/-- The views of clips as a document. -/
def encodeViews (clips : List (Clip α)) : Json :=
  .array (clips.map fun clip ↦ clip.view.encode)

/-- The document of a composition. -/
def Composition.encode (c : Composition α) : Json :=
  .object [("canvas", c.canvas.encode), ("timeline_end", ofScalar c.timelineEnd),
    ("base_layer", ofOption ofInt c.layers.baseLayer?),
    ("base", .array (c.entries.map Entry.encode)),
    ("overlays", encodeViews c.layers.overlays),
    ("audio", encodeViews c.layers.audio),
    ("demotions", .array (c.layers.demotions.map Demotion.encode)),
    ("transition_decisions", .array (c.decisions.map EdgeDecision.encode))]

end Splice
