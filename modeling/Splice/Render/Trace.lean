import Splice.Json.Print
import Splice.Plan.Encode
import Splice.Render.Session
import Splice.Timeline.Project

/-!
# Traces

The record of one render: what was planned, and how the base sequence was put together. It holds no
time of day and no path, so two renders of one project leave the same trace.
-/

namespace Splice

open Json (ofScalar ofInt ofNat ofOption)

/-- The counts of a trace. -/
structure TraceCounts (α : Type) where
  clipCount : Nat
  baseClipCount : Nat
  overlayCount : Nat
  audioClipCount : Nat
  fillerCount : Nat
  demotedCount : Nat
  acceptedTransitions : Nat
  rejectedTransitions : Nat
  fallbackTransitions : Nat
  finalDuration : α

/-- The record of one render. -/
structure Trace (α : Type) where
  canvas : Canvas α
  timelineEnd : α
  baseLayer? : Option Int
  clips : List (ClipView α)
  baseClipIds : List String
  overlayClipIds : List String
  demotions : List (Demotion α)
  decisions : List (EdgeDecision α)
  steps : List (MergeStep α)
  skippedAudio : List SkippedAudio
  summary : TraceCounts α

/-! ### Making a trace -/

namespace MergeStep

variable {α : Type}

/-- Whether the step is a filler. -/
def isFiller : MergeStep α → Bool
  | filler _ => true
  | _ => false

/-- Whether the step is a transition in the fallback style. -/
def isFallback : MergeStep α → Bool
  | transition _ _ _ _ _ _ _ usedFallback => usedFallback
  | _ => false

end MergeStep

/-- The counts of a render that ended with a length. -/
def TraceCounts.of {α : Type} (c : Composition α) (clips : List (Clip α))
    (steps : List (MergeStep α)) (finalDuration : α) : TraceCounts α where
  clipCount := clips.length
  baseClipCount := c.layers.base.length
  overlayCount := c.layers.overlays.length
  audioClipCount := clips.countP Clip.isAudio
  fillerCount := steps.countP MergeStep.isFiller
  demotedCount := c.layers.demotions.length
  acceptedTransitions := c.decisions.countP EdgeDecision.isAccepted
  rejectedTransitions := c.decisions.countP (!·.isAccepted)
  fallbackTransitions := steps.countP MergeStep.isFallback
  finalDuration

/-- The trace of a render, from what was planned and what happened. -/
def Trace.of {α : Type} [Scalar α] (project : Project α) (c : Composition α)
    (journal : Journal α) (finalDuration : α) : Trace α where
  canvas := c.canvas
  timelineEnd := c.timelineEnd
  baseLayer? := c.layers.baseLayer?
  clips := project.clips.map Clip.view
  baseClipIds := c.layers.base.map Clip.id
  overlayClipIds := c.layers.overlays.map Clip.id
  demotions := c.layers.demotions
  decisions := c.decisions
  steps := journal.steps
  skippedAudio := journal.skippedAudio
  summary := .of c project.clips journal.steps finalDuration

/-- The path of the trace of an output. -/
def traceFile (output : Path) : Path := ⟨output.text ++ ".parity.trace.json"⟩

/-! ### Documents -/

variable {α : Type} [Scalar α]

/-- The document of a step. -/
def MergeStep.encode : MergeStep α → Json
  | filler f =>
    .object <| ("kind", .string f.kind.name) ::
      (if f.kind = .blank then [] else [("start", ofScalar f.start)]) ++
      [("duration", ofScalar f.duration)]
  | clip clipId duration =>
    .object [("kind", .string "clip"), ("clip_id", .string clipId),
      ("duration", ofScalar duration)]
  | transition fromClipId toClipId style duration left right result usedFallback =>
    .object [("kind", .string "transition_merge"), ("from_clip_id", .string fromClipId),
      ("to_clip_id", .string toClipId), ("style", style.encode),
      ("duration", ofScalar duration), ("left_duration", ofScalar left),
      ("right_duration", ofScalar right), ("result_duration", ofScalar result),
      ("fallback_used", .bool usedFallback)]
  | concat left right result =>
    .object [("kind", .string "concat"), ("left_duration", ofScalar left),
      ("right_duration", ofScalar right), ("result_duration", ofScalar result)]

/-- The document of a sound that was not mixed in. -/
def SkippedAudio.encode (a : SkippedAudio) : Json :=
  .object [("clip_id", .string a.clipId), ("source_id", .string a.sourceId),
    ("reason", .string "video_source_audio_in_base")]

/-- The document of the counts. -/
def TraceCounts.encode (s : TraceCounts α) : Json :=
  .object [("clip_count", ofNat s.clipCount), ("base_clip_count", ofNat s.baseClipCount),
    ("overlay_count", ofNat s.overlayCount), ("audio_clip_count", ofNat s.audioClipCount),
    ("filler_count", ofNat s.fillerCount), ("demoted_count", ofNat s.demotedCount),
    ("accepted_transitions", ofNat s.acceptedTransitions),
    ("rejected_transitions", ofNat s.rejectedTransitions),
    ("fallback_transitions", ofNat s.fallbackTransitions),
    ("final_duration", ofScalar s.finalDuration)]

/-- The document of a trace. -/
def Trace.encode (t : Trace α) : Json :=
  .object [("canvas", t.canvas.encode), ("timeline_end", ofScalar t.timelineEnd),
    ("base_layer", ofOption ofInt t.baseLayer?),
    ("clips", .array (t.clips.map ClipView.encode)),
    ("base_clip_ids", .array (t.baseClipIds.map .string)),
    ("overlay_clip_ids", .array (t.overlayClipIds.map .string)),
    ("demotions", .array (t.demotions.map Demotion.encode)),
    ("transition_decisions", .array (t.decisions.map EdgeDecision.encode)),
    ("merge_steps", .array (t.steps.map MergeStep.encode)),
    ("skipped_audio", .array (t.skippedAudio.map SkippedAudio.encode)),
    ("summary", t.summary.encode)]

/-- The text of a trace. -/
def Trace.text (t : Trace α) : String := t.encode.pretty

end Splice
