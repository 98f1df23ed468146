/-!
# Stages

The stages of a render, in the order in which it goes through them.
-/

namespace Splice

/-- A stage of a render. -/
inductive Stage where
  | validating
  | resolvingCanvas
  | planning
  | renderingSegments
  | compositingSequence
  | compositingOverlays
  | mixingAudio
  | finalizing
  | complete
deriving DecidableEq, Repr

namespace Stage

/-- The stages in their order. -/
def all : List Stage :=
  [validating, resolvingCanvas, planning, renderingSegments, compositingSequence,
    compositingOverlays, mixingAudio, finalizing, complete]

/-- The name of a stage in documents. -/
def name : Stage → String
  | validating => "validating"
  | resolvingCanvas => "resolving_canvas"
  | planning => "planning"
  | renderingSegments => "rendering_segments"
  | compositingSequence => "compositing_sequence"
  | compositingOverlays => "compositing_overlays"
  | mixingAudio => "mixing_audio"
  | finalizing => "finalizing"
  | complete => "complete"

/-- The name of a stage as it is shown. -/
def title : Stage → String
  | validating => "Validating"
  | resolvingCanvas => "ResolvingCanvas"
  | planning => "Planning"
  | renderingSegments => "RenderingSegments"
  | compositingSequence => "CompositingSequence"
  | compositingOverlays => "CompositingOverlays"
  | mixingAudio => "MixingAudio"
  | finalizing => "Finalizing"
  | complete => "Complete"

end Stage

end Splice
