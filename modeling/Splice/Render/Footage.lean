import Splice.Plan.Composition
import Splice.Render.Session

/-!
# Segments

The entries of the base sequence as files: a video clip becomes the part of its source that it
plays, brought to the canvas; a filler becomes black and silent video.
-/

namespace Splice.Session

variable {m : Type → Type} [Monad m] {α : Type} [Scalar α] (s : Session m α)

/-- The crop of a video in pixels of its source. A source of unknown size is not cropped. -/
def cropOf (look : Look α) (input : Path) : RenderT α m (Option PixelBox) :=
  match look.crop? with
  | none => return none
  | some box => do
    return (← s.inspect input).bind fun info ↦ box.withinFrame.pixels? info.width info.height

/-- The fades of a clip. At an edge that blends into a neighbour there is none. -/
def fadesOf (effects : Effects α) (blended : BlendedEdges) : Fades α where
  videoIn := if blended.incoming then 0.0 else effects.fadeIn
  videoOut := if blended.outgoing then 0.0 else effects.fadeOut
  audioIn := if blended.incoming then 0.0 else effects.audioFadeIn
  audioOut := if blended.outgoing then 0.0 else effects.audioFadeOut

/-- The job that renders a video clip from a file. -/
def segmentOf (duration : α) (media : MediaClip α) (input : Path) (blended : BlendedEdges)
    (output : Path) : RenderT α m (Job.Segment α) := do
  let window := media.excerpt duration
  let look := media.look
  let effects := look.effects
  let hasAudio ← s.hasAudio input
  let crop? ← s.cropOf look input
  return {
    input
    seek := window.start
    sourceDuration := window.sourceDuration
    outputDuration := window.outputDuration
    hasAudio
    crop?
    fit := look.fitMode
    width := s.canvas.width
    height := s.canvas.height
    rotation := look.rotation
    color := ⟨effects.brightness, effects.contrast, effects.saturation, effects.gamma⟩
    hue := effects.hue
    blur := effects.blur
    opacity := effects.opacity
    speed := window.speed
    volume := effects.volume
    fades := fadesOf effects blended
    encoding := s.canvas.encoding
    output }

/-- Renders a video clip. -/
def makeSegment (clip : Clip α) (media : MediaClip α) (input : Path) (blended : BlendedEdges) :
    RenderT α m (RenderedFile α) := do
  let output ← s.freshPath ("segment_" ++ fileLabel clip.id) "mp4"
  let job ← s.segmentOf clip.duration media input blended output
  return ⟨← s.run (.segment job), job.outputDuration⟩

/-- Renders a filler. -/
def renderFiller (filler : Filler α) : RenderT α m (RenderedFile α) := do
  let output ← s.freshPath filler.kind.name "mp4"
  let job : Job.Blank α :=
    ⟨s.canvas.width, s.canvas.height, filler.duration, s.canvas.encoding, output⟩
  return ⟨← s.run (.blank job), filler.duration⟩

end Splice.Session
