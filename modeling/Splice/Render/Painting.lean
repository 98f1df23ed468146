import Splice.Render.Placement
import Splice.Render.Sound
import Splice.Shape

/-!
# Overlays

Videos, pictures, texts and shapes painted over what is there, one job each. A video brings its
sound along; a shape is drawn into a picture first.
-/

namespace Splice.Session

variable {m : Type → Type} [Monad m] {α : Type} [Scalar α] (s : Session m α)

/-- The color of a text without one. -/
def standardTextColor : String := "#ffffff"

/-- The job that paints a picture over a base. -/
def paintJob (clip : Clip α) (base : RenderedFile α) (source : Job.OverlayPicture)
    (placement : Placement α) (stop : α) (mode : FitMode) (rotation : α) :
    RenderT α m (Job.Overlay α) := do
  return {
    base := base.path
    source
    start := clip.startTime
    stop
    x := placement.x
    y := placement.y
    width := placement.rect.width
    height := placement.rect.height
    opacity := placement.opacity
    fit := mode
    rotation
    blend := BlendMode.ofName (clip.effects.blendMode?.getD "normal")
    canvasWidth := s.canvas.width
    canvasHeight := s.canvas.height
    encoding := s.canvas.encoding
    output := ← s.freshPath ("overlay_" ++ fileLabel clip.id) "mp4" }

/-- The placement of a clip on the canvas. -/
def placementOf (clip : Clip α) (look : Look α) : Placement α :=
  look.place clip.startTime s.canvas.width s.canvas.height

/-- Paints a video, and mixes in its sound unless it is muted. The sound of the rendered segment has
the volume of the clip. -/
def paintVideo (base : RenderedFile α) (clip : Clip α) (media : MediaClip α) :
    RenderT α m (RenderedFile α) := do
  let input ← s.source media.sourceId
  let segment ← s.makeSegment clip media input {}
  let job ← s.paintJob clip base (.video segment.path) (s.placementOf clip media.look)
    (clip.startTime + segment.duration) media.look.fitMode media.look.rotation
  let painted : RenderedFile α := ⟨← s.run (.overlay job), base.duration⟩
  if 0.0 < clip.effects.volume then s.mixSound painted segment.path clip.startTime clip.id
  else return painted

/-- Paints a still picture. -/
def paintPicture (base : RenderedFile α) (clip : Clip α) (media : MediaClip α) :
    RenderT α m (RenderedFile α) := do
  let path ← s.asset media.sourceId
  let job ← s.paintJob clip base (.image path) (s.placementOf clip media.look) clip.overlayEnd
    media.look.fitMode media.look.rotation
  return ⟨← s.run (.overlay job), base.duration⟩

/-- Writes a text. An opacity that does not change becomes part of the color. -/
def paintText (base : RenderedFile α) (clip : Clip α) (text : TextClip α) :
    RenderT α m (RenderedFile α) := do
  let placement := s.placementOf clip text.look
  let alpha := if placement.opacity.isFlat then placement.opacity.eval 0.0 else 1.0
  let job : Job.Text α := {
    base := base.path
    text := text.shownText
    start := clip.startTime
    stop := clip.overlayEnd
    x := placement.x
    y := placement.y
    opacity := placement.opacity
    fontSize := fontSize α placement.rect.height
    color := filterColor (text.color?.getD standardTextColor) alpha
    encoding := s.canvas.encoding
    output := ← s.freshPath ("text_" ++ fileLabel clip.id) "mp4" }
  return ⟨← s.run (.text job), base.duration⟩

/-- The shape of a clip in a box. -/
def spriteOf (shape : ShapeClip α) (rect : PixelBox) : Sprite where
  kind := ShapeKind.ofName shape.shownShape
  width := rect.width
  height := rect.height
  fill := fillColor shape.color? (1.0 : α)
  outlined := shape.outline

/-- Draws a shape and paints it. -/
def paintShape (base : RenderedFile α) (clip : Clip α) (shape : ShapeClip α) :
    RenderT α m (RenderedFile α) := do
  let placement := s.placementOf clip shape.look
  let drawing ← s.freshPath ("shape_" ++ fileLabel clip.id) "png"
  s.drawInto drawing ((spriteOf shape placement.rect).picture α)
  let job ← s.paintJob clip base (.image drawing) placement clip.overlayEnd .stretch
    shape.look.rotation
  return ⟨← s.run (.overlay job), base.duration⟩

/-- Paints a clip over a base. -/
def addOverlay (base : RenderedFile α) (clip : Clip α) : RenderT α m (RenderedFile α) :=
  match clip.content with
  | .video media => s.paintVideo base clip media
  | .image media => s.paintPicture base clip media
  | .text text => s.paintText base clip text
  | .shape shape => s.paintShape base clip shape
  | .audio _ => return base

/-- Paints clips over a base, one after another. -/
def addOverlays (base : RenderedFile α) (clips : List (Clip α)) : RenderT α m (RenderedFile α) :=
  clips.foldlM s.addOverlay base

end Splice.Session
