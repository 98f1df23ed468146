import Splice.Timeline.Clip

/-!
# Placement of overlays

Where an overlay is on the canvas, and how its position and its opacity change while it is there.
-/

namespace Splice

variable {α : Type} [Scalar α]

/-- The time of a keyframe since the start of its clip. -/
def Keyframe.relativeTime (k : Keyframe α) (clipStart : α) : α :=
  if k.absolute then k.time - clipStart else k.time

/-- The curve of one quantity through the keyframes that set it. -/
def Curve.ofKeyframes (keyframes : List (Keyframe α)) (clipStart fallback : α)
    (pick : Keyframe α → Option α) : Curve α :=
  .ofSamples
    (keyframes.filterMap fun k ↦ (pick k).map fun value ↦ (k.relativeTime clipStart, value))
    fallback

/-- An overlay on the canvas. The curves run with the time since its start; positions are in
pixels. -/
structure Placement (α : Type) where
  rect : PixelBox
  x : Curve α
  y : Curve α
  opacity : Curve α

/-- The placement of an overlay that starts at a time, on a canvas of the given size. -/
def Look.place (v : Look α) (clipStart : α) (width height : Nat) : Placement α :=
  let rect := PixelBox.ofPercent v.position v.size width height
  let curve := Curve.ofKeyframes v.keyframes clipStart
  { rect
    x := curve (Scalar.ofInt rect.x) fun k ↦
      (k.position?.bind (·.x?)).map fun percent ↦ Scalar.ofNat width * percent / 100.0
    y := curve (Scalar.ofInt rect.y) fun k ↦
      (k.position?.bind (·.y?)).map fun percent ↦ Scalar.ofNat height * percent / 100.0
    opacity := curve v.effects.opacity fun k ↦
      (k.opacity?.filter Scalar.isFinite).map (Scalar.clamp 0.0 1.0) }

/-- The smallest font, in pixels. -/
def leastFontSize : Nat := 14

/-- The size of the font that suits a box. -/
def fontSize (α : Type) [Scalar α] (boxHeight : Nat) : Nat :=
  max (Scalar.toNat32 (Scalar.floor ((Scalar.ofNat boxHeight : α) * 0.6))) leastFontSize

/-- The end of an overlay that is not a video. -/
def Clip.overlayEnd (clip : Clip α) : α := clip.startTime + Scalar.max clip.duration leastSegment

end Splice
