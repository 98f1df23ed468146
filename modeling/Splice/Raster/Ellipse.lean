import Splice.Raster.Line

/-!
# Filled ellipses

The pixels of a filled ellipse, by the midpoint method: the outline of one quarter is followed with
a decision term, and each of its places stands for two rows. The decision terms of an ellipse are
single-precision numbers, and their rounding is part of the outcome; those of a circle are whole.
-/

namespace Splice

/-! ### Circles -/

/-- The places of an eighth of a circle, from the top on, for at most `steps` places. -/
def circleArc : Nat → Int → Int → Int → List Pixel
  | 0, _, _, _ => []
  | steps + 1, x, y, decision =>
    if y < x then []
    else
      ⟨x, y⟩ :: if decision < 0 then circleArc steps (x + 1) y (decision + 2 * (x + 1) + 1)
        else circleArc steps (x + 1) (y - 1) (decision + 2 * (x + 1 - (y - 1)) + 1)

/-- The level lines through the places that reflect `p` about a center. -/
def reflected (center p : Pixel) : List Span :=
  line ⟨center.x - p.x, center.y + p.y⟩ ⟨center.x + p.x, center.y + p.y⟩ ++
    line ⟨center.x - p.x, center.y - p.y⟩ ⟨center.x + p.x, center.y - p.y⟩

/-- The pixels of a filled circle. -/
def filledCircle (center : Pixel) (radius : Nat) : List Span :=
  (circleArc (radius + 1) 0 radius (1 - radius)).flatMap fun p ↦
    reflected center p ++ reflected center p.flip

/-! ### Ellipses -/

/-- A place on a quarter of an ellipse, with the decision term and the slopes at it. -/
structure EllipseStep where
  x : Int
  y : Int
  slopeX : Float32
  slopeY : Float32
  decision : Float32

namespace EllipseStep

/-- The place as a pixel. -/
def pixel (s : EllipseStep) : Pixel := ⟨s.x, s.y⟩

/-- The flat part of a quarter: one place for each column. -/
def flatPart (w h : Float32) : Nat → EllipseStep → List Pixel × EllipseStep
  | 0, s => ([], s)
  | steps + 1, s =>
    if s.slopeX < s.slopeY then
      let slopeX := s.slopeX + 2.0 * h
      let next : EllipseStep :=
        if s.decision < 0.0 then
          ⟨s.x + 1, s.y, slopeX, s.slopeY, s.decision + (h + slopeX)⟩
        else
          let slopeY := s.slopeY + -2.0 * w
          ⟨s.x + 1, s.y - 1, slopeX, slopeY, s.decision + (h + slopeX - slopeY)⟩
      let (pixels, last) := flatPart w h steps next
      (next.pixel :: pixels, last)
    else ([], s)

/-- The steep part of a quarter: one place for each row. -/
def steepPart (w h : Float32) : Nat → EllipseStep → List Pixel
  | 0, _ => []
  | rows + 1, s =>
    let slopeY := s.slopeY + -2.0 * w
    let next : EllipseStep :=
      if s.decision > 0.0 then
        ⟨s.x, s.y - 1, s.slopeX, slopeY, s.decision + (w - slopeY)⟩
      else
        let slopeX := s.slopeX + 2.0 * h
        ⟨s.x + 1, s.y - 1, slopeX, slopeY, s.decision + (w - slopeY + slopeX)⟩
    next.pixel :: steepPart w h rows next

end EllipseStep

/-- The places of a quarter of an ellipse. -/
def ellipseArc (radiusX radiusY : Nat) : List Pixel :=
  let w := Float32.ofNat (radiusX * radiusX)
  let h := Float32.ofNat (radiusY * radiusY)
  let top := Float32.ofNat radiusY
  let start : EllipseStep :=
    ⟨0, radiusY, 0.0, 2.0 * w * top, h - w * top + 0.25 * w⟩
  let (flat, s) := EllipseStep.flatPart w h (radiusX * radiusX / radiusY + 2) start
  let column := Float32.ofInt s.x + 0.5
  let decision := h * (column * column) + w * Float32.ofInt ((s.y - 1) * (s.y - 1)) - w * h
  start.pixel :: flat ++ EllipseStep.steepPart w h s.y.toNat { s with decision }

/-- The pixels of a filled ellipse. -/
def filledEllipse (center : Pixel) (radiusX radiusY : Nat) : List Span :=
  if radiusX = radiusY then filledCircle center radiusX
  else (ellipseArc radiusX radiusY).flatMap (reflected center)

end Splice
