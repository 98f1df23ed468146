import Splice.Raster.Ellipse
import Splice.Raster.Polygon

/-!
# Shapes

The shapes that authors put into a picture, drawn into a picture of the size of their box. A shape
keeps away from the edges of its box; an outline is white and lies on top of a filled shape's
border.
-/

namespace Splice

/-- The kinds of shapes. -/
inductive ShapeKind where
  | rectangle
  | outline
  | circle
  | arrow
deriving DecidableEq, Repr

/-- A shape of a given size. The flag asks for a white outline. -/
structure Sprite where
  kind : ShapeKind
  width : Nat
  height : Nat
  fill : Rgba
  outlined : Bool

namespace ShapeKind

/-- The kind of a name; an unknown name is a rectangle. -/
def ofName (name : String) : ShapeKind :=
  match Text.nameKey name with
  | "circle" | "ellipse" => circle
  | "outline" => outline
  | "arrow" => arrow
  | _ => rectangle

/-- The name of a kind. -/
def name : ShapeKind → String
  | rectangle => "rectangle"
  | outline => "outline"
  | circle => "circle"
  | arrow => "arrow"

end ShapeKind

namespace Sprite

/-- The color of outlines. -/
def outlineColor : Rgba := ⟨255, 255, 255, 229⟩

/-! ### Measures -/

/-- The width of the picture. -/
def pictureWidth (s : Sprite) : Nat := max s.width 2

/-- The height of the picture. -/
def pictureHeight (s : Sprite) : Nat := max s.height 2

/-- The width of a stroke: a twentieth of the shorter side. -/
def stroke (s : Sprite) : Nat := max (min s.pictureWidth s.pictureHeight / 20) 2

/-- Half a stroke: the distance from the edges, and the width of a thin outline. -/
def halfStroke (s : Sprite) : Nat := max (s.stroke / 2) 1

/-- The box in which the shape is drawn, if there is one. -/
def box? (s : Sprite) : Option Box :=
  (Box.mk 0 0 s.pictureWidth s.pictureHeight).shrink? s.halfStroke

/-! ### Parts -/

/-- The ellipse that fits into a box, if it has an inside. -/
def ellipseIn (box : Box) : List Span :=
  let radiusX := (box.width / 2 - 1).toNat
  let radiusY := (box.height / 2 - 1).toNat
  if 0 < radiusX ∧ 0 < radiusY then filledEllipse box.center radiusX radiusY else []

/-- A fraction of a side, rounded down. -/
def part (α : Type) [Scalar α] (side : Nat) (fraction : α) : Int :=
  Scalar.toInt32 (Scalar.floor (Scalar.ofNat side * fraction))

/-- The corners of an arrow to the right. -/
def arrowCorners (α : Type) [Scalar α] (s : Sprite) : List Pixel :=
  let head := part α s.pictureWidth 0.66
  let top := part α s.pictureHeight 0.22
  let bottom := part α s.pictureHeight 0.78
  let middle := part α s.pictureHeight 0.5
  [⟨0, top⟩, ⟨head, top⟩, ⟨head, 0⟩, ⟨s.pictureWidth - 1, middle⟩,
    ⟨head, s.pictureHeight - 1⟩, ⟨head, bottom⟩, ⟨0, bottom⟩]

/-! ### Pictures -/

/-- A shape in a box with another one on top that is smaller by a margin: an outline and its
inside. -/
def layered (s : Sprite) (draw : Box → List Span) (box : Box) (margin : Int) : List Stroke :=
  if s.outlined then
    ⟨outlineColor, draw box⟩ :: match box.shrink? margin with
      | some inner => [⟨s.fill, draw inner⟩]
      | none => []
  else [⟨s.fill, draw box⟩]

/-- The strokes of a shape in its box. -/
def strokesIn (α : Type) [Scalar α] (s : Sprite) (box : Box) : List Stroke :=
  match s.kind with
  | .rectangle => s.layered Box.filled box s.halfStroke
  | .outline =>
    (List.range s.stroke).filterMap fun margin : Nat ↦
      (box.shrink? margin).map fun ring ↦ ⟨s.fill, ring.border⟩
  | .circle => s.layered ellipseIn box s.stroke
  | .arrow =>
    let corners := s.arrowCorners α
    ⟨s.fill, filledPolygon corners s.pictureHeight⟩ ::
      if s.outlined then [⟨outlineColor, Splice.outlined corners⟩] else []

/-- The picture of a shape. -/
def picture (α : Type) [Scalar α] (s : Sprite) : Picture where
  width := s.pictureWidth
  height := s.pictureHeight
  strokes := match s.box? with
    | some box => s.strokesIn α box
    | none => []

end Sprite

end Splice
