import Splice.Raster.Picture

/-!
# Lines and rectangles

The pixels of a straight line, of a filled rectangle and of the border of a rectangle.

A line visits each place along its longer axis once and follows the other axis with an error term,
kept here in half pixels so that it is a whole number.
-/

namespace Splice

/-! ### Lines -/

/-- The places of a line from a place on: `steps` places along the longer axis, by the lengths of
both axes and the direction of the shorter one. -/
def walk (long short direction : Int) : Nat → Pixel → Int → List Pixel
  | 0, _, _ => []
  | steps + 1, p, error =>
    let error := error - 2 * short
    p :: if error < 0
      then walk long short direction steps ⟨p.x + 1, p.y + direction⟩ (error + 2 * long)
      else walk long short direction steps ⟨p.x + 1, p.y⟩ error

/-- The places of a line that is not steep, from left to right. -/
def flatLine (a b : Pixel) : List Pixel :=
  let (a, b) := if b.x < a.x then (b, a) else (a, b)
  let long := b.x - a.x
  walk long (b.y - a.y).natAbs (if a.y < b.y then 1 else -1) (long + 1).toNat a long

/-- A place with its axes exchanged. -/
def Pixel.flip (p : Pixel) : Pixel := ⟨p.y, p.x⟩

/-- The pixels of a line. -/
def linePixels (a b : Pixel) : List Pixel :=
  if (b.x - a.x).natAbs < (b.y - a.y).natAbs then (flatLine a.flip b.flip).map Pixel.flip
  else flatLine a b

/-- One pixel as a span. -/
def Pixel.span (p : Pixel) : Span := ⟨p.y, p.x, p.x⟩

/-- The spans of a line; a level line is one span. -/
def line (a b : Pixel) : List Span :=
  if a.y = b.y then [⟨a.y, min a.x b.x, max a.x b.x⟩] else (linePixels a b).map Pixel.span

/-! ### Rectangles -/

/-- A box of pixels. -/
structure Box where
  x : Int
  y : Int
  width : Int
  height : Int
deriving DecidableEq, Repr

namespace Box

/-- The last column. -/
def right (b : Box) : Int := b.x + b.width - 1

/-- The last row. -/
def bottom (b : Box) : Int := b.y + b.height - 1

/-- The box that is smaller by a margin on all sides, unless nothing is left of it. -/
def shrink? (b : Box) (margin : Int) : Option Box :=
  let shrunk : Box := ⟨b.x + margin, b.y + margin, b.width - 2 * margin, b.height - 2 * margin⟩
  if 0 < shrunk.width ∧ 0 < shrunk.height then some shrunk else none

/-- The pixels of the box. -/
def filled (b : Box) : List Span :=
  (List.range b.height.toNat).map fun row : Nat ↦ ⟨b.y + row, b.x, b.right⟩

/-- The pixels of the border of the box. -/
def border (b : Box) : List Span :=
  line ⟨b.x, b.y⟩ ⟨b.right, b.y⟩ ++ line ⟨b.x, b.bottom⟩ ⟨b.right, b.bottom⟩ ++
    line ⟨b.x, b.y⟩ ⟨b.x, b.bottom⟩ ++ line ⟨b.right, b.y⟩ ⟨b.right, b.bottom⟩

/-- The pixel in the middle. -/
def center (b : Box) : Pixel := ⟨b.x + b.width / 2, b.y + b.height / 2⟩

end Box

end Splice
