import Splice.Color

/-!
# Pictures

A picture made of strokes: each covers some pixels with one color, and a later one covers an earlier
one. Where no stroke is, the picture is transparent (`Picture.colorAt`). A stroke may reach beyond
the picture.

`Picture.row` gives the colors of one row at once.
-/

namespace Splice

/-- A place on a grid of pixels. -/
structure Pixel where
  x : Int
  y : Int
deriving DecidableEq, Repr

/-- The pixels of a row from `left` to `right`, both included. -/
structure Span where
  y : Int
  left : Int
  right : Int
deriving DecidableEq, Repr

/-- Pixels that get one color. -/
structure Stroke where
  color : Rgba
  spans : List Span

/-- A picture of the given size. -/
structure Picture where
  width : Nat
  height : Nat
  strokes : List Stroke

/-- The color of a pixel that nothing covers. -/
def Rgba.transparent : Rgba := ⟨0, 0, 0, 0⟩

/-- Whether a span covers a pixel. -/
def Span.covers (s : Span) (p : Pixel) : Bool := s.y == p.y && s.left ≤ p.x && p.x ≤ s.right

/-- Whether a stroke covers a pixel. -/
def Stroke.covers (s : Stroke) (p : Pixel) : Bool := s.spans.any (·.covers p)

namespace Picture

/-- The color of a pixel. -/
def colorAt (picture : Picture) (p : Pixel) : Rgba :=
  match picture.strokes.reverse.find? (·.covers p) with
  | some stroke => stroke.color
  | none => .transparent

/-- A row of colors after a span of one color. -/
def paint (color : Rgba) (row : Array Rgba) (span : Span) : Array Rgba :=
  let first := span.left.toNat
  let last := (span.right + 1).toNat
  (List.range' first (min last row.size - first)).foldl
    (fun row x ↦ row.setIfInBounds x color) row

/-- The colors of a row. -/
def row (picture : Picture) (y : Nat) : Array Rgba :=
  picture.strokes.foldl
    (fun row stroke ↦ (stroke.spans.filter (·.y == (y : Int))).foldl (paint stroke.color) row)
    (Array.replicate picture.width .transparent)

end Picture

end Splice
