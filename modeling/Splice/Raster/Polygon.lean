import Splice.Raster.Line

/-!
# Polygons

The pixels of a polygon, given by its corners: in every row the stretches between its crossings with
the edges, two by two, and the edges themselves. A crossing inside an edge is found in single
precision and rounded to the nearest pixel.
-/

namespace Splice

/-- The edges of a closed polygon. -/
def edges (corners : List Pixel) : List (Pixel × Pixel) :=
  corners.zip (corners.drop 1 ++ corners.take 1)

/-- The column at which an edge crosses a row strictly between its ends. -/
def crossingBetween (a b : Pixel) (y : Int) : Int :=
  let fraction := Float32.ofInt (y - a.y) / Float32.ofInt (b.y - a.y)
  (Float32.ofInt a.x + fraction * Float32.ofInt (b.x - a.x)).round.toInt32.toInt

/-- The columns at which an edge meets a row. A level edge meets its row at both ends; of other
edges only the upper end counts. -/
def crossings (y : Int) : Pixel × Pixel → List Int
  | (a, b) =>
    if (a.y ≤ y ∧ y ≤ b.y) ∨ (b.y ≤ y ∧ y ≤ a.y) then
      if a.y = b.y then [a.x, b.x]
      else if a.y = y ∨ b.y = y then
        (if y < b.y then [a.x] else []) ++ (if y < a.y then [b.x] else [])
      else [crossingBetween a b y]
    else []

/-- The spans of a row between crossings, two by two. -/
def spansBetween (y : Int) : List Int → List Span
  | left :: right :: rest => ⟨y, left, right⟩ :: spansBetween y rest
  | _ => []

/-- The pixels of the edges. -/
def outlined (corners : List Pixel) : List Span := (edges corners).flatMap fun (a, b) ↦ line a b

/-- The pixels of a polygon in a picture of the given height. -/
def filledPolygon (corners : List Pixel) (height : Nat) : List Span :=
  (List.range height).flatMap (fun row : Nat ↦
    spansBetween row (((edges corners).flatMap (crossings row)).mergeSort fun a b ↦
      decide (a ≤ b))) ++
  outlined corners

end Splice
