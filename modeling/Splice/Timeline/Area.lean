import Splice.Number.Scalar
import Splice.Text.Blank

/-!
# Placement on a canvas

Positions and sizes are percentages of the canvas, crop boxes are fractions of the source frame.
Both are resolved to rectangles of whole pixels.

* `PixelBox.ofPercent` rounds down, holds a length within one pixel and four canvases, and
  keeps the low 32 bits of it.
* `Crop.pixels?` is none when the crop keeps the whole frame or the frame has a side of at most
  one pixel; otherwise the box is at least two pixels wide and high and is moved into the frame.
-/

namespace Splice

/-- The top left corner of a clip, in percent of the canvas. -/
structure Position (α : Type) where
  x : α
  y : α
deriving BEq

/-- The size of a clip, in percent of the canvas. -/
structure Size (α : Type) where
  width : α
  height : α
deriving BEq

/-- A part of the source frame, in fractions of its width and height. -/
structure Crop (α : Type) where
  x : α
  y : α
  width : α
  height : α
deriving BEq

/-- A rectangle of whole pixels. -/
structure PixelBox where
  x : Int
  y : Int
  width : Nat
  height : Nat
deriving DecidableEq, Repr

/-- How a source of one shape fills a box of another: with borders, with a cut, or distorted. -/
inductive FitMode where
  | fit
  | fill
  | stretch
deriving DecidableEq, Repr

variable {α : Type} [Scalar α]

/-- The corner of the canvas. -/
def Position.origin : Position α := ⟨0.0, 0.0⟩

/-- The whole canvas. -/
def Size.full : Size α := ⟨100.0, 100.0⟩

/-! ### Crop boxes -/

namespace Crop

/-- The whole frame. -/
def full : Crop α := ⟨0.0, 0.0, 1.0, 1.0⟩

/-- The least length of a crop along each axis. -/
def leastFraction : α := 0.05

/-- The box with its corner in the frame and its extents between the least fraction and one. -/
def withinFrame (box : Crop α) : Crop α where
  x := Scalar.clamp 0.0 1.0 box.x
  y := Scalar.clamp 0.0 1.0 box.y
  width := Scalar.clamp leastFraction 1.0 box.width
  height := Scalar.clamp leastFraction 1.0 box.height

/-- A fraction of a side, in whole pixels. -/
def pixels (side : Nat) (fraction : α) : Nat :=
  Scalar.toNat32 (Scalar.round (Scalar.ofNat side * fraction))

/-- The box in pixels of a frame of the given size, unless it is the whole frame. -/
def pixels? (box : Crop α) (frameWidth frameHeight : Nat) : Option PixelBox :=
  if frameWidth ≤ 1 ∨ frameHeight ≤ 1 then none
  else
    let box := box.withinFrame
    let width := min frameWidth (max 2 (pixels frameWidth box.width))
    let height := min frameHeight (max 2 (pixels frameHeight box.height))
    let x := min (frameWidth - width) (pixels frameWidth box.x)
    let y := min (frameHeight - height) (pixels frameHeight box.y)
    if frameWidth ≤ width ∧ frameHeight ≤ height ∧ x = 0 ∧ y = 0 then none
    else some ⟨x, y, width, height⟩

end Crop

/-! ### Rectangles on the canvas -/

namespace PixelBox

/-- The largest length of an overlay, in canvases. -/
def canvasMultiple : Nat := 4

/-- A coordinate in percent of a canvas side, rounded down. -/
def offset (side : Nat) (percent : α) : Int :=
  Scalar.toInt64 (Scalar.floor (Scalar.ofNat side * percent / 100.0))

/-- A length in percent of a canvas side. -/
def sideLength (side : Nat) (percent : α) : Nat :=
  (max 1 (min ((side * canvasMultiple : Nat) : Int) (offset side percent))).toNat % Word.count32

/-- The rectangle that a position and a size stand for on a canvas. -/
def ofPercent (position : Position α) (size : Size α) (canvasWidth canvasHeight : Nat) :
    PixelBox where
  x := offset canvasWidth position.x
  y := offset canvasHeight position.y
  width := sideLength canvasWidth size.width
  height := sideLength canvasHeight size.height

end PixelBox

/-! ### Fit modes -/

namespace FitMode

/-- The fit mode of a name; an unknown name is `fit`. -/
def ofName (name : String) : FitMode :=
  match Text.nameKey name with
  | "fill" => fill
  | "stretch" => stretch
  | _ => fit

/-- The name of a fit mode. -/
def name : FitMode → String
  | fit => "fit"
  | fill => "fill"
  | stretch => "stretch"

end FitMode

end Splice
