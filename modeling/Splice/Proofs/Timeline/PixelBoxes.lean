import Mathlib.Data.Nat.PSub
import Splice.Proofs.Number.Doubles
import Splice.Proofs.Number.Exact
import Splice.Timeline.Validation

/-!
# Boxes of pixels

Where the boxes of pixels lie that crops and overlays are resolved to.

* A crop lies inside its frame, whatever its four doubles are (`Crop.FitsFrame`). The steps of the
  computation that can fail (bounds that are out of order, a difference below zero) are written with
  a failure in `Crop.resolve?`; that none of them does follows from one fact along an axis, that the
  length is at most the side.
* The corner of an overlay lies on the canvas, and its lengths are the requested ones, held between
  one pixel and four canvases, as long as four canvases can be counted in 32 bits. On a larger
  canvas only the low 32 bits of a length are left, and there is a size for which it is zero
  (`PixelBox.sideLength_overflow`). So the bounds hold exactly below `2 ^ 30`
  (`PixelBox.isBounded_iff`).

Nothing is asked of the rounding of doubles for a crop; for an overlay the scalars are exact.
-/

namespace Splice

/-! ### Bounds -/

namespace Scalar

variable {α : Type} [Scalar α]

/-- The scalar held within `[low, high]`; a failure if the bounds are out of order. -/
def clamp? (low high x : α) : Option α := if low ≤ high then some (clamp low high x) else none

variable [LawfulScalar α] {low high : α}

theorem lt_irrefl (x : α) : ¬ x < x := fun h ↦ not_lt_of_le (le_of_lt h) h

/-- What is held within bounds in order is not moved by holding it there again. -/
theorem clamp_clamp (h : low ≤ high) (x : α) :
    clamp low high (clamp low high x) = clamp low high x := by
  by_cases hlow : x < low
  · have hclamp : clamp low high x = low := if_pos hlow
    rw [hclamp, clamp, if_neg (lt_irrefl low), if_neg (not_lt_of_le h)]
  · by_cases hhigh : high < x
    · have hclamp : clamp low high x = high := by rw [clamp, if_neg hlow, if_pos hhigh]
      rw [hclamp, clamp, if_neg (not_lt_of_le h), if_neg (lt_irrefl high)]
    · have hclamp : clamp low high x = x := by rw [clamp, if_neg hlow, if_neg hhigh]
      rw [hclamp, hclamp]

end Scalar

/-! ### Crops -/

/-- A box of at least two pixels along each axis that does not leave a frame. -/
structure PixelBox.IsInside (box : PixelBox) (frameWidth frameHeight : ℕ) : Prop where
  two_le_width : 2 ≤ box.width
  width_le : box.width ≤ frameWidth
  two_le_height : 2 ≤ box.height
  height_le : box.height ≤ frameHeight
  x_nonneg : 0 ≤ box.x
  y_nonneg : 0 ≤ box.y
  right_le : box.x + box.width ≤ frameWidth
  bottom_le : box.y + box.height ≤ frameHeight

/-- The whole of a frame. -/
def PixelBox.whole (frameWidth frameHeight : ℕ) : PixelBox := ⟨0, 0, frameWidth, frameHeight⟩

/-- A box inside a frame that reaches all its ends is the whole frame. -/
theorem PixelBox.IsInside.covers_iff {box : PixelBox} {w h : ℕ} (hinside : box.IsInside w h) :
    (w ≤ box.width ∧ h ≤ box.height ∧ box.x = 0 ∧ box.y = 0) ↔ box = PixelBox.whole w h := by
  obtain ⟨x, y, width, height⟩ := box
  have hwidth : width ≤ w := hinside.width_le
  have hheight : height ≤ h := hinside.height_le
  simp only [PixelBox.whole, PixelBox.mk.injEq]
  omega

namespace Crop

section Checked

variable {α : Type} [Scalar α]

/-- `withinFrame`, with a failure where bounds are out of order. -/
def withinFrame? (box : Crop α) : Option (Crop α) := do
  let x ← Scalar.clamp? 0.0 1.0 box.x
  let y ← Scalar.clamp? 0.0 1.0 box.y
  let width ← Scalar.clamp? leastFraction 1.0 box.width
  let height ← Scalar.clamp? leastFraction 1.0 box.height
  return ⟨x, y, width, height⟩

/-- A length of at least two pixels that fits a side; a failure if the side is shorter. -/
def fit? (side length : ℕ) : Option ℕ := if 2 ≤ side then some (min side (max 2 length)) else none

/-- The box that a crop comes to in a frame, with a failure where bounds are out of order and where
more is taken away than there is. -/
def resolve? (box : Crop α) (frameWidth frameHeight : ℕ) : Option PixelBox := do
  let box ← box.withinFrame?
  let width ← fit? frameWidth (pixels frameWidth box.width)
  let height ← fit? frameHeight (pixels frameHeight box.height)
  let right ← Nat.psub frameWidth width
  let bottom ← Nat.psub frameHeight height
  return ⟨(min right (pixels frameWidth box.x) : ℕ), (min bottom (pixels frameHeight box.y) : ℕ),
    width, height⟩

/-- `pixels?`, with a failure where one of its steps fails. -/
def checked? (box : Crop α) (frameWidth frameHeight : ℕ) : Option (Option PixelBox) :=
  if frameWidth ≤ 1 ∨ frameHeight ≤ 1 then some none
  else do
    let r ← box.resolve? frameWidth frameHeight
    return if frameWidth ≤ r.width ∧ frameHeight ≤ r.height ∧ r.x = 0 ∧ r.y = 0 then none else some r

/-- What a crop is in a frame of some size. -/
structure FitsFrame (box : Crop α) (frameWidth frameHeight : ℕ) : Prop where
  /-- No step of the computation fails. -/
  checked?_eq : box.checked? frameWidth frameHeight = some (box.pixels? frameWidth frameHeight)
  /-- There is no crop exactly if a side is too short or nothing is cut off. -/
  eq_none_iff : box.pixels? frameWidth frameHeight = none ↔ frameWidth ≤ 1 ∨ frameHeight ≤ 1 ∨
    box.resolve? frameWidth frameHeight = some (PixelBox.whole frameWidth frameHeight)
  /-- A crop lies in the frame. -/
  isInside : ∀ r ∈ box.pixels? frameWidth frameHeight, r.IsInside frameWidth frameHeight
  /-- Bringing the box into the frame twice changes nothing. -/
  withinFrame_withinFrame : box.withinFrame.withinFrame = box.withinFrame
  /-- A box that was brought into the frame before comes to the same crop. -/
  pixels?_withinFrame :
    box.withinFrame.pixels? frameWidth frameHeight = box.pixels? frameWidth frameHeight

end Checked

variable (box : Crop Float) {w h : ℕ}

/-- The bounds that a box is held within are in order, as doubles. -/
theorem unit_bounds : (0.0 : Float) ≤ 1.0 ∧ (leastFraction : Float) ≤ 1.0 := by
  decide +kernel

/-- So bringing a box into the frame does not fail, whatever its four doubles are. -/
theorem withinFrame?_eq : box.withinFrame? = some box.withinFrame := by
  obtain ⟨hcorner, hextent⟩ := unit_bounds
  simp only [withinFrame?, Scalar.clamp?, if_pos hcorner, if_pos hextent]
  rfl

/-- A box in the frame is not moved by bringing it there again. -/
theorem withinFrame_idem : box.withinFrame.withinFrame = box.withinFrame := by
  obtain ⟨hcorner, hextent⟩ := unit_bounds
  simp only [withinFrame, Scalar.clamp_clamp hcorner, Scalar.clamp_clamp hextent]

/-- In a frame with room for two pixels along each axis every step of the computation succeeds. -/
theorem exists_resolve? (hw : 2 ≤ w) (hh : 2 ≤ h) :
    ∃ r, box.resolve? w h = some r ∧ r.IsInside w h ∧ box.pixels? w h =
      if w ≤ r.width ∧ h ≤ r.height ∧ r.x = 0 ∧ r.y = 0 then none else some r := by
  let width := min w (max 2 (pixels w box.withinFrame.width))
  let height := min h (max 2 (pixels h box.withinFrame.height))
  let x := min (w - width) (pixels w box.withinFrame.x)
  let y := min (h - height) (pixels h box.withinFrame.y)
  -- a length is at most the side, so what is left of the side is no difference below zero
  have hwidth : 2 ≤ width ∧ width ≤ w := by omega
  have hheight : 2 ≤ height ∧ height ≤ h := by omega
  have hx : x + width ≤ w := by omega
  have hy : y + height ≤ h := by omega
  refine ⟨⟨x, y, width, height⟩, ?_, ?_, ?_⟩
  · rw [resolve?, withinFrame?_eq]
    simp only [Option.bind_eq_bind, Option.bind_some, fit?, if_pos hw, if_pos hh,
      Nat.psub_eq_sub (show min w _ ≤ w from hwidth.2),
      Nat.psub_eq_sub (show min h _ ≤ h from hheight.2)]
    rfl
  · exact ⟨hwidth.1, hwidth.2, hheight.1, hheight.2, Int.natCast_nonneg x, Int.natCast_nonneg y,
      Int.ofNat_le.2 hx, Int.ofNat_le.2 hy⟩
  · rw [pixels?, if_neg (by omega)]
    simp only [Int.natCast_eq_zero]
    rfl

/-- A crop lies inside its frame. -/
theorem fitsFrame (box : Crop Float) (w h : ℕ) : box.FitsFrame w h := by
  have hcall : box.withinFrame.pixels? w h = box.pixels? w h := by
    rw [pixels?, pixels?, withinFrame_idem]
  by_cases hshort : w ≤ 1 ∨ h ≤ 1
  · have hnone : box.pixels? w h = none := if_pos hshort
    exact {
      checked?_eq := by rw [checked?, if_pos hshort, hnone]
      eq_none_iff := iff_of_true hnone (by tauto)
      isInside := by simp [hnone]
      withinFrame_withinFrame := box.withinFrame_idem
      pixels?_withinFrame := hcall }
  · obtain ⟨r, hresolve, hinside, hpixels⟩ :=
      box.exists_resolve? (w := w) (h := h) (by omega) (by omega)
    simp only [hinside.covers_iff] at hpixels
    exact {
      checked?_eq := by
        rw [checked?, if_neg hshort, hresolve, hpixels]
        simp only [Option.bind_eq_bind, Option.bind_some, hinside.covers_iff]
        rfl
      eq_none_iff := by
        rw [hpixels, hresolve, Option.some_inj]
        by_cases hwhole : r = PixelBox.whole w h
        · rw [if_pos hwhole]
          exact iff_of_true rfl (.inr (.inr hwhole))
        · rw [if_neg hwhole]
          exact iff_of_false (Option.some_ne_none r) (by tauto)
      isInside := by
        intro r' hr'
        rw [hpixels] at hr'
        split_ifs at hr' with hwhole
        · cases hr'
        · exact Option.some.inj hr' ▸ hinside
      withinFrame_withinFrame := box.withinFrame_idem
      pixels?_withinFrame := hcall }

end Crop

/-! ### Overlays -/

namespace Exact

@[simp] theorem floor_number (x : ℚ) : Scalar.floor (number x) = number ⌊x⌋ := rfl

/-- A whole number becomes a signed word of 64 bits, held at its ends. -/
theorem toInt64_ofInt (n : ℤ) :
    Scalar.toInt64 (number n) = max (-(Word.half64 : ℤ)) (min (Word.half64 - 1 : ℤ) n) := by
  have hwhole : (if decide ((n : ℚ) < 0) then -(|(n : ℚ)|).floor else (|(n : ℚ)|).floor) = n := by
    rw [← Int.cast_abs, Rat.floor_intCast]
    simp only [decide_eq_true_eq, Int.cast_lt_zero]
    split_ifs with h
    · rw [abs_of_neg h, neg_neg]
    · rw [abs_of_nonneg (not_lt.1 h)]
  rw [Scalar.toInt64, denote_number, Denotation.truncateWithin, hwhole]

end Exact

namespace PixelBox

open Exact (number)

/-- A coordinate on a side of the canvas: the requested percentage, rounded down. -/
structure IsOffset (side : ℕ) (percent : ℚ) (offset : ℤ) : Prop where
  nonneg : 0 ≤ offset
  le_side : offset ≤ side
  eq_floor : offset = ⌊side * percent / 100⌋

/-- A length in units of a side of the canvas: between one pixel and four sides, and in this range
the requested percentage, rounded down. -/
structure IsExtent (side : ℕ) (percent : ℚ) (length : ℕ) : Prop where
  one_le : 1 ≤ length
  le_multiple : length ≤ 4 * side
  eq_floor : 1 ≤ ⌊side * percent / 100⌋ → ⌊side * percent / 100⌋ ≤ 4 * side →
    (length : ℤ) = ⌊side * percent / 100⌋

/-- The lengths along a side of the canvas, for every positive percentage: each is bounded, and they
grow with the percentage. -/
structure IsBounded (side : ℕ) (length : ℚ → ℕ) : Prop where
  isExtent : ∀ percent > 0, IsExtent side percent (length percent)
  monotoneOn : MonotoneOn length (Set.Ioi 0)

/-- The length that is asked for, before it becomes a word of 32 bits. -/
def extent (side : ℕ) (percent : ℚ) : ℕ :=
  (max 1 (min (4 * side : ℤ) ⌊side * percent / 100⌋)).toNat

section Sides

variable {side : ℕ} {percent : ℚ}

/-- The length asked for is between one pixel and four sides. -/
theorem isExtent_extent (h : 1 ≤ side) : IsExtent side percent (extent side percent) := by
  rw [extent]
  exact ⟨by omega, by omega, by omega⟩

/-- The length asked for grows with the percentage. -/
theorem monotone_extent (side : ℕ) : Monotone (extent side) := by
  intro p q hpq
  have hfloor : ⌊side * p / 100⌋ ≤ ⌊side * q / 100⌋ := Int.floor_le_floor (by gcongr)
  rw [extent, extent]
  omega

/-- An offset is the requested percentage, rounded down and held within 64 bits. -/
theorem offset_number : offset side (number percent) =
    max (-(Word.half64 : ℤ)) (min (Word.half64 - 1 : ℤ) ⌊side * percent / 100⌋) := by
  have hhundred : (100.0 : Exact) = number 100 := by
    rw [Exact.ofScientific_eq]
    norm_num
  have hside : (Scalar.ofNat side : Exact) = number side := rfl
  rw [offset, hhundred, hside, Exact.number_mul, Exact.number_div _ _ (by norm_num),
    Exact.floor_number, Exact.toInt64_ofInt]

/-- On a side of a 32-bit length the ends of 64 bits are not reached, so an offset up to the whole
side is the requested one. -/
theorem isOffset_offset (hside : side < Word.count32) (hpercent : percent ∈ Set.Icc 0 100) :
    IsOffset side percent (offset side (number percent)) := by
  obtain ⟨hnonneg, hle⟩ := hpercent
  have hside' : (0 : ℚ) ≤ side := Nat.cast_nonneg side
  have hlow : 0 ≤ ⌊side * percent / 100⌋ := Int.floor_nonneg.2 (by positivity)
  have hhigh : ⌊side * percent / 100⌋ ≤ side := by
    refine Int.floor_le_iff.2 ?_
    push_cast
    nlinarith
  have hoffset : offset side (number percent) = ⌊side * percent / 100⌋ := by
    rw [offset_number, Word.half64]
    rw [Word.count32] at hside
    omega
  rw [hoffset]
  exact ⟨hlow, hhigh, rfl⟩

/-- A word keeps the low 32 bits of a length. -/
theorem sideLength_number (hside : side < Word.count32) :
    sideLength side (number percent) = extent side percent % Word.count32 := by
  rw [sideLength, offset_number, extent, canvasMultiple, Word.half64]
  rw [Word.count32] at hside ⊢
  omega

/-- From a quarter of the words on there is a percentage at which nothing of the length is left. -/
theorem sideLength_overflow (hside : side < Word.count32) (hlarge : 2 ^ 30 ≤ side) :
    sideLength side (number (100 * Word.count32 / side)) = 0 := by
  have hpos : (0 : ℚ) < side := by exact_mod_cast (by omega : 0 < side)
  have hfloor : ⌊(side : ℚ) * (100 * Word.count32 / side) / 100⌋ = Word.count32 := by
    have hexact : (side : ℚ) * (100 * Word.count32 / side) / 100 = (Word.count32 : ℤ) := by
      field_simp
      norm_cast
    rw [hexact, Int.floor_intCast]
  rw [sideLength_number hside, extent, hfloor, Word.count32]
  omega

/-- The lengths along a side are bounded exactly if four sides can be counted in 32 bits. -/
theorem isBounded_iff (hpos : 1 ≤ side) (hside : side < Word.count32) :
    IsBounded side (fun percent ↦ sideLength side (number percent)) ↔ side < 2 ^ 30 := by
  constructor
  · intro hbounded
    by_contra hlarge
    have hpercent : (0 : ℚ) < 100 * Word.count32 / side := by
      have : (0 : ℚ) < side := by exact_mod_cast hpos
      have : (0 : ℚ) < Word.count32 := by exact_mod_cast (by decide : 0 < Word.count32)
      positivity
    have hone := (hbounded.isExtent _ hpercent).one_le
    rw [sideLength_overflow hside (not_lt.1 hlarge)] at hone
    omega
  · intro hsmall
    have hexact (percent : ℚ) : sideLength side (number percent) = extent side percent := by
      have hle : extent side percent ≤ 4 * side := (isExtent_extent hpos).le_multiple
      rw [sideLength_number hside, Nat.mod_eq_of_lt (by rw [Word.count32]; omega)]
    simp only [hexact]
    exact ⟨fun percent _ ↦ isExtent_extent hpos, (monotone_extent side).monotoneOn _⟩

end Sides

/-- The corner of an overlay lies on the canvas. Its lengths are bounded by the canvas exactly if
the canvas has less than `2 ^ 30` pixels along their axis. -/
theorem ofPercent_bounds {w h : ℕ} (hw : w ∈ Set.Ico 1 Word.count32)
    (hh : h ∈ Set.Ico 1 Word.count32) :
    (∀ x ∈ Set.Icc 0 100, ∀ y ∈ Set.Icc 0 100, ∀ size,
      IsOffset w x (ofPercent ⟨number x, number y⟩ size w h).x ∧
      IsOffset h y (ofPercent ⟨number x, number y⟩ size w h).y) ∧
    ∀ position,
      (∀ height, IsBounded w (fun width ↦
        (ofPercent position ⟨number width, height⟩ w h).width) ↔ w < 2 ^ 30) ∧
      (∀ width, IsBounded h (fun height ↦
        (ofPercent position ⟨width, number height⟩ w h).height) ↔ h < 2 ^ 30) :=
  ⟨fun _ hx _ hy _ ↦ ⟨isOffset_offset hw.2 hx, isOffset_offset hh.2 hy⟩,
    fun _ ↦ ⟨fun _ ↦ isBounded_iff hw.1 hw.2, fun _ ↦ isBounded_iff hh.1 hh.2⟩⟩

/-- A small canvas with an overlay in its middle. -/
theorem ofPercent_bounds_middle :
    IsOffset 1920 50 (ofPercent ⟨number 50, number 50⟩ Size.full 1920 1080).x ∧
    IsOffset 1080 50 (ofPercent ⟨number 50, number 50⟩ Size.full 1920 1080).y ∧
    IsBounded 1920 (fun width ↦
      (ofPercent Position.origin ⟨number width, number 100⟩ 1920 1080).width) := by
  have hmiddle : (50 : ℚ) ∈ Set.Icc 0 100 := ⟨by norm_num, by norm_num⟩
  obtain ⟨hcorner, hlengths⟩ := ofPercent_bounds (w := 1920) (h := 1080)
    ⟨by decide, by decide⟩ ⟨by decide, by decide⟩
  obtain ⟨hx, hy⟩ := hcorner 50 hmiddle 50 hmiddle Size.full
  exact ⟨hx, hy, ((hlengths Position.origin).1 (number 100)).2 (by decide)⟩

/-- On a canvas of `2 ^ 30` pixels, which the settings may ask for, an overlay of four times its
width has no width at all. -/
theorem width_ofPercent_eq_zero :
    ({ width? := some (2 ^ 30), height? := some 1080 } : OutputSettings Float).issues = [] ∧
    (ofPercent ⟨0.0, 0.0⟩ ⟨400.0, 400.0⟩ (2 ^ 30) 1080 : PixelBox).width = 0 := by
  decide +kernel

end PixelBox

end Splice
