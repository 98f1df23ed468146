import Mathlib.Tactic.NormNum
import Splice.Proofs.Raster.Rows
import Splice.Shape

/-!
# Shapes with straight edges

Every pixel of a rectangle and of an outline (`Sprite.drawsBoxes`), whatever the size of the shape.

All of it is said by the depth of a pixel in a box (`Box.depth`): how far it is from the nearest
edge, which is negative outside. A filled box covers what has a depth (`Box.covers_filled_iff`), a
border what is at depth zero (`Box.covers_border_iff`), and a box that is smaller by a margin sees
every pixel that much less deep, or else no pixel is that deep (`Box.depth_of_shrink?`,
`Box.depth_lt_of_shrink?`). So the rings of an outline leave no hole, and none that vanishes in a
small box is missed.
-/

namespace Splice

/-! ### Lines -/

theorem Pixel.ext_iff {p q : Pixel} : p = q ↔ p.x = q.x ∧ p.y = q.y := by
  cases p
  cases q
  rw [Pixel.mk.injEq]

/-- The span of a pixel covers this pixel only. -/
theorem Pixel.covers_span_iff {p q : Pixel} : q.span.covers p = true ↔ q = p := by
  show (q.y == p.y && decide (q.x ≤ p.x) && decide (p.x ≤ q.x)) = true ↔ q = p
  simp only [Bool.and_eq_true, beq_iff_eq, decide_eq_true_eq, Pixel.ext_iff]
  omega

/-- Without a slope the error stays as it is, so the walk goes straight on.
-/
theorem walk_level (long direction : ℤ) (steps : ℕ) (p : Pixel) {error : ℤ} (h : 0 ≤ error) :
    walk long 0 direction steps p error =
      (List.range steps).map fun i : ℕ ↦ (⟨p.x + i, p.y⟩ : Pixel) := by
  induction steps generalizing p with
  | zero => rfl
  | succ steps ih =>
    rw [walk, Int.mul_zero, Int.sub_zero, if_neg (not_lt.2 h), ih, List.range_succ_eq_map,
      List.map_cons, List.map_map]
    have hnext : ∀ i : ℕ, p.x + 1 + (i : ℤ) = p.x + ((i + 1 : ℕ) : ℤ) := by
      intro i
      push_cast
      omega
    simp only [Nat.cast_zero, add_zero, hnext]
    rfl

/-- A level line covers the pixels between its ends. -/
theorem covers_level_iff {left right y : ℤ} (h : left ≤ right) {p : Pixel} :
    (line ⟨left, y⟩ ⟨right, y⟩).any (·.covers p) = true ↔
      p.y = y ∧ left ≤ p.x ∧ p.x ≤ right := by
  rw [line, if_pos rfl, min_eq_left h, max_eq_right h, List.any_cons, List.any_nil, Bool.or_false]
  simp only [Span.covers, Bool.and_eq_true, beq_iff_eq, decide_eq_true_eq]
  omega

/-- So does an upright one. -/
theorem covers_upright_iff {x top bottom : ℤ} (h : top ≤ bottom) {p : Pixel} :
    (line ⟨x, top⟩ ⟨x, bottom⟩).any (·.covers p) = true ↔
      p.x = x ∧ top ≤ p.y ∧ p.y ≤ bottom := by
  rcases h.eq_or_lt with rfl | hlt
  · rw [covers_level_iff le_rfl]
    omega
  · have hflat : flatLine ⟨top, x⟩ ⟨bottom, x⟩ =
        (List.range (bottom - top + 1).toNat).map fun i : ℕ ↦ (⟨top + i, x⟩ : Pixel) := by
      rw [flatLine]
      simp only [if_neg hlt.not_gt, sub_self, Int.natAbs_zero, Nat.cast_zero]
      exact walk_level _ _ _ _ (by omega)
    have hsteep : ((⟨x, bottom⟩ : Pixel).x - (⟨x, top⟩ : Pixel).x).natAbs <
        ((⟨x, bottom⟩ : Pixel).y - (⟨x, top⟩ : Pixel).y).natAbs := by
      simp only
      omega
    rw [line, if_neg hlt.ne, linePixels, if_pos hsteep, Pixel.flip, Pixel.flip, hflat]
    simp only [List.any_map, List.any_eq_true, List.mem_range, Function.comp_apply, Pixel.flip,
      Pixel.covers_span_iff, Pixel.ext_iff]
    constructor
    · rintro ⟨i, hi, hx, hy⟩
      omega
    · rintro ⟨hx, htop, hbottom⟩
      exact ⟨(p.y - top).toNat, by omega, hx.symm, by omega⟩

/-! ### Boxes -/

namespace Box

variable {b c : Box} {p : Pixel} {margin : ℤ}

/-- How far a pixel is from the nearest edge of a box; it is negative outside of the box. -/
def depth (b : Box) (p : Pixel) : ℤ :=
  min (min (p.x - b.x) (b.right - p.x)) (min (p.y - b.y) (b.bottom - p.y))

/-- A filled box covers its pixels, and no other ones. -/
theorem covers_filled_iff : b.filled.any (·.covers p) = true ↔ 0 ≤ b.depth p := by
  simp only [filled, depth, right, bottom, List.any_map, List.any_eq_true, List.mem_range,
    Function.comp_apply, Span.covers, Bool.and_eq_true, beq_iff_eq, decide_eq_true_eq, le_min_iff]
  constructor
  · rintro ⟨i, hi, hp⟩
    omega
  · intro hp
    exact ⟨(p.y - b.y).toNat, by omega, by omega⟩

/-- The border of a box covers the outermost pixels of it, and no other ones. -/
theorem covers_border_iff (hwidth : 0 < b.width) (hheight : 0 < b.height) :
    b.border.any (·.covers p) = true ↔ b.depth p = 0 := by
  have hx : b.x ≤ b.right := by rw [right]; omega
  have hy : b.y ≤ b.bottom := by rw [bottom]; omega
  simp only [border, List.any_append, Bool.or_eq_true, covers_level_iff hx, covers_upright_iff hy,
    depth]
  omega

/-- What is left of a box has a width and a height. -/
theorem pos_of_shrink? (h : b.shrink? margin = some c) : 0 < c.width ∧ 0 < c.height := by
  simp only [shrink?] at h
  split_ifs at h with hpos
  rw [← Option.some.inj h]
  exact hpos

/-- In a box that is smaller by a margin every pixel is that much less deep. -/
theorem depth_of_shrink? (h : b.shrink? margin = some c) : c.depth p = b.depth p - margin := by
  simp only [shrink?] at h
  split_ifs at h
  rw [← Option.some.inj h]
  simp only [depth, right, bottom]
  omega

/-- A margin that leaves nothing of a box is more than the depth of any pixel. -/
theorem depth_lt_of_shrink? (h : b.shrink? margin = none) : b.depth p < margin := by
  simp only [shrink?] at h
  split_ifs at h with hpos
  simp only [depth, right, bottom]
  omega

end Box

/-! ### Shapes -/

/-- The picture has the colors of a function of pixels, row by row, and no other pixels. -/
def Picture.Shows (picture : Picture) (color : Pixel → Rgba) : Prop :=
  ∀ y : ℕ, picture.row y = Array.ofFn fun x : Fin picture.width ↦ color ⟨x.val, y⟩

/-- A picture is known by the colors of its pixels. -/
theorem Picture.shows_of_colorAt {picture : Picture} {color : Pixel → Rgba}
    (h : ∀ p, picture.colorAt p = color p) : picture.Shows color := by
  intro y
  simp only [row_eq_ofFn, h]

/-- The last stroke is on top. -/
theorem Picture.colorAt_concat {width height : ℕ} {strokes : List Stroke} {stroke : Stroke}
    {p : Pixel} :
    (⟨width, height, strokes ++ [stroke]⟩ : Picture).colorAt p =
      if stroke.covers p = true then stroke.color
      else (⟨width, height, strokes⟩ : Picture).colorAt p := by
  rw [colorAt, List.reverse_append, List.reverse_singleton, List.singleton_append, List.find?_cons]
  cases stroke.covers p <;> rfl

/-- If all strokes have one color, it does not matter which one is on top. -/
theorem Picture.colorAt_of_color {width height : ℕ} {strokes : List Stroke} {color : Rgba}
    (h : ∀ stroke ∈ strokes, stroke.color = color) {p : Pixel} :
    (⟨width, height, strokes⟩ : Picture).colorAt p =
      if strokes.any (·.covers p) = true then color else .transparent := by
  rw [colorAt]
  cases htop : strokes.reverse.find? (·.covers p) with
  | none =>
    have hnone := List.find?_eq_none.1 htop
    rw [if_neg fun hany ↦ ?_]
    obtain ⟨stroke, hstroke, hcovers⟩ := List.any_eq_true.1 hany
    exact hnone stroke (List.mem_reverse.2 hstroke) hcovers
  | some top =>
    have hmem := List.mem_reverse.1 (List.mem_of_find?_eq_some htop)
    rw [if_pos (List.any_eq_true.2 ⟨top, hmem, List.find?_some htop⟩)]
    exact h top hmem

namespace Sprite

/-- How deep a pixel is in the box of a shape, which keeps a distance of half a stroke from the
edges of the picture; it is negative outside of the box. -/
def depth (s : Sprite) (p : Pixel) : ℤ :=
  min (min (p.x - s.halfStroke) (s.pictureWidth - s.halfStroke - 1 - p.x))
    (min (p.y - s.halfStroke) (s.pictureHeight - s.halfStroke - 1 - p.y))

/-- What the picture of a shape with straight edges has to show. -/
structure DrawsBoxes (α : Type) [Scalar α] (s : Sprite) : Prop where
  /-- The picture has the size of the shape, and is two pixels wide and high at least. -/
  size : (s.picture α).width = max s.width 2 ∧ (s.picture α).height = max s.height 2
  /-- A rectangle fills its box. -/
  rectangle : s.kind = .rectangle → s.outlined = false →
    (s.picture α).Shows fun p ↦ if 0 ≤ s.depth p then s.fill else .transparent
  /-- An outlined rectangle is white up to half a stroke, and filled from there on. -/
  outlinedRectangle : s.kind = .rectangle → s.outlined = true →
    (s.picture α).Shows fun p ↦
      if s.halfStroke ≤ s.depth p then s.fill
      else if 0 ≤ s.depth p then outlineColor else .transparent
  /-- An outline is one stroke wide, and hollow inside. -/
  outline : s.kind = .outline →
    (s.picture α).Shows fun p ↦
      if 0 ≤ s.depth p ∧ s.depth p < s.stroke then s.fill else .transparent
  /-- Where the distance from the edges leaves no box, nothing is drawn. -/
  blank : s.pictureWidth ≤ 2 * s.halfStroke ∨ s.pictureHeight ≤ 2 * s.halfStroke →
    (s.picture α).Shows fun _ ↦ .transparent

variable {s : Sprite} {box : Box} {p : Pixel}

/-- The depth in a shape is the one in its box. -/
theorem depth_of_box? (h : s.box? = some box) : box.depth p = s.depth p := by
  rw [Box.depth_of_shrink? h]
  simp only [Box.depth, Box.right, Box.bottom, depth]
  omega

/-- Without a box no pixel is inside. -/
theorem depth_of_box?_eq_none (h : s.box? = none) : s.depth p < 0 := by
  have hlt := Box.depth_lt_of_shrink? h (p := p)
  simp only [Box.depth, Box.right, Box.bottom] at hlt
  simp only [depth]
  omega

theorem picture_of_box? (α : Type) [Scalar α] (h : s.box? = some box) :
    s.picture α = ⟨s.pictureWidth, s.pictureHeight, s.strokesIn α box⟩ := by
  rw [picture, h]

theorem picture_of_box?_eq_none (α : Type) [Scalar α] (h : s.box? = none) :
    s.picture α = ⟨s.pictureWidth, s.pictureHeight, []⟩ := by
  rw [picture, h]

/-- A filled box within the box of a shape covers what is deeper than its margin. -/
theorem covers_inner_iff {inner : Box} {margin : ℤ} {color : Rgba} (hbox : s.box? = some box)
    (h : box.shrink? margin = some inner) :
    (⟨color, inner.filled⟩ : Stroke).covers p = true ↔ margin ≤ s.depth p := by
  rw [Stroke.covers, Box.covers_filled_iff, Box.depth_of_shrink? h, depth_of_box? hbox,
    sub_nonneg]

/-- A stroke that fills the box covers what is inside. -/
theorem covers_box_iff {color : Rgba} (hbox : s.box? = some box) :
    (⟨color, box.filled⟩ : Stroke).covers p = true ↔ 0 ≤ s.depth p := by
  rw [Stroke.covers, Box.covers_filled_iff, depth_of_box? hbox]

/-- A rectangle fills its box. -/
theorem shows_rectangle (α : Type) [Scalar α] (hkind : s.kind = .rectangle)
    (houtlined : s.outlined = false) :
    (s.picture α).Shows fun p ↦ if 0 ≤ s.depth p then s.fill else .transparent := by
  refine Picture.shows_of_colorAt fun p ↦ ?_
  cases hbox : s.box? with
  | none =>
    rw [picture_of_box?_eq_none α hbox, if_neg (not_le.2 (depth_of_box?_eq_none hbox))]
    rfl
  | some box =>
    have hstrokes : s.strokesIn α box = [] ++ [⟨s.fill, box.filled⟩] := by
      rw [strokesIn, hkind, layered, houtlined]
      rfl
    simp only [picture_of_box? α hbox, hstrokes, Picture.colorAt_concat, covers_box_iff hbox]
    rfl

/-- An outlined rectangle is filled from half a stroke on, and white before. -/
theorem shows_outlinedRectangle (α : Type) [Scalar α] (hkind : s.kind = .rectangle)
    (houtlined : s.outlined = true) :
    (s.picture α).Shows fun p ↦
      if s.halfStroke ≤ s.depth p then s.fill
      else if 0 ≤ s.depth p then outlineColor else .transparent := by
  refine Picture.shows_of_colorAt fun p ↦ ?_
  cases hbox : s.box? with
  | none =>
    have hout : s.depth p < 0 := depth_of_box?_eq_none hbox
    rw [picture_of_box?_eq_none α hbox, if_neg (by omega), if_neg (by omega)]
    rfl
  | some box =>
    -- a box that is too narrow for the stroke is white all over
    cases hinner : box.shrink? s.halfStroke with
    | none =>
      have hshallow : s.depth p < s.halfStroke := by
        rw [← depth_of_box? hbox]
        exact Box.depth_lt_of_shrink? hinner
      have hstrokes : s.strokesIn α box = [] ++ [⟨outlineColor, box.filled⟩] := by
        rw [strokesIn, hkind, layered, houtlined, hinner]
        rfl
      simp only [picture_of_box? α hbox, hstrokes, Picture.colorAt_concat, covers_box_iff hbox]
      rw [if_neg (not_le.2 hshallow)]
      rfl
    | some inner =>
      have hstrokes : s.strokesIn α box =
          [] ++ [⟨outlineColor, box.filled⟩] ++ [⟨s.fill, inner.filled⟩] := by
        rw [strokesIn, hkind, layered, houtlined, hinner]
        rfl
      simp only [picture_of_box? α hbox, hstrokes, Picture.colorAt_concat, covers_box_iff hbox,
        covers_inner_iff hbox hinner]
      rfl

/-- The rings of an outline cover what is in the box and less deep than a stroke. -/
theorem covers_rings_iff (α : Type) [Scalar α] (hkind : s.kind = .outline)
    (hbox : s.box? = some box) :
    (s.strokesIn α box).any (·.covers p) = true ↔ 0 ≤ s.depth p ∧ s.depth p < s.stroke := by
  rw [strokesIn, hkind, List.any_eq_true]
  constructor
  · rintro ⟨ring, hring, hcovers⟩
    obtain ⟨margin, hmargin, hring⟩ := List.mem_filterMap.1 hring
    obtain ⟨inner, hinner, rfl⟩ := Option.map_eq_some_iff.1 hring
    obtain ⟨hwidth, hheight⟩ := Box.pos_of_shrink? hinner
    have hdepth := (Box.covers_border_iff hwidth hheight).1 hcovers
    rw [Box.depth_of_shrink? hinner, depth_of_box? hbox] at hdepth
    have := List.mem_range.1 hmargin
    omega
  · rintro ⟨hin, hlt⟩
    -- the ring at the depth of the pixel is there, since the pixel is in it
    obtain ⟨margin, hmargin⟩ := Int.eq_ofNat_of_zero_le hin
    cases hinner : box.shrink? margin with
    | none =>
      have := Box.depth_lt_of_shrink? hinner (p := p)
      rw [depth_of_box? hbox] at this
      omega
    | some inner =>
      obtain ⟨hwidth, hheight⟩ := Box.pos_of_shrink? hinner
      refine ⟨⟨s.fill, inner.border⟩, List.mem_filterMap.2 ⟨margin, ?_, ?_⟩, ?_⟩
      · exact List.mem_range.2 (by omega)
      · rw [hinner]
        rfl
      · refine (Box.covers_border_iff hwidth hheight).2 ?_
        rw [Box.depth_of_shrink? hinner, depth_of_box? hbox, hmargin, sub_self]

/-- An outline is one stroke wide. -/
theorem shows_outline (α : Type) [Scalar α] (hkind : s.kind = .outline) :
    (s.picture α).Shows fun p ↦
      if 0 ≤ s.depth p ∧ s.depth p < s.stroke then s.fill else .transparent := by
  refine Picture.shows_of_colorAt fun p ↦ ?_
  cases hbox : s.box? with
  | none =>
    have hout : s.depth p < 0 := depth_of_box?_eq_none hbox
    rw [picture_of_box?_eq_none α hbox, if_neg (by omega)]
    rfl
  | some box =>
    have hfill : ∀ ring ∈ s.strokesIn α box, ring.color = s.fill := by
      intro ring hring
      rw [strokesIn, hkind] at hring
      obtain ⟨margin, -, hring⟩ := List.mem_filterMap.1 hring
      obtain ⟨inner, -, rfl⟩ := Option.map_eq_some_iff.1 hring
      rfl
    rw [picture_of_box? α hbox, Picture.colorAt_of_color hfill]
    simp only [covers_rings_iff α hkind hbox]

/-- A shape whose picture is taken up by its stroke is not drawn. -/
theorem shows_blank (α : Type) [Scalar α]
    (h : s.pictureWidth ≤ 2 * s.halfStroke ∨ s.pictureHeight ≤ 2 * s.halfStroke) :
    (s.picture α).Shows fun _ ↦ .transparent := by
  have hbox : s.box? = none := by
    rw [box?, Box.shrink?]
    exact if_neg (by simp only; omega)
  refine Picture.shows_of_colorAt fun p ↦ ?_
  rw [picture_of_box?_eq_none α hbox]
  rfl

/-- Rectangles and outlines are drawn to the pixel, at every size and in every color. -/
theorem drawsBoxes (α : Type) [Scalar α] (s : Sprite) : s.DrawsBoxes α where
  size := ⟨rfl, rfl⟩
  rectangle := shows_rectangle α
  outlinedRectangle := shows_outlinedRectangle α
  outline := shows_outline α
  blank := shows_blank α

end Sprite

end Splice
