import Mathlib.Algebra.Order.Ring.Int
import Splice.Raster.Picture

/-!
# Rows of a picture

A row is painted span by span over a transparent one, while the color of a pixel is defined by the
topmost stroke that covers it. Both agree (`Picture.row_eq_ofFn`). The lemma that carries this is
about one stroke (`Picture.getElem?_cover`): it gives its color to the pixels that it covers, and
leaves all others.
-/

namespace Splice

/-- A span covers the pixels of its row from one end to the other. -/
theorem Span.covers_iff {s : Span} {x y : ℕ} (hy : s.y = y) :
    s.covers ⟨x, y⟩ = true ↔ s.left.toNat ≤ x ∧ x < (s.right + 1).toNat := by
  simp only [covers, hy, beq_self_eq_true, Bool.true_and, Bool.and_eq_true, decide_eq_true_eq]
  omega

namespace Picture

variable {color : Rgba} {row : Array Rgba} {x y : ℕ}

/-! ### Painting -/

/-- Painting keeps the length of a row. -/
theorem size_foldl {β : Type} {f : Array Rgba → β → Array Rgba}
    (hf : ∀ row b, (f row b).size = row.size) (bs : List β) (row : Array Rgba) :
    (bs.foldl f row).size = row.size := by
  induction bs generalizing row with
  | nil => rfl
  | cons b rest ih => rw [List.foldl_cons, ih, hf]

theorem size_paint (color : Rgba) (row : Array Rgba) (span : Span) :
    (paint color row span).size = row.size :=
  size_foldl (fun _ _ ↦ Array.size_setIfInBounds) _ _

/-- Setting the pixels at some places changes just these. -/
theorem getElem?_foldl_set {xs : List ℕ} :
    (xs.foldl (fun row i ↦ row.setIfInBounds i color) row)[x]? =
      if x ∈ xs ∧ x < row.size then some color else row[x]? := by
  induction xs generalizing row with
  | nil => simp
  | cons i rest ih =>
    rw [List.foldl_cons, ih, Array.size_setIfInBounds, Array.getElem?_setIfInBounds]
    by_cases hi : i = x
    · by_cases hx : x < row.size <;> simp [hi, hx]
    · simp [hi, Ne.symm hi]

/-- A span gives its color to the pixels that it covers. -/
theorem getElem?_paint {span : Span} (hy : span.y = y) :
    (paint color row span)[x]? =
      if span.covers ⟨x, y⟩ = true ∧ x < row.size then some color else row[x]? := by
  have hmem : (x ∈ List.range' span.left.toNat
      (min (span.right + 1).toNat row.size - span.left.toNat) ∧ x < row.size) ↔
        (span.covers ⟨x, y⟩ = true ∧ x < row.size) := by
    rw [Span.covers_iff hy, List.mem_range'_1]
    omega
  rw [paint, getElem?_foldl_set]
  simp only [hmem]

/-- So do several spans of one color. -/
theorem getElem?_foldl_paint {spans : List Span} (hspans : ∀ span ∈ spans, span.y = y) :
    (spans.foldl (paint color) row)[x]? =
      if spans.any (·.covers ⟨x, y⟩) = true ∧ x < row.size then some color else row[x]? := by
  induction spans generalizing row with
  | nil => simp
  | cons span rest ih =>
    rw [List.forall_mem_cons] at hspans
    rw [List.foldl_cons, ih hspans.2, size_paint, getElem?_paint hspans.1, List.any_cons]
    by_cases hspan : span.covers ⟨x, y⟩ = true
    · by_cases hx : x < row.size <;> simp [hspan, hx]
    · simp [hspan]

/-! ### Strokes -/

/-- A row after one more stroke. -/
def cover (y : ℕ) (row : Array Rgba) (stroke : Stroke) : Array Rgba :=
  (stroke.spans.filter (·.y == (y : ℤ))).foldl (paint stroke.color) row

theorem size_cover (y : ℕ) (row : Array Rgba) (stroke : Stroke) :
    (cover y row stroke).size = row.size :=
  size_foldl (size_paint _) _ _

/-- A stroke gives its color to the pixels that it covers. -/
theorem getElem?_cover {stroke : Stroke} :
    (cover y row stroke)[x]? =
      if stroke.covers ⟨x, y⟩ = true ∧ x < row.size then some stroke.color else row[x]? := by
  have hany : (stroke.spans.filter (·.y == (y : ℤ))).any (·.covers ⟨x, y⟩) =
      stroke.covers ⟨x, y⟩ := by
    rw [Stroke.covers, List.any_filter]
    congr 1
    funext span
    rw [Span.covers, Bool.and_assoc, Bool.and_self_left]
  rw [cover, getElem?_foldl_paint fun span hspan ↦ by simpa using (List.mem_filter.1 hspan).2,
    hany]

/-- A pixel has the color of the last stroke that covers it, or the color it had. -/
theorem getElem?_foldl_cover {strokes : List Stroke} (hx : x < row.size) :
    (strokes.foldl (cover y) row)[x]? =
      match strokes.reverse.find? (·.covers ⟨x, y⟩) with
      | some stroke => some stroke.color
      | none => row[x]? := by
  induction strokes generalizing row with
  | nil => rfl
  | cons stroke rest ih =>
    rw [List.foldl_cons, ih ((size_cover y row stroke).symm ▸ hx), List.reverse_cons,
      List.find?_append]
    cases rest.reverse.find? (·.covers ⟨x, y⟩) with
    | some top => rfl
    | none =>
      rw [Option.none_or, getElem?_cover]
      by_cases hstroke : stroke.covers ⟨x, y⟩ = true <;> simp [hstroke, hx]

/-- The pixels of a row have the colors of the topmost strokes. -/
theorem row_eq_ofFn (picture : Picture) (y : ℕ) :
    picture.row y = Array.ofFn fun x : Fin picture.width ↦ picture.colorAt ⟨x.val, y⟩ := by
  have hrow : picture.row y =
      picture.strokes.foldl (cover y) (Array.replicate picture.width .transparent) := rfl
  have hsize : (picture.row y).size = picture.width := by
    rw [hrow, size_foldl (size_cover y), Array.size_replicate]
  refine Array.ext (by rw [hsize, Array.size_ofFn]) fun x hx _ ↦ ?_
  have hwidth : x < picture.width := hsize ▸ hx
  rw [← Option.some_inj, ← Array.getElem?_eq_getElem, Array.getElem_ofFn, hrow,
    getElem?_foldl_cover (by rwa [Array.size_replicate]), colorAt]
  cases picture.strokes.reverse.find? (·.covers ⟨x, y⟩) with
  | some stroke => rfl
  | none => rw [Array.getElem?_replicate, if_pos hwidth]

end Picture

end Splice
