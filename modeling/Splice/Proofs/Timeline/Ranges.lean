import Splice.Proofs.Timeline.CurveLaw
import Splice.Render.Placement

/-!
# Ranges

Nothing checks the effects of a clip: any of them may be missing, infinite or no number. What the
accessors give is in range all the same, in exact numbers, and so are the source window and the
curves that are made of it. A range is a set of rationals (`Exact.IsIn`), so a scalar in range is
finite.
-/

namespace Splice

open Exact (number isFinite_iff)

/-- A scalar is a rational within a set. -/
def Exact.IsIn (x : Exact) (s : Set ℚ) : Prop := ∃ q ∈ s, x = number q

namespace Exact

variable {x : Exact} {s t : Set ℚ}

theorem isIn_number {q : ℚ} (h : q ∈ s) : (number q).IsIn s := ⟨q, h, rfl⟩

theorem isIn_univ (q : ℚ) : (number q).IsIn Set.univ := ⟨q, trivial, rfl⟩

/-- The finite scalars are the rationals. -/
theorem isIn_univ_iff : x.IsIn Set.univ ↔ Scalar.isFinite x = true := by
  rw [isFinite_iff, IsIn]
  simp

/-- A scalar that falls back on a finite default is finite. -/
theorem isIn_finiteElse (fallback : ℚ) (value : Option Exact) :
    (Scalar.finiteElse (number fallback) value).IsIn Set.univ := by
  obtain ⟨q, hq⟩ := exists_finiteElse fallback value
  exact ⟨q, trivial, hq⟩

/-- A finite scalar held up at zero is not negative. -/
theorem IsIn.max_zero (h : x.IsIn Set.univ) : (Scalar.max x 0.0).IsIn (Set.Ici 0) := by
  obtain ⟨q, -, rfl⟩ := h
  rw [zero_eq, max_number]
  exact isIn_number (le_max_right q 0)

/-- Nothing is held up at zero and still below it, not even what is no number. -/
theorem zero_le_max_zero (x : Exact) : 0.0 ≤ Scalar.max x 0.0 := by
  rcases x with - | (- | -) | q
  case number =>
    rw [zero_eq, max_number, number_le]
    exact le_max_right q 0
  all_goals decide +kernel

/-- A finite scalar held within bounds in order is within them. -/
theorem IsIn.clamp {low high : ℚ} (hle : low ≤ high) (h : x.IsIn Set.univ) :
    (Scalar.clamp (number low) (number high) x).IsIn (Set.Icc low high) := by
  obtain ⟨q, -, rfl⟩ := h
  rw [clamp_number]
  refine isIn_number ?_
  split_ifs with hlow hhigh
  · exact ⟨le_rfl, hle⟩
  · exact ⟨hle, le_rfl⟩
  · exact ⟨not_lt.1 hlow, not_lt.1 hhigh⟩

/-- A finite scalar held within zero and one is a fraction. -/
theorem IsIn.clamp_unit (h : x.IsIn Set.univ) :
    (Scalar.clamp 0.0 1.0 x).IsIn (Set.Icc 0 1) := by
  rw [zero_eq, one_eq]
  exact h.clamp zero_le_one

end Exact

open Exact (isIn_number isIn_finiteElse)

/-! ### Effects -/

namespace Effects

variable (e : Effects Exact)

/-- An opacity in effect is a fraction, whatever the effects say. -/
theorem isIn_opacity : e.opacity.IsIn (Set.Icc 0 1) := (isIn_finiteElse _ _).clamp_unit

/-- A speed in effect is between a quarter and four. -/
theorem isIn_speed : e.speed.IsIn (Set.Icc (1 / 4) 4) := by
  have hleast : (leastSpeed : Exact) = number (1 / 4) := by
    rw [leastSpeed, Exact.ofScientific_eq]
    norm_num
  have hgreatest : (greatestSpeed : Exact) = number 4 := by
    rw [greatestSpeed, Exact.ofScientific_eq]
    norm_num
  rw [speed, hleast, hgreatest]
  exact (isIn_finiteElse _ _).clamp (by norm_num)

theorem isIn_fadeIn : e.fadeIn.IsIn (Set.Ici 0) := (isIn_finiteElse _ _).max_zero

theorem isIn_fadeOut : e.fadeOut.IsIn (Set.Ici 0) := (isIn_finiteElse _ _).max_zero

/-- The fade of a sound falls back on that of the picture, which is in range already. -/
theorem isIn_audioFadeIn : e.audioFadeIn.IsIn (Set.Ici 0) := by
  obtain ⟨q, -, hq⟩ := e.isIn_fadeIn
  rw [audioFadeIn, hq]
  exact (isIn_finiteElse _ _).max_zero

theorem isIn_audioFadeOut : e.audioFadeOut.IsIn (Set.Ici 0) := by
  obtain ⟨q, -, hq⟩ := e.isIn_fadeOut
  rw [audioFadeOut, hq]
  exact (isIn_finiteElse _ _).max_zero

/-- A volume in effect is finite, but may be negative. -/
theorem isIn_volume : e.volume.IsIn Set.univ := isIn_finiteElse _ _

end Effects

/-! ### Source windows -/

namespace MediaClip

variable {media : MediaClip Exact} {start d : ℚ}

/-- The source window begins at the start of the source or later, also before a negative trim. -/
theorem isIn_excerpt_start (hstart : media.trimStart = number start) (duration : Exact) :
    (media.excerpt duration).start.IsIn (Set.Ici 0) := by
  show (Scalar.max media.trimStart 0.0).IsIn _
  rw [hstart]
  exact (Exact.isIn_univ start).max_zero

/-- The source window is longer than nothing. -/
theorem isIn_excerpt_sourceDuration (hstart : media.trimStart = number start) :
    (media.excerpt (number d)).sourceDuration.IsIn (Set.Ioi 0) := by
  obtain ⟨v, hv, hpos⟩ := media.look.effects.exists_speed
  have hleast (q : ℚ) : 0 < max q (1 / 20) := lt_max_of_lt_right (by norm_num)
  rcases htrim : media.trimEnd?.filter Scalar.isFinite with - | stop
  · simp only [excerpt, htrim, leastSegment_eq, hv, Exact.max_number, Exact.number_mul]
    exact isIn_number (mul_pos (hleast d) hpos)
  · obtain ⟨q, rfl⟩ := isFinite_iff.1 (Option.filter_eq_some_iff.1 htrim).2
    simp only [excerpt, htrim, leastSegment_eq, hstart, zero_eq, Exact.max_number,
      Exact.number_sub]
    exact isIn_number (hleast _)

/-- The output of a source window is a twentieth of a second or longer. -/
theorem isIn_excerpt_outputDuration (hstart : media.trimStart = number start) :
    (media.excerpt (number d)).outputDuration.IsIn (Set.Ici (1 / 20)) := by
  obtain ⟨r, hr, hle⟩ := exists_outputDuration (d := d) hstart
  exact ⟨r, hle, hr⟩

end MediaClip

/-! ### Curves -/

namespace Curve

/-- A curve has points, all of them finite, with values within a set. -/
structure IsWithin (c : Curve Exact) (s : Set ℚ) : Prop where
  nonempty : c.points ≠ []
  times : ∀ point ∈ c.points, point.1.IsIn Set.univ
  values : ∀ point ∈ c.points, point.2.IsIn s

/-- Thinning drops samples and adds none. -/
theorem thin_sublist {α : Type} [Scalar α] (samples : List (α × α)) :
    (thin samples).Sublist samples := by
  fun_induction thin samples with
  | case1 sample next rest hclose ih => exact ih.cons sample
  | case2 sample next rest hclose ih => exact ih.cons_cons sample
  | case3 samples => exact List.Sublist.refl _

/-- A curve is within a set if every finite sample is, and the fallback. -/
theorem isWithin_ofSamples {s : Set ℚ} {samples : List (Exact × Exact)} {fallback : Exact}
    (hfallback : fallback.IsIn s)
    (hsamples : ∀ sample ∈ samples, Scalar.isFinite sample.2 = true → sample.2.IsIn s) :
    (ofSamples samples fallback).IsWithin s := by
  have hkept : ∀ point ∈ thin (sortByTime (finiteSamples samples)),
      point.1.IsIn Set.univ ∧ point.2.IsIn s := by
    intro point hpoint
    obtain ⟨hmem, hfinite⟩ :=
      List.mem_filter.1 (List.mem_mergeSort.1 ((thin_sublist _).subset hpoint))
    obtain ⟨htime, hvalue⟩ := Bool.and_eq_true_iff.1 hfinite
    exact ⟨Exact.isIn_univ_iff.2 htime, hsamples point hmem hvalue⟩
  rw [ofSamples]
  generalize thin (sortByTime (finiteSamples samples)) = kept at hkept
  cases kept with
  | nil =>
    exact ⟨List.cons_ne_nil _ _, List.forall_mem_singleton.2 (Exact.isIn_univ _),
      List.forall_mem_singleton.2 hfallback⟩
  | cons first rest =>
    exact ⟨List.cons_ne_nil _ _, fun point h ↦ (hkept point h).1,
      fun point h ↦ (hkept point h).2⟩

/-- A curve of keyframes is within a set if the fallback is, and every finite value that is picked
from a keyframe. -/
theorem isWithin_ofKeyframes {s : Set ℚ} {fallback : Exact} (hfallback : fallback.IsIn s)
    {pick : Keyframe Exact → Option Exact}
    (hpick : ∀ k, ∀ value ∈ pick k, Scalar.isFinite value = true → value.IsIn s)
    (keyframes : List (Keyframe Exact)) (clipStart : Exact) :
    (ofKeyframes keyframes clipStart fallback pick).IsWithin s := by
  refine isWithin_ofSamples hfallback fun sample hsample hfinite ↦ ?_
  obtain ⟨k, -, hk⟩ := List.mem_filterMap.1 hsample
  obtain ⟨value, hvalue, rfl⟩ := Option.map_eq_some_iff.1 hk
  exact hpick k value hvalue hfinite

/-- A curve does not leave the bounds of its points. -/
theorem isIn_eval {c : Curve ℚ} {low high : ℚ} (h : IsIncreasing c.points)
    (hwithin : c.exact.IsWithin (Set.Icc low high)) (time : Exact) :
    (c.exact.eval time).IsIn (Set.Icc low high) := by
  have hpoint : ∀ point ∈ c.points, point.2 ∈ Set.Icc low high := by
    intro point hpoint
    obtain ⟨q, hq, heq⟩ := hwithin.values _ (mem_points_exact.2 hpoint)
    obtain rfl : point.2 = q := Exact.number.inj heq
    exact hq
  obtain ⟨v, hv, a, ha, b, hb, hle, hge⟩ := (interpolates h).bounded time
  exact ⟨v, ⟨(hpoint a ha).1.trans hle, hge.trans (hpoint b hb).2⟩, hv⟩

/-- Neither does its expression. -/
theorem isIn_evaluate? {c : Curve ℚ} {low high : ℚ} (h : IsIncreasing c.points)
    (hwithin : c.exact.IsWithin (Set.Icc low high)) {symbol : String} {offset : ℚ}
    (hoffset : offset = 0 ∨ 1 / 10 ^ 9 ≤ |offset|) (assign : String → Exact) :
    ∃ x : Exact, Formula.evaluate? assign (c.exact.expression symbol (number offset)).tokens =
      some x ∧ x.IsIn (Set.Icc low high) := by
  cases hflat : c.exact.isFlat with
  | false =>
    exact ⟨_, (isLowered h symbol offset).value hflat hoffset assign, isIn_eval h hwithin _⟩
  | true =>
    refine ⟨_, ?_, hwithin.values _ (mem_points_exact.2 List.mem_cons_self)⟩
    rw [Expression.evaluate?_tokens assign (isBracketed_expression c symbol _),
      expression_of_flat hflat]
    rfl

end Curve

namespace Look

variable (look : Look Exact) (clipStart : Exact) (width height : ℕ)

/-- The curves of the placement may leave the canvas, but stay finite. -/
theorem isWithin_place_x : (look.place clipStart width height).x.IsWithin Set.univ :=
  Curve.isWithin_ofKeyframes (Exact.isIn_univ _) (fun _ _ _ ↦ Exact.isIn_univ_iff.2) _ _

theorem isWithin_place_y : (look.place clipStart width height).y.IsWithin Set.univ :=
  Curve.isWithin_ofKeyframes (Exact.isIn_univ _) (fun _ _ _ ↦ Exact.isIn_univ_iff.2) _ _

/-- The curve of the opacity stays within zero and one, since the level of each keyframe is held
there. -/
theorem isWithin_place_opacity :
    (look.place clipStart width height).opacity.IsWithin (Set.Icc 0 1) := by
  refine Curve.isWithin_ofKeyframes look.effects.isIn_opacity (fun k value hvalue _ ↦ ?_) _ _
  obtain ⟨level, hlevel, rfl⟩ := Option.map_eq_some_iff.1 hvalue
  exact (Exact.isIn_univ_iff.2 (Option.filter_eq_some_iff.1 hlevel).2).clamp_unit

end Look

end Splice
