import Mathlib.Tactic.FieldSimp
import Mathlib.Tactic.Linarith
import Splice.Proofs.Timeline.Durations
import Splice.Proofs.Timeline.Formulas
import Splice.Timeline.Curve

/-!
# The law of a curve

Over exact scalars, whatever the samples of a curve are, `Curve.ofSamples` draws it through
rational points whose times increase (`Curve.exists_exact_ofSamples`). From this order alone
follows everything else:

* `Curve.eval` is the piecewise linear interpolant of the points (`Curve.Interpolates`);
* the expression of the curve, read from its text and calculated by a filter, is the same law
  (`Curve.IsLowered`), exactly, unless the curve counts as flat and is written as one number.

The two laws go through the points in the same order, so both inductions are on the points that
remain, and both carry the invariant that the time is not before the point at which they begin.
-/

namespace Splice

open Exact Formula

namespace Curve

/-! ### Curves through rational points -/

/-- A rational point as an exact one. -/
def exactPoint (point : ℚ × ℚ) : Exact × Exact := (number point.1, number point.2)

theorem exactPoint_injective : Function.Injective exactPoint := fun _ _ h ↦
  Prod.ext (number.inj (congrArg Prod.fst h)) (number.inj (congrArg Prod.snd h))

/-- A finite sample is a rational point. -/
theorem exists_exactPoint {sample : Exact × Exact} (htime : Scalar.isFinite sample.1 = true)
    (hvalue : Scalar.isFinite sample.2 = true) : ∃ point, exactPoint point = sample := by
  obtain ⟨t, ht⟩ := isFinite_iff.1 htime
  obtain ⟨v, hv⟩ := isFinite_iff.1 hvalue
  exact ⟨(t, v), Prod.ext ht.symm hv.symm⟩

/-- The exact curve through rational points. -/
def exact (c : Curve ℚ) : Curve Exact := ⟨exactPoint c.first, c.rest.map exactPoint⟩

/-- The points of the exact curve are the rational ones. -/
theorem mem_points_exact {c : Curve ℚ} {point : ℚ × ℚ} :
    exactPoint point ∈ c.exact.points ↔ point ∈ c.points := by
  show exactPoint point ∈ c.points.map exactPoint ↔ _
  rw [List.mem_map_of_injective exactPoint_injective]

/-- The times of the points increase. -/
def IsIncreasing (points : List (ℚ × ℚ)) : Prop := points.Pairwise fun a b ↦ a.1 < b.1

/-- The times of any two points are a step apart. -/
def IsSpaced (points : List (ℚ × ℚ)) : Prop := points.Pairwise fun a b ↦ a.1 + 1 / 10000 ≤ b.1

/-- Points that are a step apart increase. -/
theorem IsSpaced.isIncreasing {points : List (ℚ × ℚ)} (h : IsSpaced points) :
    IsIncreasing points :=
  h.imp fun {a b} hle ↦ by linarith

theorem leastStep_eq : (leastStep : Exact) = number (1 / 10000) := by
  rw [leastStep, ofScientific_eq]
  norm_num

/-- A sample is replaced if the next one is close, and else it stays. -/
theorem thin_map_cons {sample next : ℚ × ℚ} (h : sample.1 ≤ next.1) (rest : List (ℚ × ℚ)) :
    thin ((sample :: next :: rest).map exactPoint) =
      if next.1 - sample.1 < 1 / 10000 then thin ((next :: rest).map exactPoint)
      else exactPoint sample :: thin ((next :: rest).map exactPoint) := by
  rw [List.map_cons, List.map_cons, thin, leastStep_eq, ← List.map_cons]
  have hclose : Scalar.abs ((exactPoint next).1 - (exactPoint sample).1) < number (1 / 10000) ↔
      next.1 - sample.1 < 1 / 10000 := by
    rw [← abs_of_nonneg (sub_nonneg.2 h)]
    exact number_lt _ _
  exact if_congr hclose rfl rfl

/-- A sample that is replaced leaves the order of the others, and two samples that both stay are a
step apart. -/
theorem exists_thin {samples : List (ℚ × ℚ)} (h : samples.Pairwise fun a b ↦ a.1 ≤ b.1) :
    ∃ points : List (ℚ × ℚ), thin (samples.map exactPoint) = points.map exactPoint ∧
      points.Sublist samples ∧ IsSpaced points := by
  induction samples with
  | nil => exact ⟨[], rfl, List.Sublist.refl _, List.Pairwise.nil⟩
  | cons sample rest ih =>
    rcases rest with - | ⟨next, rest⟩
    · exact ⟨[sample], rfl, List.Sublist.refl _, List.pairwise_singleton _ _⟩
    obtain ⟨hfirst, hrest⟩ := List.pairwise_cons.1 h
    obtain ⟨points, hthin, hsub, hspaced⟩ := ih hrest
    have hstep := thin_map_cons (hfirst next List.mem_cons_self) rest
    rw [hthin] at hstep
    -- the sample is compared with the next one given, and not with the next one that stays
    by_cases hclose : next.1 - sample.1 < 1 / 10000
    · exact ⟨points, hstep.trans (if_pos hclose), hsub.cons sample, hspaced⟩
    · have hnext : sample.1 + 1 / 10000 ≤ next.1 := by linarith
      refine ⟨sample :: points, hstep.trans (if_neg hclose), hsub.cons_cons sample,
        List.pairwise_cons.2 ⟨fun point hpoint ↦ ?_, hspaced⟩⟩
      rcases List.mem_cons.1 (hsub.mem hpoint) with rfl | hlater
      · exact hnext
      · exact hnext.trans ((List.pairwise_cons.1 hrest).1 point hlater)

/-- The finite samples are sorted as rational points. -/
theorem exists_sorted (samples : List (Exact × Exact)) :
    ∃ sorted : List (ℚ × ℚ), sortByTime (finiteSamples samples) = sorted.map exactPoint ∧
      sorted.Pairwise fun a b ↦ a.1 ≤ b.1 := by
  have hrational : ∀ sample ∈ sortByTime (finiteSamples samples),
      sample ∈ Set.range exactPoint := by
    intro sample hsample
    have hmem := (List.mem_filter.1 (List.mem_mergeSort.1 hsample)).2
    obtain ⟨htime, hvalue⟩ := Bool.and_eq_true_iff.1 hmem
    exact exists_exactPoint htime hvalue
  obtain ⟨sorted, hsorted⟩ : sortByTime (finiteSamples samples) ∈ Set.range (List.map exactPoint) :=
    (Set.range_list_map exactPoint).symm ▸ hrational
  refine ⟨sorted, hsorted.symm, ?_⟩
  have horder : (sortByTime (finiteSamples samples)).Pairwise
      fun a b ↦ Scalar.precedes a.1 b.1 = true :=
    List.pairwise_mergeSort (fun a b c ↦ LawfulScalar.precedes_trans a.1 b.1 c.1)
      (fun a b ↦ LawfulScalar.precedes_total a.1 b.1) _
  rw [← hsorted, List.pairwise_map] at horder
  refine horder.imp fun {a b} h ↦ ?_
  exact (number_le _ _).1 (Scalar.le_of_precedes rfl rfl h)

/-- A curve through samples goes through rational points whose times increase. -/
theorem exists_exact_ofSamples (samples : List (Exact × Exact)) (fallback : ℚ) :
    ∃ c : Curve ℚ, ofSamples samples (number fallback) = c.exact ∧ IsIncreasing c.points := by
  obtain ⟨sorted, hsorted, horder⟩ := exists_sorted samples
  obtain ⟨points, hthin, -, hspaced⟩ := exists_thin horder
  rw [ofSamples, hsorted, hthin]
  rcases points with - | ⟨first, rest⟩
  · refine ⟨⟨(0, fallback), []⟩, ?_, List.pairwise_singleton _ _⟩
    show flat (number fallback) = _
    rw [flat, zero_eq]
    rfl
  · exact ⟨⟨first, rest⟩, rfl, hspaced.isIncreasing⟩

/-! ### The piecewise linear interpolant -/

/-- The value at a time on the line through two points. -/
def onLine (a b : ℚ × ℚ) (t : ℚ) : ℚ := a.2 + (b.2 - a.2) * ((t - a.1) / (b.1 - a.1))

/-- A line goes through its first point. -/
theorem onLine_left (a b : ℚ × ℚ) : onLine a b a.1 = a.2 := by
  rw [onLine, sub_self, zero_div, mul_zero, add_zero]

/-- Between two points their line is between their values. -/
theorem exists_bounds_onLine {a b : ℚ × ℚ} {t : ℚ} (hab : a.1 < b.1) (ha : a.1 ≤ t)
    (hb : t ≤ b.1) : ∃ low ∈ [a, b], ∃ high ∈ [a, b], low.2 ≤ onLine a b t ∧
      onLine a b t ≤ high.2 := by
  have hgap : 0 < b.1 - a.1 := sub_pos.2 hab
  have hzero : 0 ≤ (t - a.1) / (b.1 - a.1) := div_nonneg (sub_nonneg.2 ha) hgap.le
  have hone : (t - a.1) / (b.1 - a.1) ≤ 1 := (div_le_one hgap).2 (by linarith)
  rw [onLine]
  rcases le_total a.2 b.2 with h | h
  · refine ⟨a, by simp, b, by simp, ?_, ?_⟩ <;> nlinarith
  · refine ⟨b, by simp, a, by simp, ?_, ?_⟩ <;> nlinarith

/-- A time between two rationals is a rational. -/
theorem exists_number {time : Exact} {low high : ℚ} (hlow : ¬ time < number low)
    (hhigh : time ≤ number high) : ∃ t, time = number t ∧ low ≤ t ∧ t ≤ high := by
  rcases time with - | (- | -) | t
  case nan => cases hhigh
  case infinite.false => cases hhigh
  case infinite.true => exact absurd rfl hlow
  case number =>
    rw [number_lt, not_lt] at hlow
    exact ⟨t, rfl, hlow, (number_le t high).1 hhigh⟩

section Points

variable {start stop : ℚ × ℚ} {rest : List (ℚ × ℚ)} {time : Exact}

/-- Before the next point the curve is on the line to it. -/
theorem valueFrom_of_lt {t : ℚ} (hincreasing : start.1 < stop.1) (h : t < stop.1) :
    valueFrom (number t) (exactPoint start) ((stop :: rest).map exactPoint) =
      number (onLine start stop t) := by
  have hgap : stop.1 - start.1 ≠ 0 := (sub_pos.2 hincreasing).ne'
  have hlt : number t < (exactPoint stop).1 := (number_lt t stop.1).2 h
  rw [List.map_cons, valueFrom, if_pos hlt]
  show number start.2 + number (stop.2 - start.2) *
    (number (t - start.1) / number (stop.1 - start.1)) = _
  rw [number_div _ _ hgap]
  rfl

/-- From the next point on, the one before it does not matter. -/
theorem valueFrom_of_not_lt (h : ¬ time < number stop.1) :
    valueFrom time (exactPoint start) ((stop :: rest).map exactPoint) =
      valueFrom time (exactPoint stop) (rest.map exactPoint) := by
  rw [List.map_cons, valueFrom]
  exact if_neg h

/-- The curve stays between the values of its points. -/
theorem exists_valueFrom (hincreasing : IsIncreasing (start :: rest))
    (h : ¬ time < number start.1) :
    ∃ v, valueFrom time (exactPoint start) (rest.map exactPoint) = number v ∧
      ∃ low ∈ start :: rest, ∃ high ∈ start :: rest, low.2 ≤ v ∧ v ≤ high.2 := by
  induction rest generalizing start with
  | nil => exact ⟨start.2, rfl, start, by simp, start, by simp, le_rfl, le_rfl⟩
  | cons stop rest ih =>
    obtain ⟨hstart, hrest⟩ := List.pairwise_cons.1 hincreasing
    have hgap : start.1 < stop.1 := hstart stop List.mem_cons_self
    by_cases hstop : time < number stop.1
    · obtain ⟨t, rfl, hle, -⟩ := exists_number h (Scalar.le_of_lt hstop)
      have hlt : t < stop.1 := (number_lt t stop.1).1 hstop
      obtain ⟨low, hlow, high, hhigh, hbounds⟩ := exists_bounds_onLine hgap hle hlt.le
      have hpoints : [start, stop] ⊆ start :: stop :: rest := by simp
      exact ⟨_, valueFrom_of_lt hgap hlt, low, hpoints hlow, high, hpoints hhigh, hbounds⟩
    · obtain ⟨v, hv, low, hlow, high, hhigh, hbounds⟩ := ih hrest hstop
      exact ⟨v, (valueFrom_of_not_lt hstop).trans hv, low, List.mem_cons_of_mem _ hlow, high,
        List.mem_cons_of_mem _ hhigh, hbounds⟩

/-- The curve goes through its points. -/
theorem valueFrom_of_mem (hincreasing : IsIncreasing (start :: rest)) {point : ℚ × ℚ}
    (h : point ∈ start :: rest) :
    valueFrom (number point.1) (exactPoint start) (rest.map exactPoint) = number point.2 := by
  induction rest generalizing start with
  | nil => rw [List.mem_singleton.1 h]; rfl
  | cons stop rest ih =>
    obtain ⟨hstart, hrest⟩ := List.pairwise_cons.1 hincreasing
    rcases List.mem_cons.1 h with rfl | hlater
    · have hgap : point.1 < stop.1 := hstart stop List.mem_cons_self
      rw [valueFrom_of_lt hgap hgap, onLine_left]
    · have hstop : ¬ (number point.1 : Exact) < number stop.1 := by
        rw [number_lt, not_lt]
        rcases List.mem_cons.1 hlater with rfl | hmem
        · exact le_rfl
        · exact ((List.pairwise_cons.1 hrest).1 point hmem).le
      rw [valueFrom_of_not_lt hstop]
      exact ih hrest hlater

/-- Between two neighbours the curve is their line. -/
theorem valueFrom_between (hincreasing : IsIncreasing (start :: rest))
    {before after : List (ℚ × ℚ)} {a b : ℚ × ℚ} (h : start :: rest = before ++ a :: b :: after)
    {t : ℚ} (ha : a.1 ≤ t) (hb : t < b.1) :
    valueFrom (number t) (exactPoint start) (rest.map exactPoint) = number (onLine a b t) := by
  induction before generalizing start rest with
  | nil =>
    obtain ⟨rfl, rfl⟩ := List.cons.inj h
    exact valueFrom_of_lt (ha.trans_lt hb) hb
  | cons _ before ih =>
    obtain ⟨-, hrest⟩ := List.cons.inj h
    rcases rest with - | ⟨stop, rest⟩
    · exact absurd hrest (by simp)
    have htail := (List.pairwise_cons.1 hincreasing).2
    -- the time is at or behind the next point, so the curve goes on from there
    have hmem : a ∈ stop :: rest := by
      rw [hrest]
      simp
    have hstop : ¬ (number t : Exact) < number stop.1 := by
      rw [number_lt, not_lt]
      rcases List.mem_cons.1 hmem with rfl | hlater
      · exact ha
      · exact ((List.pairwise_cons.1 htail).1 a hlater).le.trans ha
    rw [valueFrom_of_not_lt hstop]
    exact ih htail hrest

/-- After the last point the curve stays. -/
theorem valueFrom_last {last : ℚ × ℚ} (h : last ∈ (start :: rest).getLast?)
    (htime : ∀ point ∈ rest, ¬ time < number point.1) :
    valueFrom time (exactPoint start) (rest.map exactPoint) = number last.2 := by
  induction rest generalizing start with
  | nil =>
    obtain rfl : start = last := Option.some.inj h
    rfl
  | cons stop rest ih =>
    rw [valueFrom_of_not_lt (htime stop List.mem_cons_self)]
    exact ih h fun point hpoint ↦ htime point (List.mem_cons_of_mem _ hpoint)

end Points

/-- The law of a curve through rational points. -/
structure Interpolates (c : Curve ℚ) : Prop where
  increasing : IsIncreasing c.points
  /-- The curve goes through its points. -/
  hits : ∀ point ∈ c.points, c.exact.eval (number point.1) = number point.2
  /-- Between two neighbours it is the line through them. -/
  line : ∀ before a b after, c.points = before ++ a :: b :: after →
    ∀ t, a.1 ≤ t → t ≤ b.1 →
      c.exact.eval (number t) = number (a.2 + (b.2 - a.2) * ((t - a.1) / (b.1 - a.1)))
  /-- Before the first point it stays. -/
  first : ∀ t ≤ c.first.1, c.exact.eval (number t) = number c.first.2
  /-- After the last point it stays. -/
  last : ∀ last ∈ c.points.getLast?, ∀ t, last.1 ≤ t →
    c.exact.eval (number t) = number last.2
  /-- At any time it is between the values of two points. -/
  bounded : ∀ time : Exact, ∃ v, c.exact.eval time = number v ∧
    ∃ low ∈ c.points, ∃ high ∈ c.points, low.2 ≤ v ∧ v ≤ high.2

theorem not_lt_of_not_le {x : Exact} {q : ℚ} (h : ¬ x ≤ number q) : ¬ x < number q :=
  fun hlt ↦ h (Scalar.le_of_lt hlt)

/-- Up to the first point the curve stays at its value. -/
theorem eval_of_le {c : Curve ℚ} {time : Exact} (h : time ≤ number c.first.1) :
    c.exact.eval time = number c.first.2 :=
  if_pos h

/-- From the first point on, the curve runs through the others. -/
theorem eval_of_not_lt {c : Curve ℚ} (hincreasing : IsIncreasing c.points) {time : Exact}
    (h : ¬ time < number c.first.1) :
    c.exact.eval time = valueFrom time (exactPoint c.first) (c.rest.map exactPoint) := by
  rw [eval]
  split
  case isFalse => rfl
  case isTrue hle =>
    -- not before the first point and not after it: at the point
    obtain ⟨t, rfl, hlow, hhigh⟩ := exists_number h hle
    obtain rfl : t = c.first.1 := le_antisymm hhigh hlow
    exact (valueFrom_of_mem hincreasing List.mem_cons_self).symm

/-- No point is before the first one. -/
theorem first_le_of_mem {c : Curve ℚ} (h : IsIncreasing c.points) {point : ℚ × ℚ}
    (hpoint : point ∈ c.points) : c.first.1 ≤ point.1 := by
  rcases List.mem_cons.1 hpoint with rfl | hlater
  · exact le_rfl
  · exact ((List.pairwise_cons.1 h).1 point hlater).le

/-- And none is after the last one. -/
theorem le_last {c : Curve ℚ} (h : IsIncreasing c.points) {last point : ℚ × ℚ}
    (hlast : last ∈ c.points.getLast?) (hpoint : point ∈ c.points) : point.1 ≤ last.1 := by
  obtain ⟨before, hpoints⟩ := List.getLast?_eq_some_iff.1 hlast
  rw [hpoints] at h hpoint
  rcases List.mem_append.1 hpoint with hbefore | hsame
  · exact ((List.pairwise_append.1 h).2.2 point hbefore last (List.mem_singleton_self _)).le
  · rw [List.mem_singleton.1 hsame]

theorem eval_of_first_le {c : Curve ℚ} (h : IsIncreasing c.points) {t : ℚ}
    (ht : c.first.1 ≤ t) :
    c.exact.eval (number t) = valueFrom (number t) (exactPoint c.first) (c.rest.map exactPoint) :=
  eval_of_not_lt h ((number_lt t c.first.1).not.2 ht.not_gt)

/-- The curve goes through its points. -/
theorem eval_of_mem {c : Curve ℚ} (h : IsIncreasing c.points) {point : ℚ × ℚ}
    (hpoint : point ∈ c.points) : c.exact.eval (number point.1) = number point.2 := by
  rw [eval_of_first_le h (first_le_of_mem h hpoint)]
  exact valueFrom_of_mem h hpoint

/-- A curve through points in the order of time is their piecewise linear interpolant. -/
theorem interpolates {c : Curve ℚ} (h : IsIncreasing c.points) : c.Interpolates where
  increasing := h
  hits _ hpoint := eval_of_mem h hpoint
  line before a b after hpoints t ha hb := by
    have hmem : a ∈ c.points ∧ b ∈ c.points := by
      rw [hpoints]
      simp
    -- at the later point itself the curve is already on the next line
    rcases hb.lt_or_eq with hlt | rfl
    · rw [eval_of_first_le h ((first_le_of_mem h hmem.1).trans ha)]
      exact valueFrom_between h hpoints ha hlt
    · have hab : a.1 < b.1 := by
        have hsplit : IsIncreasing (before ++ a :: b :: after) := hpoints ▸ h
        exact (List.pairwise_cons.1 (List.pairwise_append.1 hsplit).2.1).1 b List.mem_cons_self
      rw [eval_of_mem h hmem.2, div_self (sub_pos.2 hab).ne', mul_one, add_sub_cancel]
  first t ht := eval_of_le ((number_le _ _).2 ht)
  last last hlast t ht := by
    have hle : ∀ point ∈ c.points, point.1 ≤ last.1 := fun _ hpoint ↦ le_last h hlast hpoint
    rw [eval_of_first_le h ((hle c.first List.mem_cons_self).trans ht)]
    refine valueFrom_last hlast fun point hpoint ↦ ?_
    rw [number_lt, not_lt]
    exact (hle point (List.mem_cons_of_mem _ hpoint)).trans ht
  bounded time := by
    by_cases htime : time ≤ number c.first.1
    · exact ⟨c.first.2, eval_of_le htime, c.first, List.mem_cons_self, c.first,
        List.mem_cons_self, le_rfl, le_rfl⟩
    · have hlt := not_lt_of_not_le htime
      rw [eval_of_not_lt h hlt]
      exact exists_valueFrom h hlt

/-! ### The lowered law -/

section Lowering

variable {assign : String → Exact} {symbol : String} {offset : ℚ}

theorem offsetEpsilon_eq : (offsetEpsilon : Exact) = number (1 / 10 ^ 9) := by
  rw [offsetEpsilon, ofScientific_eq]
  norm_num

theorem valueEpsilon_eq : (valueEpsilon : Exact) = number (1 / 10 ^ 9) := by
  rw [valueEpsilon, ofScientific_eq]
  norm_num

theorem sub_zero_eq (x : Exact) : x - number 0 = x := by
  rcases x with - | - | q
  · rfl
  · rfl
  · rw [number_sub, sub_zero]

/-- The lowered time is the time of the curve, unless the offset is too small to be written. -/
theorem value_shifted (h : offset = 0 ∨ 1 / 10 ^ 9 ≤ |offset|) :
    (shifted symbol (number offset)).value assign = assign symbol - number offset := by
  have hsmall : Scalar.abs (number offset) < offsetEpsilon ↔ |offset| < 1 / 10 ^ 9 := by
    rw [offsetEpsilon_eq]
    exact number_lt |offset| _
  rw [shifted]
  rcases h with rfl | h
  · rw [if_pos (hsmall.2 (by norm_num)), sub_zero_eq]
    rfl
  · rw [if_neg (hsmall.not.2 h.not_gt)]
    rfl

/-- A shifted time stands in brackets. -/
theorem isBracketed_shifted (symbol : String) (offset : Exact) :
    (shifted symbol offset).IsBracketed := by
  rw [shifted]
  split
  · trivial
  · exact ⟨trivial, trivial, nofun⟩

/-- And it can be read, if its symbol is a name. -/
theorem isLegible_shifted (h : isName symbol = true) (offset : ℚ) :
    (shifted symbol (number offset)).IsLegible := by
  rw [shifted]
  split
  · exact h
  · exact ⟨h, rfl⟩

section Segments

variable {time : Expression Exact} {start : ℚ × ℚ} {rest : List (ℚ × ℚ)}

/-- The nest of conditions has its brackets where they are needed. -/
theorem isBracketed_expressionFrom (h : time.IsBracketed) (start : Exact × Exact)
    (rest : List (Exact × Exact)) :
    (expressionFrom time start rest).IsBracketed := by
  induction rest generalizing start with
  | nil => trivial
  | cons stop rest ih =>
    have hdifference : (Expression.difference time (.number start.1)).IsBracketed :=
      ⟨h, trivial, nofun⟩
    exact ⟨h, trivial, ⟨trivial, ⟨⟨trivial, nofun⟩, hdifference, rfl⟩, nofun⟩, ih stop⟩

/-- All its literals are finite, since no two points have one time. -/
theorem isLegible_expressionFrom (h : time.IsLegible) (hincreasing : IsIncreasing (start :: rest)) :
    (expressionFrom time (exactPoint start) (rest.map exactPoint)).IsLegible := by
  induction rest generalizing start with
  | nil => exact rfl
  | cons stop rest ih =>
    obtain ⟨hstart, hrest⟩ := List.pairwise_cons.1 hincreasing
    have hslope : Scalar.isFinite ((number (stop.2 - start.2) : Exact) /
        number (stop.1 - start.1)) = true := by
      rw [number_div _ _ (sub_pos.2 (hstart stop List.mem_cons_self)).ne']
      rfl
    exact ⟨h, rfl, ⟨rfl, hslope, h, rfl⟩, ih hrest⟩

/-- From a point on, the lowered law is that of the curve. -/
theorem value_expressionFrom (hincreasing : IsIncreasing (start :: rest))
    (h : ¬ time.value assign < number start.1) :
    (expressionFrom time (exactPoint start) (rest.map exactPoint)).value assign =
      valueFrom (time.value assign) (exactPoint start) (rest.map exactPoint) := by
  induction rest generalizing start with
  | nil => rfl
  | cons stop rest ih =>
    obtain ⟨hstart, hrest⟩ := List.pairwise_cons.1 hincreasing
    have hgap : stop.1 - start.1 ≠ 0 := (sub_pos.2 (hstart stop List.mem_cons_self)).ne'
    -- either the time is before the next point, or both go on behind it
    by_cases hstop : time.value assign < number stop.1
    · obtain ⟨t, ht, -, -⟩ := exists_number h (Scalar.le_of_lt hstop)
      rw [ht, number_lt] at hstop
      have hvalue : (expressionFrom time (exactPoint start)
          ((stop :: rest).map exactPoint)).value assign = number start.2 +
            number (stop.2 - start.2) / number (stop.1 - start.1) * number (t - start.1) := by
        show (if time.value assign < number stop.1 then _ + _ * (time.value assign - _) else _) = _
        rw [ht]
        exact if_pos ((number_lt t stop.1).2 hstop)
      rw [ht, valueFrom_of_lt (hstart stop List.mem_cons_self) hstop, hvalue,
        number_div _ _ hgap, number_mul, number_add, onLine]
      congr 1
      ring
    · rw [valueFrom_of_not_lt hstop, ← ih hrest hstop]
      exact if_neg hstop

end Segments

/-- Before the first point and from it on, the lowered law is that of the curve. -/
theorem value_ifLess {c : Curve ℚ} {time : Expression Exact} (h : IsIncreasing c.points) :
    (Expression.ifLess time (.number (number c.first.1)) (.number (number c.first.2))
      (expressionFrom time (exactPoint c.first) (c.rest.map exactPoint))).value assign =
        c.exact.eval (time.value assign) := by
  by_cases htime : time.value assign < number c.first.1
  · rw [eval_of_le (Scalar.le_of_lt htime)]
    exact if_pos htime
  · rw [eval_of_not_lt h htime, ← value_expressionFrom h htime]
    exact if_neg htime

/-- A curve that counts as flat is written as the value of its first point. -/
theorem expression_of_flat {c : Curve ℚ} (hflat : c.exact.isFlat = true) (symbol : String)
    (offset : Exact) : c.exact.expression symbol offset = .number (number c.first.2) :=
  if_pos hflat

/-- Any other curve is written with a condition for the time before its first point. -/
theorem expression_of_not_flat {c : Curve ℚ} (hflat : c.exact.isFlat = false) (symbol : String)
    (offset : Exact) :
    c.exact.expression symbol offset =
      .ifLess (shifted symbol offset) (.number (number c.first.1)) (.number (number c.first.2))
        (expressionFrom (shifted symbol offset) (exactPoint c.first) (c.rest.map exactPoint)) :=
  if_neg (Bool.eq_false_iff.1 hflat)

/-- In both cases the brackets are where they are needed. -/
theorem isBracketed_expression (c : Curve ℚ) (symbol : String) (offset : Exact) :
    (c.exact.expression symbol offset).IsBracketed := by
  have htime := isBracketed_shifted symbol offset
  rcases hflat : c.exact.isFlat
  · rw [expression_of_not_flat hflat]
    exact ⟨htime, trivial, trivial, isBracketed_expressionFrom htime _ _⟩
  · rw [expression_of_flat hflat]
    trivial

/-- And the expression can be read, if its symbol is a name. -/
theorem isLegible_expression {c : Curve ℚ} (h : IsIncreasing c.points)
    (hsymbol : isName symbol = true) (offset : ℚ) :
    (c.exact.expression symbol (number offset)).IsLegible := by
  have htime := isLegible_shifted hsymbol offset
  rcases hflat : c.exact.isFlat
  · rw [expression_of_not_flat hflat]
    exact ⟨htime, rfl, rfl, isLegible_expressionFrom htime h⟩
  · rw [expression_of_flat hflat]
    rfl

/-- The values of a curve that counts as flat are near that of its first point. -/
theorem abs_sub_lt_of_flat {c : Curve ℚ} (hflat : c.exact.isFlat = true) {point : ℚ × ℚ}
    (h : point ∈ c.points) : |point.2 - c.first.2| < 1 / 10 ^ 9 := by
  have hclose := of_decide_eq_true (List.all_eq_true.1 hflat _ (mem_points_exact.2 h))
  rw [valueEpsilon_eq] at hclose
  exact (number_lt |point.2 - c.first.2| _).1 hclose

end Lowering

/-- The expression of a curve says what the curve says. -/
structure IsLowered (c : Curve Exact) (symbol : String) (offset : ℚ) : Prop where
  /-- Its text splits into its tokens, each number in its place. -/
  text : isName symbol = true →
    tokens? (c.expression symbol (number offset)).text =
      some ((c.expression symbol (number offset)).tokens.map (Token.map Scalar.numeral))
  /-- It calculates to the value of the curve, unless the offset is too small to be written. -/
  value : c.isFlat = false → offset = 0 ∨ 1 / 10 ^ 9 ≤ |offset| → ∀ assign : String → Exact,
    evaluate? assign (c.expression symbol (number offset)).tokens =
      some (c.eval (assign symbol - number offset))
  /-- A curve that counts as flat is written as one number, which is nearly its value. -/
  flat : c.isFlat = true → ∀ assign : String → Exact, ∃ v w : ℚ,
    evaluate? assign (c.expression symbol (number offset)).tokens = some (number v) ∧
      c.eval (assign symbol - number offset) = number w ∧ |v - w| < 1 / 10 ^ 9

/-- A curve goes through rational points, follows their law, and is lowered to the same law. -/
def ObeysLaw (c : Curve Exact) : Prop :=
  ∃ rational : Curve ℚ, c = rational.exact ∧ rational.Interpolates ∧
    ∀ symbol offset, c.IsLowered symbol offset

/-- The expression of a curve through points in the order of time says what the curve says. -/
theorem isLowered {c : Curve ℚ} (h : IsIncreasing c.points) (symbol : String) (offset : ℚ) :
    c.exact.IsLowered symbol offset where
  text hsymbol := Expression.tokens?_text (isLegible_expression h hsymbol offset)
  value hflat hoffset assign := by
    rw [Expression.evaluate?_tokens assign (isBracketed_expression c symbol _),
      expression_of_not_flat hflat, value_ifLess h, value_shifted hoffset]
  flat hflat assign := by
    obtain ⟨w, hw, low, hlow, high, hhigh, hle, hge⟩ :=
      (interpolates h).bounded (assign symbol - number offset)
    refine ⟨c.first.2, w, ?_, hw, ?_⟩
    · rw [Expression.evaluate?_tokens assign (isBracketed_expression c symbol _),
        expression_of_flat hflat]
      rfl
    · have hlow' := abs_lt.1 (abs_sub_lt_of_flat hflat hlow)
      have hhigh' := abs_lt.1 (abs_sub_lt_of_flat hflat hhigh)
      exact abs_lt.2 ⟨by linarith, by linarith⟩

/-- Whatever the samples are, their curve is the piecewise linear interpolant of its points, and a
filter that reads the expression of the curve computes the same law. -/
theorem obeysLaw_ofSamples (samples : List (Exact × Exact)) (fallback : ℚ) :
    (ofSamples samples (number fallback)).ObeysLaw := by
  obtain ⟨c, hc, hincreasing⟩ := exists_exact_ofSamples samples fallback
  refine ⟨c, hc, interpolates hincreasing, fun symbol offset ↦ ?_⟩
  rw [hc]
  exact isLowered hincreasing symbol offset

example : ((⟨(0, 0), [(2, 100)]⟩ : Curve ℚ).exact.expression "t" (number (3 / 2))).text =
    "if(lt((t-1.5),0),0,if(lt((t-1.5),2),0+(50)*((t-1.5)-0),100))" := by
  decide +kernel

end Curve

end Splice
