import Splice.Proofs.Sorting
import Splice.Proofs.Timeline.CurveLaw

/-!
# The samples a curve keeps

Samples come in any order, at equal times, closer together than a curve can be drawn, and with
values that are not finite. Which of them become points of the curve is decided one after another
in order of time, where a sample is compared with the one that comes next (`Curve.thin`). What this
leaves can be said without the order (`Curve.Survives`): a sample stays if it is the last one of its
time and no other follows within a step.

* `StandsClear` is the same of a sorted list: all that comes after the sample is a step away. By
  induction on the list these are the members that `thin` leaves (`mem_thin_iff`).
* The last one of a time is meant in the order of the input. The sort is stable, so the samples of
  one time are the same list before and after it (`filter_mergeSort`).
-/

namespace Splice

open Exact
open Scalar (isFinite)

namespace Curve

/-- A sample that becomes a point of the curve. -/
structure Survives (samples : List (Exact × Exact)) (point : Exact × Exact) : Prop where
  finite : isFinite point.1 = true ∧ isFinite point.2 = true
  /-- Of the finite samples of its time it was given last. -/
  latest : (samples.filter fun sample ↦
    isFinite sample.1 && isFinite sample.2 && decide (sample.1 = point.1)).getLast? = some point
  /-- No finite sample comes within a step after it. -/
  alone : ∀ sample ∈ samples, isFinite sample.1 = true → isFinite sample.2 = true →
    ¬ (point.1 < sample.1 ∧ sample.1 < point.1 + number (1 / 10000))

/-- The points of a curve in terms of the samples it was given. -/
structure KeepsSamples (samples : List (Exact × Exact)) (fallback : Exact)
    (points : List (Exact × Exact)) : Prop where
  increasing : points.Pairwise fun a b ↦ a.1 < b.1
  /-- Points are a step apart, so there is a slope from one to the next. -/
  spaced : points.Pairwise fun a b ↦ number (1 / 10000) ≤ b.1 - a.1
  kept : (∃ sample ∈ samples, isFinite sample.1 = true ∧ isFinite sample.2 = true) →
    ∀ point, point ∈ points ↔ Survives samples point
  fallback : (¬ ∃ sample ∈ samples, isFinite sample.1 = true ∧ isFinite sample.2 = true) →
    points = [(number 0, fallback)]

/-! ### Thinning -/

/-- All that comes after a member of a list of samples is a step away. -/
def StandsClear (sorted : List (ℚ × ℚ)) (point : ℚ × ℚ) : Prop :=
  ∃ before after, sorted = before ++ point :: after ∧
    ∀ later ∈ after, point.1 + 1 / 10000 ≤ later.1

section Thinning

variable {sorted rest : List (ℚ × ℚ)} {sample point : ℚ × ℚ}

/-- Of a list with one more sample in front, that sample stands clear if the whole rest is a step
away; the others stand clear as before. -/
theorem standsClear_cons_iff :
    StandsClear (sample :: rest) point ↔
      (point = sample ∧ ∀ later ∈ rest, sample.1 + 1 / 10000 ≤ later.1) ∨
        StandsClear rest point := by
  constructor
  · rintro ⟨before, after, hsplit, hafter⟩
    rcases before with - | ⟨first, before⟩
    · obtain ⟨rfl, rfl⟩ := List.cons.inj hsplit
      exact .inl ⟨rfl, hafter⟩
    · exact .inr ⟨before, after, (List.cons.inj hsplit).2, hafter⟩
  · rintro (⟨rfl, hrest⟩ | ⟨before, after, rfl, hafter⟩)
    · exact ⟨[], rest, rfl, hrest⟩
    · exact ⟨sample :: before, after, rfl, hafter⟩

/-- Thinning leaves the samples that stand clear of what comes after them. -/
theorem mem_thin_iff (h : sorted.Pairwise fun a b ↦ a.1 ≤ b.1) :
    exactPoint point ∈ thin (sorted.map exactPoint) ↔ StandsClear sorted point := by
  induction sorted with
  | nil =>
    show exactPoint point ∈ [] ↔ _
    simp [StandsClear]
  | cons sample rest ih =>
    rcases rest with - | ⟨next, rest⟩
    · show exactPoint point ∈ [exactPoint sample] ↔ _
      rw [List.mem_singleton, exactPoint_injective.eq_iff, standsClear_cons_iff]
      simp [StandsClear]
    obtain ⟨hfirst, hrest⟩ := List.pairwise_cons.1 h
    have hnext : sample.1 ≤ next.1 := hfirst next List.mem_cons_self
    rw [thin_map_cons hnext, standsClear_cons_iff, ← ih hrest]
    -- whether the first sample stays is decided by the next one alone; the others are still later
    split_ifs with hclose
    · have hblocked : ¬ ∀ later ∈ next :: rest, sample.1 + 1 / 10000 ≤ later.1 := fun hclear ↦ by
        have := hclear next List.mem_cons_self
        linarith
      rw [or_iff_right fun hclear ↦ hblocked hclear.2]
    · have hclear : ∀ later ∈ next :: rest, sample.1 + 1 / 10000 ≤ later.1 := fun later hlater ↦ by
        rcases List.mem_cons.1 hlater with rfl | hlater
        · linarith
        · have := (List.pairwise_cons.1 hrest).1 later hlater
          linarith
      rw [List.mem_cons, exactPoint_injective.eq_iff, and_iff_left hclear]

/-- Of a chain of close samples only the last one is left, however far it is from the first. -/
example : thin [(number 0, number 5), (number (6 / 100000), number 6),
    (number (12 / 100000), number 7)] = [(number (12 / 100000), number 7)] := by
  decide +kernel

/-- What stands clear is the last of its time, and nothing follows it within a step. -/
theorem standsClear_iff (h : sorted.Pairwise fun a b ↦ a.1 ≤ b.1) :
    StandsClear sorted point ↔
      (sorted.filter fun sample ↦ decide (sample.1 = point.1)).getLast? = some point ∧
        ∀ sample ∈ sorted, ¬ (point.1 < sample.1 ∧ sample.1 < point.1 + 1 / 10000) := by
  constructor
  · rintro ⟨before, after, rfl, hafter⟩
    have hbefore := (List.pairwise_append.1 h).2.2
    have hnone : after.filter (fun sample ↦ decide (sample.1 = point.1)) = [] := by
      refine List.filter_eq_nil_iff.2 fun later hlater heq ↦ ?_
      have hle := hafter later hlater
      rw [of_decide_eq_true heq] at hle
      linarith
    constructor
    · rw [List.filter_append, List.filter_cons, if_pos (decide_eq_true rfl), hnone,
        List.getLast?_append]
      rfl
    · rintro sample hsample ⟨hlt, hclose⟩
      rcases List.mem_append.1 hsample with hmem | hmem
      · exact hlt.not_ge (hbefore sample hmem point List.mem_cons_self)
      · rcases List.mem_cons.1 hmem with rfl | hlater
        · exact hlt.false
        · exact hclose.not_ge (hafter sample hlater)
  -- the last one of its time splits the list: what is behind it is later, and so a step away
  · rintro ⟨hlast, halone⟩
    obtain ⟨init, hinit⟩ := List.getLast?_eq_some_iff.1 hlast
    obtain ⟨left, right, rfl, -, hright⟩ := List.filter_eq_append_iff.1 hinit
    obtain ⟨before, after, rfl, -, -, hnone⟩ := List.filter_eq_cons_iff.1 hright
    rw [← List.append_assoc] at h halone ⊢
    refine ⟨left ++ before, after, rfl, fun later hlater ↦ ?_⟩
    have hle : point.1 ≤ later.1 :=
      (List.pairwise_cons.1 (List.pairwise_append.1 h).2.1).1 later hlater
    have hne : later.1 ≠ point.1 := fun heq ↦
      List.filter_eq_nil_iff.1 hnone later hlater (decide_eq_true heq)
    have hmem : later ∈ left ++ before ++ point :: after :=
      List.mem_append_right _ (List.mem_cons_of_mem _ hlater)
    by_contra hclose
    exact halone later hmem ⟨lt_of_le_of_ne hle hne.symm, not_le.1 hclose⟩

end Thinning

/-! ### Sorting -/

section Sorting

variable {samples : List (Exact × Exact)} {sorted : List (ℚ × ℚ)} {point : ℚ × ℚ}

/-- The samples of one time have the order in which they were given. -/
theorem filter_sortByTime (samples : List (Exact × Exact)) (time : Exact) :
    (sortByTime samples).filter (fun sample ↦ decide (sample.1 = time)) =
      samples.filter fun sample ↦ decide (sample.1 = time) := by
  refine filter_mergeSort (fun a b c ↦ LawfulScalar.precedes_trans a.1 b.1 c.1)
    (fun a b ↦ LawfulScalar.precedes_total a.1 b.1) fun a _ b _ ha hb ↦ ?_
  rw [of_decide_eq_true ha, of_decide_eq_true hb]
  exact (Bool.or_self _).symm.trans (LawfulScalar.precedes_total time time)

/-- The last of the samples of one time is the same in order of time and as they were given. -/
theorem getLast?_sorted (h : sortByTime (finiteSamples samples) = sorted.map exactPoint) :
    (sorted.filter fun sample ↦ decide (sample.1 = point.1)).getLast? = some point ↔
      (samples.filter fun sample ↦ isFinite sample.1 && isFinite sample.2 &&
        decide (sample.1 = number point.1)).getLast? = some (exactPoint point) := by
  have htime : (fun sample : Exact × Exact ↦ decide (sample.1 = number point.1)) ∘ exactPoint =
      fun sample ↦ decide (sample.1 = point.1) :=
    funext fun sample ↦ decide_eq_decide.2 (iff_of_eq (number.injEq _ _))
  have hgiven : (sorted.filter fun sample ↦ decide (sample.1 = point.1)).map exactPoint =
      samples.filter fun sample ↦ isFinite sample.1 && isFinite sample.2 &&
        decide (sample.1 = number point.1) := by
    rw [← htime, ← List.filter_map, ← h, filter_sortByTime, finiteSamples, List.filter_filter]
    simp only [Bool.and_comm]
  rw [← hgiven, List.getLast?_map, Option.map_eq_some_iff]
  constructor
  · intro hlast
    exact ⟨point, hlast, rfl⟩
  · rintro ⟨last, hlast, heq⟩
    rwa [exactPoint_injective heq] at hlast

/-- The rationals of the sorted samples are those of the finite samples that were given. -/
theorem mem_sorted (h : sortByTime (finiteSamples samples) = sorted.map exactPoint)
    (point : ℚ × ℚ) : point ∈ sorted ↔ exactPoint point ∈ samples := by
  have hmem : exactPoint point ∈ sortByTime (finiteSamples samples) ↔ exactPoint point ∈ samples :=
    List.mem_mergeSort.trans (List.mem_filter.trans (and_iff_left rfl))
  rw [← hmem, h, List.mem_map_of_injective exactPoint_injective]

/-- The survivors are those that stand clear once the samples are sorted. -/
theorem survives_exactPoint (h : sortByTime (finiteSamples samples) = sorted.map exactPoint)
    (horder : sorted.Pairwise fun a b ↦ a.1 ≤ b.1) :
    Survives samples (exactPoint point) ↔ StandsClear sorted point := by
  have hclose (sample : ℚ × ℚ) : ((exactPoint point).1 < (exactPoint sample).1 ∧
      (exactPoint sample).1 < (exactPoint point).1 + number (1 / 10000)) ↔
        point.1 < sample.1 ∧ sample.1 < point.1 + 1 / 10000 :=
    and_congr (number_lt _ _) (number_lt _ _)
  rw [standsClear_iff horder, getLast?_sorted h]
  constructor
  · intro hpoint
    refine ⟨hpoint.latest, fun sample hsample hnear ↦ ?_⟩
    exact hpoint.alone _ ((mem_sorted h sample).1 hsample) rfl rfl ((hclose sample).2 hnear)
  · rintro ⟨hlast, halone⟩
    refine ⟨⟨rfl, rfl⟩, hlast, fun sample hsample htime hvalue ↦ ?_⟩
    obtain ⟨rational, rfl⟩ := exists_exactPoint htime hvalue
    rw [hclose]
    exact halone rational ((mem_sorted h rational).2 hsample)

end Sorting

/-! ### Points -/

section Points

variable {samples : List (Exact × Exact)} {fallback : Exact}

/-- Thinning drops a sample only for one that comes after it, so it never drops all. -/
theorem thin_eq_nil_iff {α : Type} [Scalar α] {samples : List (α × α)} :
    thin samples = [] ↔ samples = [] := by
  induction samples with
  | nil => exact Iff.rfl
  | cons sample rest ih =>
    rcases rest with - | ⟨next, rest⟩
    · exact Iff.rfl
    rw [thin]
    split_ifs
    · rw [ih]
      simp
    · simp

/-- No point is left exactly if no sample is finite. -/
theorem thin_sorted_eq_nil_iff :
    thin (sortByTime (finiteSamples samples)) = [] ↔
      ¬ ∃ sample ∈ samples, isFinite sample.1 = true ∧ isFinite sample.2 = true := by
  have hsorted : sortByTime (finiteSamples samples) = [] ↔ finiteSamples samples = [] := by
    rw [← List.length_eq_zero_iff, sortByTime, List.length_mergeSort, List.length_eq_zero_iff]
  rw [thin_eq_nil_iff, hsorted, finiteSamples, List.filter_eq_nil_iff]
  simp

/-- The points of a curve are what thinning leaves, if that is anything. -/
theorem points_ofSamples_of_ne_nil (h : thin (sortByTime (finiteSamples samples)) ≠ []) :
    (ofSamples samples fallback).points = thin (sortByTime (finiteSamples samples)) := by
  obtain ⟨first, rest, hthin⟩ := List.exists_cons_of_ne_nil h
  rw [ofSamples, hthin]
  rfl

/-- A curve without a finite sample holds the fallback from the start. -/
theorem points_ofSamples_of_nil (h : thin (sortByTime (finiteSamples samples)) = []) :
    (ofSamples samples fallback).points = [(number 0, fallback)] := by
  rw [ofSamples, h, ← zero_eq]
  rfl

/-- A sample that survives is a point of the curve. -/
theorem mem_points_of_survives {point : Exact × Exact} (h : Survives samples point)
    (fallback : Exact) : point ∈ (ofSamples samples fallback).points := by
  obtain ⟨sorted, hsorted, horder⟩ := exists_sorted samples
  obtain ⟨rational, rfl⟩ := exists_exactPoint h.finite.1 h.finite.2
  have hmem : exactPoint rational ∈ thin (sortByTime (finiteSamples samples)) := by
    rw [hsorted, mem_thin_iff horder, ← survives_exactPoint hsorted horder]
    exact h
  rw [points_ofSamples_of_ne_nil (List.ne_nil_of_mem hmem)]
  exact hmem

/-- Whatever the samples are, the curve goes through those that survive, in order of time and a step
apart, or holds the fallback if none of them is finite. -/
theorem keepsSamples_ofSamples (samples : List (Exact × Exact)) (fallback : Exact) :
    KeepsSamples samples fallback (ofSamples samples fallback).points := by
  by_cases hfinite : ∃ sample ∈ samples, isFinite sample.1 = true ∧ isFinite sample.2 = true
  · obtain ⟨sorted, hsorted, horder⟩ := exists_sorted samples
    obtain ⟨points, hthin, -, hspaced⟩ := exists_thin horder
    have hne : thin (sortByTime (finiteSamples samples)) ≠ [] := fun h ↦
      thin_sorted_eq_nil_iff.1 h hfinite
    rw [points_ofSamples_of_ne_nil hne, hsorted]
    refine ⟨?_, ?_, fun _ point ↦ ?_, fun h ↦ absurd hfinite h⟩
    · rw [hthin, List.pairwise_map]
      exact hspaced.isIncreasing.imp fun {a b} hlt ↦ (number_lt a.1 b.1).2 hlt
    · rw [hthin, List.pairwise_map]
      refine hspaced.imp fun {a b} hstep ↦ ?_
      show number (1 / 10000) ≤ number (b.1 - a.1)
      rw [number_le]
      linarith
    -- what is not finite is no point, and survives nowhere
    · by_cases hpoint : isFinite point.1 = true ∧ isFinite point.2 = true
      · obtain ⟨rational, rfl⟩ := exists_exactPoint hpoint.1 hpoint.2
        rw [mem_thin_iff horder, survives_exactPoint hsorted horder]
      · refine iff_of_false (fun hmem ↦ hpoint ?_) fun hsurvives ↦ hpoint hsurvives.finite
        rw [hthin] at hmem
        obtain ⟨rational, -, rfl⟩ := List.mem_map.1 hmem
        exact ⟨rfl, rfl⟩
  · rw [points_ofSamples_of_nil (thin_sorted_eq_nil_iff.2 hfinite)]
    exact ⟨List.pairwise_singleton _ _, List.pairwise_singleton _ _,
      fun h ↦ absurd h hfinite, fun _ ↦ rfl⟩

end Points

end Curve

end Splice
