import Splice.Proofs.Samples
import Splice.Proofs.Timeline.KeptSamples
import Splice.Proofs.Timeline.Ranges

/-!
# Keyframes on the timeline

The curves of a placement run with the time since the start of their clip, and the filter that draws
them with the time on the timeline. A keyframe gives either of the two. So the time of an absolute
one is shifted twice, by `Keyframe.relativeTime` and back by the offset of the expression, that of a
relative one only by the offset, and both end at `Keyframe.timelineTime`
(`Keyframe.timelineTime_eq`).

* A keyframe that no other one replaces (`Quantity.Prevails`) is a sample that survives, and so a
  point of its curve (`Quantity.Prevails.survives`).
* At the time of a point the expression of a curve is worth its value, exactly unless the curve
  counts as flat and is written as one number (`Curve.showsAt_of_mem`).

The three curves of a placement differ only in what is taken from a keyframe, so the statements are
about any `Quantity`, and `Quantity.exists_pick` is the only lemma that looks at the code of each.
-/

namespace Splice

open Exact (number isFinite_iff number_add number_sub)
open Formula

/-! ### Times -/

namespace Keyframe

/-- The time of a keyframe on the timeline. -/
def timelineTime {α : Type} [Scalar α] (k : Keyframe α) (clipStart : α) : α :=
  if k.absolute then k.time else clipStart + k.time

variable (k : Keyframe Exact) (start : ℚ)

/-- The time since the start of the clip and the time on the timeline are the same time. -/
theorem timelineTime_eq :
    k.timelineTime (number start) = number start + k.relativeTime (number start) := by
  rw [timelineTime, relativeTime]
  split_ifs
  · rcases k.time with - | - | q
    case number => rw [number_sub, number_add, add_sub_cancel]
    all_goals rfl
  · rfl

/-- A relative keyframe has the time of the absolute one at its place on the timeline. -/
theorem relativeTime_absolute (h : k.absolute = false) :
    { k with time := number start + k.time, absolute := true }.relativeTime (number start) =
      k.relativeTime (number start) := by
  rw [relativeTime, relativeTime, if_pos rfl, h, if_neg Bool.false_ne_true]
  rcases k.time with - | - | q
  case number => rw [number_add, number_sub, add_sub_cancel_left]
  all_goals rfl

end Keyframe

/-! ### Quantities -/

/-- What keyframes animate. -/
inductive Quantity where
  | x
  | y
  | opacity

namespace Quantity

/-- The value that a keyframe gives to a quantity. -/
def given? {α : Type} (k : Keyframe α) : Quantity → Option α
  | x => k.position?.bind (·.x?)
  | y => k.position?.bind (·.y?)
  | opacity => k.opacity?

/-- What a value stands for on a canvas: a position is given in percent, and an opacity outside of
its bounds is at the nearer one. -/
def onCanvas (width height : ℕ) (value : ℚ) : Quantity → ℚ
  | x => width * value / 100
  | y => height * value / 100
  | opacity => max 0 (min value 1)

/-- The curve of a quantity. -/
def curve {α : Type} (placement : Placement α) : Quantity → Curve α
  | x => placement.x
  | y => placement.y
  | opacity => placement.opacity

/-- A keyframe that stands between others in a list is not replaced: of those that give the same
quantity none comes within a step after it, and none that stands later in the list has its time. -/
structure Prevails (quantity : Quantity) (start : ℚ) (before : List (Keyframe Exact))
    (k : Keyframe Exact) (after : List (Keyframe Exact)) : Prop where
  latest : ∀ other ∈ after, (quantity.given? other).isSome = true →
    other.timelineTime (number start) ≠ k.timelineTime (number start)
  alone : ∀ other ∈ before ++ after, (quantity.given? other).isSome = true →
    ¬ (k.timelineTime (number start) < other.timelineTime (number start) ∧
      other.timelineTime (number start) < k.timelineTime (number start) + number (1 / 10000))

theorem hundred_eq : (100.0 : Exact) = number 100 := by
  rw [Exact.ofScientific_eq]
  norm_num

/-- A position in percent is a share of the side of the canvas. -/
theorem percent_eq (whole : ℕ) (q : ℚ) :
    (Scalar.ofNat whole * number q / 100.0 : Exact) = number (whole * q / 100) := by
  have hwhole : (Scalar.ofNat whole : Exact) = number whole := by
    show number ((whole : ℤ) : ℚ) = _
    rw [Int.cast_natCast]
  rw [hwhole, hundred_eq, Exact.number_mul, Exact.number_div _ _ (by norm_num)]

/-- An opacity outside of its bounds is moved to the nearer one. -/
theorem clamp_unit_eq (q : ℚ) :
    Scalar.clamp 0.0 1.0 (number q) = number (max 0 (min q 1)) := by
  rw [zero_eq, one_eq, Exact.clamp_number]
  congr 1
  split_ifs with hlow hhigh
  · rw [max_eq_left ((min_le_left q 1).trans hlow.le)]
  · rw [min_eq_right hhigh.le, max_eq_right zero_le_one]
  · rw [min_eq_left (not_lt.1 hhigh), max_eq_right (not_lt.1 hlow)]

/-- The curve of a quantity is drawn through the values that keyframes give to it. -/
theorem exists_pick (quantity : Quantity) (look : Look Exact) (clipStart : Exact)
    (width height : ℕ) : ∃ (fallback : ℚ) (pick : Keyframe Exact → Option Exact),
      quantity.curve (look.place clipStart width height) =
        Curve.ofKeyframes look.keyframes clipStart (number fallback) pick ∧
      (∀ k q, quantity.given? k = some (number q) →
        pick k = some (number (quantity.onCanvas width height q))) ∧
      ∀ k, (pick k).isSome = true → (quantity.given? k).isSome = true := by
  -- coordinates are scaled to the canvas; an opacity is filtered and held within its bounds
  cases quantity with
  | x =>
    refine ⟨_, _, rfl, fun k q h ↦ ?_, fun k h ↦ ?_⟩
    · exact (congrArg (Option.map _) h).trans (congrArg some (percent_eq width q))
    · exact Option.isSome_map.symm.trans h
  | y =>
    refine ⟨_, _, rfl, fun k q h ↦ ?_, fun k h ↦ ?_⟩
    · exact (congrArg (Option.map _) h).trans (congrArg some (percent_eq height q))
    · exact Option.isSome_map.symm.trans h
  | opacity =>
    obtain ⟨level, -, hlevel⟩ := look.effects.isIn_opacity
    refine ⟨level, fun k ↦ (k.opacity?.filter Scalar.isFinite).map (Scalar.clamp 0.0 1.0), ?_,
      fun k q h ↦ ?_, fun k h ↦ ?_⟩
    · rw [← hlevel]
      rfl
    · have hopacity : k.opacity? = some (number q) := h
      show (k.opacity?.filter Scalar.isFinite).map _ = _
      rw [hopacity, onCanvas, ← clamp_unit_eq]
      rfl
    · rw [Option.isSome_map, Option.isSome_iff_exists] at h
      obtain ⟨value, hvalue⟩ := h
      exact Option.isSome_of_mem (Option.filter_eq_some_iff.1 hvalue).1

/-- The curves of a placement have exact points, in the order of time. -/
theorem exists_exact_place (quantity : Quantity) (look : Look Exact) (clipStart : Exact)
    (width height : ℕ) : ∃ c : Curve ℚ,
      quantity.curve (look.place clipStart width height) = c.exact ∧
        Curve.IsIncreasing c.points := by
  obtain ⟨fallback, pick, hcurve, -⟩ := quantity.exists_pick look clipStart width height
  rw [hcurve, Curve.ofKeyframes]
  exact Curve.exists_exact_ofSamples _ fallback

end Quantity

/-! ### Points -/

section Samples

variable {quantity : Quantity} {start : ℚ} {before after keyframes : List (Keyframe Exact)}
  {k : Keyframe Exact} {pick : Keyframe Exact → Option Exact}

/-- The samples that keyframes give, with the times since the start of the clip. -/
def Keyframe.samples (keyframes : List (Keyframe Exact)) (clipStart : Exact)
    (pick : Keyframe Exact → Option Exact) : List (Exact × Exact) :=
  keyframes.filterMap fun k ↦ (pick k).map fun value ↦ (k.relativeTime clipStart, value)

/-- Every sample has a keyframe that gives it. -/
theorem Keyframe.exists_of_mem_samples {clipStart : Exact} {sample : Exact × Exact}
    (h : sample ∈ samples keyframes clipStart pick) :
    ∃ k ∈ keyframes, (pick k).isSome = true ∧ k.relativeTime clipStart = sample.1 := by
  obtain ⟨k, hk, hmap⟩ := List.mem_filterMap.1 h
  obtain ⟨value, hpick, rfl⟩ := Option.map_eq_some_iff.1 hmap
  exact ⟨k, hk, Option.isSome_of_mem hpick, rfl⟩

section Prevailing

variable {t v : ℚ} (h : quantity.Prevails start before k after) (hvalue : pick k = some (number v))
  (htime : k.relativeTime (number start) = number t)
  (hgiven : ∀ other, (pick other).isSome = true → (quantity.given? other).isSome = true)

include h hvalue htime hgiven

/-- Of the samples of its time that of a keyframe which is not replaced is the last one. -/
theorem Quantity.Prevails.getLast?_samples :
    ((Keyframe.samples (before ++ k :: after) (number start) pick).filter fun sample ↦
      Scalar.isFinite sample.1 && Scalar.isFinite sample.2 &&
        decide (sample.1 = number t)).getLast? = some (number t, number v) := by
  have hsamples : Keyframe.samples (before ++ k :: after) (number start) pick =
      Keyframe.samples before (number start) pick ++
        (number t, number v) :: Keyframe.samples after (number start) pick := by
    rw [Keyframe.samples, List.filterMap_append, List.filterMap_cons, hvalue, htime]
    rfl
  have hnone : (Keyframe.samples after (number start) pick).filter (fun sample ↦
      Scalar.isFinite sample.1 && Scalar.isFinite sample.2 &&
        decide (sample.1 = number t)) = [] := by
    refine List.filter_eq_nil_iff.2 fun sample hsample hsame ↦ ?_
    obtain ⟨other, hother, hsome, htimes⟩ := Keyframe.exists_of_mem_samples hsample
    refine h.latest other hother (hgiven other hsome) ?_
    rw [other.timelineTime_eq, htimes, of_decide_eq_true (Bool.and_eq_true_iff.1 hsame).2,
      k.timelineTime_eq, htime]
  have hself : (Scalar.isFinite (number t) && Scalar.isFinite (number v) &&
      decide (number t = number t)) = true := by simp
  rw [hsamples, List.filter_append, List.filter_cons, if_pos hself, hnone, List.getLast?_append]
  rfl

/-- A keyframe that is not replaced gives a sample that survives. -/
theorem Quantity.Prevails.survives :
    Curve.Survives (Keyframe.samples (before ++ k :: after) (number start) pick)
      (number t, number v) := by
  refine ⟨⟨rfl, rfl⟩, h.getLast?_samples hvalue htime hgiven, ?_⟩
  rintro sample hsample hfinite - hnear
  obtain ⟨other, hother, hsome, htimes⟩ := Keyframe.exists_of_mem_samples hsample
  obtain ⟨r, hr⟩ := isFinite_iff.1 hfinite
  change number t < sample.1 ∧ sample.1 < number (t + 1 / 10000) at hnear
  rw [hr, Exact.number_lt, Exact.number_lt] at hnear
  rw [hr] at htimes
  -- the keyframe itself is in the list too, but not after itself
  have hne : other ≠ k := by
    rintro rfl
    obtain rfl : t = r := Exact.number.inj (htime.symm.trans htimes)
    exact hnear.1.false
  have hmem : other ∈ before ++ after := by
    rcases List.mem_append.1 hother with hbefore | hlater
    · exact List.mem_append_left _ hbefore
    · exact List.mem_append_right _ ((List.mem_cons.1 hlater).resolve_left hne)
  refine h.alone other hmem (hgiven other hsome) ?_
  rw [other.timelineTime_eq, k.timelineTime_eq, htimes, htime, number_add, number_add, number_add,
    Exact.number_lt, Exact.number_lt]
  constructor <;> linarith

end Prevailing

end Samples

/-! ### Values -/

namespace Curve

/-- At a time on the timeline a filter reads a value from the expression of a curve, exactly unless
the curve counts as flat. -/
def ShowsAt (c : Curve Exact) (start : ℚ) (time : Exact) (v : ℚ) : Prop :=
  ∀ assign : String → Exact, assign "t" = time → ∃ w,
    evaluate? assign (c.expression "t" (number start)).tokens = some (number w) ∧
      |w - v| < 1 / 10 ^ 9 ∧ (c.isFlat = false → w = v)

variable {c : Curve ℚ} {start : ℚ}

/-- At the time of a point the expression shows its value. -/
theorem showsAt_of_mem {t v : ℚ} (h : IsIncreasing c.points) (hpoint : (t, v) ∈ c.points)
    (hstart : start = 0 ∨ 1 / 10 ^ 9 ≤ |start|) :
    c.exact.ShowsAt start (number (start + t)) v := by
  intro assign hassign
  have heval : c.exact.eval (assign "t" - number start) = number v := by
    rw [hassign, number_sub, add_sub_cancel_left]
    exact (eval_of_mem h hpoint :)
  cases hflat : c.exact.isFlat with
  | false =>
    refine ⟨v, ?_, by norm_num, fun _ ↦ rfl⟩
    rw [(isLowered h "t" start).value hflat hstart assign, heval]
  | true =>
    obtain ⟨w, u, hw, hu, hclose⟩ := (isLowered h "t" start).flat hflat assign
    obtain rfl : u = v := Exact.number.inj (hu.symm.trans heval)
    exact ⟨w, hw, hclose, nofun⟩

/-- Two keyframes of one time and one value draw the same curve. -/
theorem ofKeyframes_congr {keyframe other : Keyframe Exact} {clipStart : Exact}
    {pick : Keyframe Exact → Option Exact}
    (htime : keyframe.relativeTime clipStart = other.relativeTime clipStart)
    (hpick : pick keyframe = pick other)
    (before after : List (Keyframe Exact)) (fallback : Exact) :
    ofKeyframes (before ++ keyframe :: after) clipStart fallback pick =
      ofKeyframes (before ++ other :: after) clipStart fallback pick := by
  rw [ofKeyframes, ofKeyframes, List.filterMap_append, List.filterMap_append,
    List.filterMap_cons, List.filterMap_cons, hpick, htime]

end Curve

/-! ### Placements -/

/-- What the placement of an overlay that starts at `start` makes of the keyframes. -/
structure Look.FollowsKeyframes (look : Look Exact) (start : ℚ) (width height : ℕ) : Prop where
  /-- The text of each expression splits into its tokens, each number in its place. -/
  text : ∀ quantity : Quantity,
    tokens? ((quantity.curve (look.place (number start) width height)).expression "t"
      (number start)).text =
    some (((quantity.curve (look.place (number start) width height)).expression "t"
      (number start)).tokens.map (Token.map Scalar.numeral))
  /-- At its time a keyframe that is not replaced shows its value. -/
  lands : ∀ (quantity : Quantity) before k after q, look.keyframes = before ++ k :: after →
    k.isFinite = true → quantity.given? k = some (number q) →
    quantity.Prevails start before k after →
    (quantity.curve (look.place (number start) width height)).ShowsAt start
      (k.timelineTime (number start)) (quantity.onCanvas width height q)
  /-- A relative keyframe can be given by its time on the timeline as well. -/
  relative : ∀ before k after, look.keyframes = before ++ k :: after → k.absolute = false →
    ({ look with keyframes :=
      before ++ { k with time := number start + k.time, absolute := true } :: after } :
        Look Exact).place (number start) width height =
      look.place (number start) width height
  opacity : ∀ time, ((look.place (number start) width height).opacity.eval time).IsIn (Set.Icc 0 1)
  shownOpacity : ∀ assign : String → Exact, ∃ x, evaluate? assign
    ((look.place (number start) width height).opacity.expression "t" (number start)).tokens =
      some x ∧ x.IsIn (Set.Icc 0 1)

namespace Look

/-- The keyframes of an overlay land at their times on the timeline, whichever way these are given,
if the overlay does not start at a time that is too small to be written. -/
theorem followsKeyframes_place (look : Look Exact) {start : ℚ}
    (hstart : start = 0 ∨ 1 / 10 ^ 9 ≤ start) (width height : ℕ) :
    look.FollowsKeyframes start width height where
  text quantity := by
    obtain ⟨c, hc, hincreasing⟩ :=
      quantity.exists_exact_place look (number start) width height
    rw [hc]
    exact (Curve.isLowered hincreasing "t" start).text rfl
  lands quantity before k after q hsplit hfinite hgiven hprevails := by
    obtain ⟨r, hr⟩ : ∃ r, k.time = number r :=
      isFinite_iff.1 (Bool.and_eq_true_iff.1 (Bool.and_eq_true_iff.1 hfinite).1).1
    obtain ⟨t, ht⟩ : ∃ t, k.relativeTime (number start) = number t := by
      rw [Keyframe.relativeTime, hr]
      split_ifs
      · exact ⟨_, rfl⟩
      · exact ⟨_, rfl⟩
    obtain ⟨fallback, pick, hcurve, hpick, hsome⟩ :=
      quantity.exists_pick look (number start) width height
    obtain ⟨c, hc, hincreasing⟩ :=
      quantity.exists_exact_place look (number start) width height
    -- a keyframe that prevails is a sample that survives, and so a point of the curve
    have hsurvives := hprevails.survives (hpick k q hgiven) ht hsome
    have hmem : Curve.exactPoint (t, quantity.onCanvas width height q) ∈ c.exact.points := by
      rw [← hc, hcurve, hsplit]
      exact Curve.mem_points_of_survives hsurvives (number fallback)
    rw [hc, k.timelineTime_eq, ht, number_add]
    exact Curve.showsAt_of_mem hincreasing (Curve.mem_points_exact.1 hmem)
      (hstart.imp_right fun hle ↦ hle.trans (le_abs_self start))
  relative before k after hsplit hrelative := by
    have htime := k.relativeTime_absolute start hrelative
    rw [place, place, hsplit]
    congr 1 <;> exact Curve.ofKeyframes_congr htime (by rfl) before after _
  opacity time := by
    obtain ⟨c, hc, hincreasing⟩ :=
      Quantity.opacity.exists_exact_place look (number start) width height
    have hwithin := look.isWithin_place_opacity (number start) width height
    change (look.place (number start) width height).opacity = c.exact at hc
    rw [hc] at hwithin ⊢
    exact Curve.isIn_eval hincreasing hwithin time
  shownOpacity assign := by
    obtain ⟨c, hc, hincreasing⟩ :=
      Quantity.opacity.exists_exact_place look (number start) width height
    have hwithin := look.isWithin_place_opacity (number start) width height
    change (look.place (number start) width height).opacity = c.exact at hc
    rw [hc] at hwithin ⊢
    exact Curve.isIn_evaluate? hincreasing hwithin
      (hstart.imp_right fun hle ↦ hle.trans (le_abs_self start)) assign

/-- An overlay from the tenth second on that moves right for two seconds, with its end given on the
timeline. -/
theorem followsKeyframes_moving : ((10 : ℚ) = 0 ∨ 1 / 10 ^ 9 ≤ (10 : ℚ)) ∧
    (place { Sample.look {} with keyframes :=
      [⟨number 0, false, some ⟨some (number 0), none⟩, none⟩,
        ⟨number 12, true, some ⟨some (number 50), none⟩, some (number 0)⟩] }
      (number 10) 640 360).x.ShowsAt 10 (number 12) 320 := by
  have hstart : (10 : ℚ) = 0 ∨ 1 / 10 ^ 9 ≤ (10 : ℚ) := .inr (by norm_num)
  have hshows := (followsKeyframes_place { Sample.look {} with keyframes :=
      [⟨number 0, false, some ⟨some (number 0), none⟩, none⟩,
        ⟨number 12, true, some ⟨some (number 50), none⟩, some (number 0)⟩] }
    hstart 640 360).lands .x [⟨number 0, false, some ⟨some (number 0), none⟩, none⟩] _ [] 50 rfl rfl
      rfl ⟨fun _ hother ↦ absurd hother List.not_mem_nil, by decide +kernel⟩
  have hpixels : Quantity.x.onCanvas 640 360 50 = 320 := by
    rw [Quantity.onCanvas]
    norm_num
  rw [hpixels] at hshows
  exact ⟨hstart, hshows⟩

end Look

end Splice
