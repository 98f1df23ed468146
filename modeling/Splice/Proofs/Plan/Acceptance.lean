import Splice.Proofs.Number.Rounding
import Splice.Proofs.Plan.Seams
import Splice.Proofs.Samples
import Splice.Proofs.Text.Trim
import Splice.Proofs.Timeline.Durations

/-!
# Acceptance of transitions

The rules by which the transition between two neighbours is accepted, stated without the decision
that follows them: the clips meet (`Meets`), the author meant no other clip (`IsMeantFor`), and a
known style and a positive length are asked for (`IsUsable`). The first rule that fails is the
reason (`reason_decide`). `FollowsRules` adds what a decision says beyond its reason, most of all
the lengths, which a refused transition has too if it is usable.

That a length is positive rests on the clips: a valid clip lasts (`Clip.zero_lt_effectiveDuration`),
and the least of positive numbers is one of them (`IsShortest`).

The target is compared without the blanks at its ends, the id of the next clip with them. So an
author who names the next clip is understood unless its id has a blank at an end
(`isMeantFor_iff_of_named`).
-/

namespace Splice

open Scalar (isNaN)

variable {α : Type} [Scalar α]

/-! ### The shortest of some lengths -/

/-- A member of a list that no other one is below. -/
def IsShortest (x : α) (lengths : List α) : Prop := x ∈ lengths ∧ ∀ y ∈ lengths, x ≤ y

section Shortest

variable [LawfulScalar α] {x y : α} {lengths : List α}

theorem isShortest_singleton (h : isNaN x = false) : IsShortest x [x] :=
  ⟨List.mem_singleton_self x, List.forall_mem_singleton.2 (Scalar.le_refl h)⟩

/-- The lesser of a length and the shortest of the others is the shortest of all. -/
theorem IsShortest.min_cons (h : IsShortest y lengths) (hx : isNaN x = false)
    (hy : isNaN y = false) : IsShortest (Scalar.min x y) (x :: lengths) := by
  obtain ⟨hmem, hle⟩ := h
  obtain ⟨hmin, hxy⟩ | ⟨hmin, hyx⟩ := Scalar.min_cases hx hy
  · rw [hmin]
    exact ⟨List.mem_cons_self, List.forall_mem_cons.2
      ⟨Scalar.le_refl hx, fun z hz ↦ Scalar.le_trans hxy (hle z hz)⟩⟩
  · rw [hmin]
    exact ⟨List.mem_cons_of_mem _ hmem, List.forall_mem_cons.2 ⟨hyx, hle⟩⟩

end Shortest

/-! ### Valid clips last -/

theorem zero_lt_of_isPositive [LawfulScalar α] {x : α} (h : isPositive x = true) : 0.0 < x := by
  obtain ⟨hfinite, hpos⟩ := Bool.and_eq_true_iff.1 h
  have hzero : isNaN (0.0 : α) = false := by
    rw [Scalar.isNaN, LawfulScalar.denote_zero]
    rfl
  exact Scalar.lt_of_not_le (Scalar.isNaN_of_isFinite hfinite) hzero (by simpa using hpos)

/-- No segment is shorter than the shortest one, whatever is computed for it. -/
theorem MediaClip.zero_lt_outputDuration [RoundingScalar α] (media : MediaClip α) (duration : α) :
    0.0 < (media.excerpt duration).outputDuration := by
  have hleast : (0.0 : α) < leastSegment := RoundingScalar.zero_lt_twentieth
  show 0.0 < Scalar.max _ leastSegment
  rw [Scalar.max]
  split_ifs with hleft hright hlt
  · exact hleast
  · exact absurd hright (Bool.eq_false_iff.1 (Scalar.isNaN_of_lt hleast))
  · exact Scalar.lt_of_le_of_lt (Scalar.le_of_lt hleast) hlt
  · exact hleast

/-- A valid clip lasts, with a trim end or without one. -/
theorem Clip.zero_lt_effectiveDuration [RoundingScalar α] {clip : Clip α} (h : clip.issues = []) :
    0.0 < clip.effectiveDuration := by
  have hduration : 0.0 < clip.duration := by
    obtain ⟨hcheck, -⟩ := List.append_eq_nil_iff.1
      (List.append_eq_nil_iff.1 (List.append_eq_nil_iff.1 h).1).1
    exact zero_lt_of_isPositive (Issue.check_eq_nil_iff.1 hcheck)
  rw [effectiveDuration]
  split
  · split_ifs
    · exact MediaClip.zero_lt_outputDuration _ _
    · exact hduration
  · exact hduration

/-- A video that asks for a fade to the clip of the given id. -/
def Sample.naming (id : String) : Clip Exact :=
  video "a" 0.0 2.0 none { blend "fade" 1.0 with transitionWith? := some id }

namespace EdgeDecision

/-! ### Rules -/

section Rules

variable (previous next : Clip α) (fps : α)

/-- From the end of a clip to the start of the next one it is less than half a frame, in either
direction. -/
def Meets : Prop :=
  ¬ 0.5 ≤ (next.startTime - previous.effectiveEnd) * fps ∧
    ¬ (next.startTime - previous.effectiveEnd) * fps ≤ -0.5

/-- The next clip has no id, or every target that is not blank is its id. -/
def IsMeantFor : Prop :=
  next.id = "" ∨ ∀ target ∈ previous.effects.transitionWith?,
    Text.isBlankText target = true ∨ Text.trim target = next.id

/-- A known style and a positive length are asked for. -/
def IsUsable : Prop :=
  (∃ style, ∃ name ∈ previous.effects.transition?, TransitionStyle.ofName? name = some style) ∧
    0.0 < previous.effects.transitionDuration

/-- What a decision on two neighbours says. -/
structure FollowsRules (index : ℕ) (d : EdgeDecision α) : Prop where
  index_eq : d.index = index
  ids_eq : d.fromClipId = previous.id ∧ d.toClipId = next.id
  gapFrames_iff : d.gapFrames = 0 ↔ Meets previous next fps
  accepted_iff : d.isAccepted = true ↔
    Meets previous next fps ∧ IsMeantFor previous next ∧ IsUsable previous
  /-- The reason is the first rule that fails. -/
  gapBetween_iff : d.reason = .gapBetween ↔ ¬ Meets previous next fps
  otherTarget_iff : d.reason = .otherTarget ↔
    Meets previous next fps ∧ ¬ IsMeantFor previous next
  notUsable_iff : d.reason = .notUsable ↔
    Meets previous next fps ∧ IsMeantFor previous next ∧ ¬ IsUsable previous
  style_eq : d.style? = previous.effects.transition?.bind TransitionStyle.ofName?
  requested_eq : d.requestedDuration = previous.effects.transitionDuration
  /-- A usable transition has a positive length that is held within both clips, also if it is
  refused. -/
  lengths : IsUsable previous → ∃ length longest,
    d.duration? = some length ∧ d.maxDuration? = some longest ∧ 0.0 < length ∧
      IsShortest length
        [previous.effects.transitionDuration, previous.effectiveDuration, next.effectiveDuration] ∧
      IsShortest longest [previous.effectiveDuration, next.effectiveDuration]
  noLengths : ¬ IsUsable previous → d.duration? = none ∧ d.maxDuration? = none
  /-- Style and length are both there where they are needed. -/
  transition_iff : d.transition?.isSome = true ↔ d.isAccepted = true

end Rules

variable {index : ℕ} {previous next : Clip α} {fps : α}

/-! ### Reasons -/

omit [Scalar α] in
/-- The code misses the target exactly if the transition is not meant for the next clip. -/
theorem missesTarget_eq_false_iff :
    missesTarget previous.effects next.id = false ↔ IsMeantFor previous next := by
  have htarget : previous.effects.transitionTarget?.any (· != next.id) = false ↔
      ∀ target ∈ previous.effects.transitionWith?,
        Text.isBlankText target = true ∨ Text.trim target = next.id := by
    rw [Effects.transitionTarget?]
    cases previous.effects.transitionWith? with
    | none => simp
    | some target =>
      cases hblank : Text.isBlankText target <;> simp [Option.filter, Text.isEmpty_trim, hblank]
  rw [missesTarget, Bool.and_eq_false_iff, Bool.not_eq_false', String.isEmpty_iff, htarget,
    IsMeantFor]

/-- The test of the code is that of the rule. -/
theorem isUsable_iff :
    ((previous.effects.transition?.bind TransitionStyle.ofName?).isSome &&
      Decidable.decide (0.0 < previous.effects.transitionDuration)) = true ↔ IsUsable previous := by
  rw [Bool.and_eq_true, decide_eq_true_iff, IsUsable, Option.isSome_iff_exists]
  simp only [Option.bind_eq_some_iff, Option.mem_def]

omit [Scalar α] in
theorem isAccepted_iff {d : EdgeDecision α} : d.isAccepted = true ↔ d.reason = .accepted :=
  beq_iff_eq

/-- The gap counts no frame exactly if the clips meet. -/
theorem gapFrames_eq_zero_iff [RoundingScalar α] (index : ℕ) :
    (decide index previous next fps).gapFrames = 0 ↔ Meets previous next fps :=
  RoundingScalar.toInt64_round_eq_zero_iff _

open Classical in
/-- The reason is found by the rules in their order. -/
theorem reason_decide [RoundingScalar α] : (decide index previous next fps).reason =
    if Meets previous next fps then
      if IsMeantFor previous next then
        if IsUsable previous then .accepted else .notUsable
      else .otherTarget
    else .gapBetween := by
  have hreason : (decide index previous next fps).reason =
      if (decide index previous next fps).gapFrames ≠ 0 then .gapBetween
      else if missesTarget previous.effects next.id then .otherTarget
      else if (previous.effects.transition?.bind TransitionStyle.ofName?).isSome &&
        Decidable.decide (0.0 < previous.effects.transitionDuration) then .accepted
      else .notUsable := rfl
  rw [hreason, ← gapFrames_eq_zero_iff index, ← missesTarget_eq_false_iff,
    ← isUsable_iff]
  split_ifs <;> simp_all

/-! ### Lengths -/

/-- A usable transition has its lengths, whether it is accepted or not. -/
theorem exists_lengths [RoundingScalar α] (hprevious : previous.issues = [])
    (hnext : next.issues = []) (husable : IsUsable previous) : ∃ length longest,
    (decide index previous next fps).duration? = some length ∧
      (decide index previous next fps).maxDuration? = some longest ∧ 0.0 < length ∧
      IsShortest length
        [previous.effects.transitionDuration, previous.effectiveDuration, next.effectiveDuration] ∧
      IsShortest longest [previous.effectiveDuration, next.effectiveDuration] := by
  have hpos : ∀ x ∈ [previous.effects.transitionDuration, previous.effectiveDuration,
      next.effectiveDuration], 0.0 < x := by
    simp only [List.forall_mem_cons]
    exact ⟨husable.2, Clip.zero_lt_effectiveDuration hprevious,
      Clip.zero_lt_effectiveDuration hnext, List.forall_mem_nil _⟩
  have hnumber := fun x hx ↦ Scalar.isNaN_of_lt (hpos x hx)
  have hlongest : IsShortest (Scalar.min previous.effectiveDuration next.effectiveDuration)
      [previous.effectiveDuration, next.effectiveDuration] :=
    (isShortest_singleton (hnumber _ (by simp))).min_cons (hnumber _ (by simp))
      (hnumber _ (by simp))
  have hlength := hlongest.min_cons (x := previous.effects.transitionDuration)
    (hnumber _ (by simp)) (hnumber _ (List.mem_cons_of_mem _ hlongest.1))
  exact ⟨_, _, if_pos (isUsable_iff.2 husable), if_pos (isUsable_iff.2 husable),
    hpos _ hlength.1, hlength, hlongest⟩

/-! ### Decisions -/

/-- The decision on two valid clips follows the rules. -/
theorem followsRules_decide [RoundingScalar α] (index : ℕ) (fps : α)
    (hprevious : previous.issues = []) (hnext : next.issues = []) :
    FollowsRules previous next fps index (decide index previous next fps) where
  index_eq := rfl
  ids_eq := ⟨rfl, rfl⟩
  gapFrames_iff := gapFrames_eq_zero_iff index
  accepted_iff := by
    rw [isAccepted_iff, reason_decide]
    split_ifs <;> simp [*]
  gapBetween_iff := by
    rw [reason_decide]
    split_ifs <;> simp [*]
  otherTarget_iff := by
    rw [reason_decide]
    split_ifs <;> simp [*]
  notUsable_iff := by
    rw [reason_decide]
    split_ifs <;> simp [*]
  style_eq := rfl
  requested_eq := rfl
  lengths := exists_lengths hprevious hnext
  noLengths husable := ⟨if_neg (isUsable_iff.not.2 husable), if_neg (isUsable_iff.not.2 husable)⟩
  transition_iff := by
    constructor
    · intro hsome
      by_contra hrefused
      rw [transition?, if_neg hrefused] at hsome
      cases hsome
    · intro haccepted
      obtain ⟨style, -, htransition⟩ := transition?_decide haccepted
      rw [htransition]
      rfl

/-- Every edge of a base has its decision, which follows the rules. -/
theorem followsRules_ofBase [RoundingScalar α] {base : List (Clip α)} (fps : α)
    (h : ∀ clip ∈ base, clip.issues = []) :
    (ofBase base fps).length = base.length - 1 ∧
    ∀ i previous next, base[i]? = some previous → base[i + 1]? = some next →
      (ofBase base fps)[i]? = some (decide i previous next fps) ∧
      ∀ index, FollowsRules previous next fps index (decide index previous next fps) := by
  refine ⟨length_ofBase base fps, fun i previous next hprevious hnext ↦ ⟨?_, fun index ↦ ?_⟩⟩
  · rw [ofBase, getElem?_decideFrom, hprevious, hnext, Nat.zero_add]
    rfl
  · exact followsRules_decide index fps (h _ (List.mem_of_getElem? hprevious))
      (h _ (List.mem_of_getElem? hnext))

/-- Two clips of which the first one wipes to the second, which is trimmed to a second. -/
theorem followsRules_pair :
    (∀ clip ∈ ([Sample.video "a" 0.0 2.0 none (Sample.blend "wipe left" 0.5),
      Sample.video "b" 2.0 5.0 (some 1.0) {}] : List (Clip Exact)), clip.issues = []) ∧
    FollowsRules (α := Exact) (Sample.video "a" 0.0 2.0 none (Sample.blend "wipe left" 0.5))
      (Sample.video "b" 2.0 5.0 (some 1.0) {}) 30.0 7
      (decide 7 (Sample.video "a" 0.0 2.0 none (Sample.blend "wipe left" 0.5))
        (Sample.video "b" 2.0 5.0 (some 1.0) {}) 30.0) := by
  have hvalid : ∀ clip ∈ ([Sample.video "a" 0.0 2.0 none (Sample.blend "wipe left" 0.5),
      Sample.video "b" 2.0 5.0 (some 1.0) {}] : List (Clip Exact)), clip.issues = [] := by
    decide +kernel
  exact ⟨hvalid, ((followsRules_ofBase 30.0 hvalid).2 0 _ _ rfl rfl).2 7⟩

/-! ### Naming the next clip -/

omit [Scalar α] in
/-- The next clip is meant by its own id, unless trimming changes the id. -/
theorem isMeantFor_iff_of_named (h : previous.effects.transitionWith? = some next.id) :
    IsMeantFor previous next ↔
      Text.isBlankText next.id = true ∨ Text.IsTrimmed next.id := by
  have hempty : next.id = "" → Text.isBlankText next.id = true := by
    intro hid
    rw [hid]
    rfl
  rw [IsMeantFor, h, ← Text.trim_eq_self_iff]
  constructor
  · rintro (hid | htarget)
    · exact .inl (hempty hid)
    · exact htarget next.id rfl
  · intro htrim
    right
    rintro target ⟨⟩
    exact htrim

/-- A transition to the next clip that names this clip is refused for its target exactly if the id
has a blank at an end, and something else; in every other case it is accepted if it is usable. -/
theorem reason_decide_of_named [RoundingScalar α] (hmeets : Meets previous next fps)
    (h : previous.effects.transitionWith? = some next.id) :
    ((decide index previous next fps).reason = .otherTarget ↔
      Text.isBlankText next.id = false ∧ ¬ Text.IsTrimmed next.id) ∧
    (IsUsable previous → ((decide index previous next fps).isAccepted = true ↔
      Text.isBlankText next.id = true ∨ Text.IsTrimmed next.id)) := by
  rw [← Bool.not_eq_true, ← not_or, ← isMeantFor_iff_of_named h, isAccepted_iff, reason_decide,
    if_pos hmeets]
  constructor
  · split_ifs <;> simp [*]
  · intro husable
    rw [if_pos husable]
    split_ifs <;> simp [*]

/-- A clip that names the next one. -/
theorem reason_decide_named :
    Meets (Sample.naming "b") (Sample.video "b" 2.0 2.0 none {}) 30.0 ∧
    (Sample.naming "b").effects.transitionWith? = some "b" ∧
    (decide 0 (Sample.naming "b") (Sample.video "b" 2.0 2.0 none {}) 30.0).isAccepted = true := by
  have hmeets : Meets (Sample.naming "b") (Sample.video "b" 2.0 2.0 none {}) 30.0 :=
    ⟨by decide +kernel, by decide +kernel⟩
  have husable : IsUsable (Sample.naming "b") :=
    ⟨⟨.fade, "fade", rfl, by decide +kernel⟩, by decide +kernel⟩
  have htrimmed : Text.IsTrimmed "b" := by decide +kernel
  exact ⟨hmeets, rfl, ((reason_decide_of_named hmeets rfl).2 husable).2 (.inr htrimmed)⟩

/-- A valid project in which a clip names the next one, whose id begins with a blank. -/
theorem reason_decide_padded :
    (⟨[⟨none, [Sample.naming " b", Sample.video " b" 2.0 2.0 none {}]⟩], none⟩ :
      Project Exact).issues = [] ∧
    (Sample.naming " b").effects.transitionWith? = some " b" ∧
    (decide 0 (Sample.naming " b") (Sample.video " b" 2.0 2.0 none {}) 30.0).gapFrames = 0 ∧
    (decide 0 (Sample.naming " b") (Sample.video " b" 2.0 2.0 none {}) 30.0).reason =
      .otherTarget := by
  have hmeets : Meets (Sample.naming " b") (Sample.video " b" 2.0 2.0 none {}) 30.0 :=
    ⟨by decide +kernel, by decide +kernel⟩
  have hother : ¬ IsMeantFor (Sample.naming " b") (Sample.video " b" 2.0 2.0 none {}) := by
    rw [isMeantFor_iff_of_named rfl]
    decide +kernel
  refine ⟨by decide +kernel, rfl, (gapFrames_eq_zero_iff 0).2 hmeets, ?_⟩
  rw [reason_decide, if_pos hmeets, if_neg hother]

end EdgeDecision

end Splice
