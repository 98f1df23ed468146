import Mathlib.Tactic.NormNum
import Mathlib.Tactic.Positivity
import Splice.Proofs.Number.Exact
import Splice.Timeline.Validation

/-!
# Durations of valid clips

What a project without faults says about the times of its clips, in exact numbers: they are
rationals, no clip starts before zero, and every clip lasts (`Clip.HasTimes`). A segment that is
rendered for a clip is as long as the clip, but never shorter than `leastSegment`
(`MediaClip.outputDuration_eq`).
-/

namespace Splice

open Exact (number isFinite_iff)

/-! ### Absence of faults -/

section Faults

variable {α : Type}

@[simp] theorem Issue.check_eq_nil_iff {holds : Bool} {issue : Issue α} :
    Issue.check holds issue = [] ↔ holds = true := by
  cases holds <;> simp [Issue.check]

variable [Scalar α]

/-- If nothing is wrong with a list of clips, nothing is with any of them. -/
theorem Clip.issues_eq_nil_of_issuesAfter {seen : List String} {clips : List (Clip α)}
    (h : Clip.issuesAfter seen clips = []) : ∀ clip ∈ clips, clip.issues = [] := by
  induction clips generalizing seen with
  | nil => exact fun _ h ↦ nomatch h
  | cons clip rest ih =>
    rw [Clip.issuesAfter, List.append_eq_nil_iff, List.append_eq_nil_iff] at h
    exact List.forall_mem_cons.2 ⟨h.1.2, ih h.2⟩

/-- In a project without faults every clip is without faults. -/
theorem Project.issues_clip {project : Project α} (h : project.issues = []) :
    ∀ clip ∈ project.clips, clip.issues = [] :=
  Clip.issues_eq_nil_of_issuesAfter (List.append_eq_nil_iff.1 h).1

end Faults

/-! ### Numbers in range -/

theorem zero_eq : (0.0 : Exact) = number 0 := by
  rw [Exact.ofScientific_eq]
  norm_num

theorem one_eq : (1.0 : Exact) = number 1 := by
  rw [Exact.ofScientific_eq]
  norm_num

/-- The positive scalars are the positive rationals. -/
theorem isPositive_iff {x : Exact} : isPositive x = true ↔ ∃ q : ℚ, 0 < q ∧ x = number q := by
  rw [isPositive, Bool.and_eq_true, isFinite_iff, zero_eq]
  constructor
  · rintro ⟨⟨q, rfl⟩, hpos⟩
    exact ⟨q, by simpa using hpos, rfl⟩
  · rintro ⟨q, hpos, rfl⟩
    exact ⟨⟨q, rfl⟩, by simpa using hpos⟩

/-- The scalars that pass as not negative are the rationals from zero on. -/
theorem isNonNegative_iff {x : Exact} :
    isNonNegative x = true ↔ ∃ q : ℚ, 0 ≤ q ∧ x = number q := by
  rw [isNonNegative, Bool.and_eq_true, isFinite_iff, zero_eq]
  constructor
  · rintro ⟨⟨q, rfl⟩, hnonneg⟩
    exact ⟨q, by simpa using hnonneg, rfl⟩
  · rintro ⟨q, hnonneg, rfl⟩
    exact ⟨⟨q, rfl⟩, by simpa using hnonneg⟩

/-- The speed is positive, whatever was asked for. -/
theorem Effects.exists_speed (effects : Effects Exact) :
    ∃ v : ℚ, effects.speed = number v ∧ 0 < v := by
  obtain ⟨q, hq⟩ := Exact.exists_finiteElse (OfScientific.ofScientific 10 true 1) effects.speed?
  rw [Effects.speed, leastSpeed, greatestSpeed, Exact.ofScientific_eq, Exact.ofScientific_eq,
    Exact.ofScientific_eq, hq, Exact.clamp_number]
  refine ⟨_, rfl, ?_⟩
  split_ifs with hlow hhigh
  · norm_num
  · norm_num
  · exact lt_of_lt_of_le (by norm_num) (not_lt.1 hlow)

/-! ### Source windows -/

theorem leastSegment_eq : (leastSegment : Exact) = number (1 / 20) := by
  rw [leastSegment, Exact.ofScientific_eq]
  norm_num

/-- A segment without a trim end lasts as long as its clip. -/
theorem MediaClip.outputDuration_of_untrimmed {media : MediaClip Exact} (d : ℚ)
    (h : media.trimEnd? = none) :
    (media.excerpt (number d)).outputDuration = number (max d (1 / 20)) := by
  obtain ⟨v, hv, hpos⟩ := media.look.effects.exists_speed
  have hquotient : max d (1 / 20) * v / v = max d (1 / 20) := mul_div_cancel_right₀ _ hpos.ne'
  simp only [MediaClip.excerpt, h, Option.filter_none, leastSegment_eq, hv, Exact.max_number,
    Exact.number_mul, Exact.number_div _ _ hpos.ne', hquotient, max_eq_left (le_max_right _ _)]

/-- A segment lasts for at least the shortest length. -/
theorem MediaClip.exists_outputDuration {media : MediaClip Exact} {start d : ℚ}
    (hstart : media.trimStart = number start) :
    ∃ r : ℚ, (media.excerpt (number d)).outputDuration = number r ∧ 1 / 20 ≤ r := by
  obtain ⟨v, hv, hpos⟩ := media.look.effects.exists_speed
  rcases htrim : media.trimEnd?.filter Scalar.isFinite with - | stop
  · simp only [MediaClip.excerpt, htrim, leastSegment_eq, hv, Exact.max_number,
      Exact.number_mul, Exact.number_div _ _ hpos.ne']
    exact ⟨_, rfl, le_max_right _ _⟩
  · obtain ⟨q, rfl⟩ := isFinite_iff.1 (Option.filter_eq_some_iff.1 htrim).2
    simp only [MediaClip.excerpt, htrim, leastSegment_eq, hv, hstart, zero_eq, Exact.max_number,
      Exact.number_sub, Exact.number_div _ _ hpos.ne']
    exact ⟨_, rfl, le_max_right _ _⟩

/-! ### Clips -/

/-- The times of a clip, as they are in a project without faults. -/
structure Clip.HasTimes (clip : Clip Exact) (start duration effective : ℚ) : Prop where
  start_eq : clip.startTime = number start
  duration_eq : clip.duration = number duration
  effective_eq : clip.effectiveDuration = number effective
  start_nonneg : 0 ≤ start
  duration_pos : 0 < duration
  effective_pos : 0 < effective

namespace Clip

variable {clip : Clip Exact}

theorem HasTimes.effectiveEnd_eq {s d e : ℚ} (h : clip.HasTimes s d e) :
    clip.effectiveEnd = number (s + e) := by
  rw [effectiveEnd, h.start_eq, h.effective_eq, Exact.number_add]

theorem HasTimes.endTime_eq {s d e : ℚ} (h : clip.HasTimes s d e) :
    clip.endTime = number (s + d) := by
  rw [endTime, h.start_eq, h.duration_eq, Exact.number_add]

/-- The trims of a valid media clip are rationals, and it does not start before its source. -/
theorem exists_trims {media : MediaClip Exact} (h : clip.issues = [])
    (hcontent : clip.content = .video media ∨ clip.content = .image media) :
    ∃ q : ℚ, 0 ≤ q ∧ media.trimStart = number q ∧
      ∀ stop ∈ media.trimEnd?, ∃ r : ℚ, stop = number r := by
  have hissues : clip.content.issues clip.id = [] :=
    (List.append_eq_nil_iff.1 (List.append_eq_nil_iff.1 h).1).2
  have hchecks : (Content.video media).issues clip.id = [] := by
    obtain hcontent | hcontent := hcontent <;> rwa [hcontent] at hissues
  obtain ⟨hbefore, hend⟩ := List.append_eq_nil_iff.1 hchecks
  have hstart := Issue.check_eq_nil_iff.1 (List.append_eq_nil_iff.1 hbefore).2
  obtain ⟨q, hq, heq⟩ := isNonNegative_iff.1 hstart
  refine ⟨q, hq, heq, fun stop hstop ↦ isFinite_iff.1 ?_⟩
  have hfinite := Issue.check_eq_nil_iff.1 hend
  rwa [Option.mem_def.1 hstop] at hfinite

theorem trimStart_of_issues {media : MediaClip Exact} (h : clip.issues = [])
    (hcontent : clip.content = .video media) : ∃ q : ℚ, media.trimStart = number q := by
  obtain ⟨q, -, hq, -⟩ := exists_trims h (.inl hcontent)
  exact ⟨q, hq⟩

/-- A clip without faults has times. -/
theorem exists_times (h : clip.issues = []) : ∃ s d e, clip.HasTimes s d e := by
  obtain ⟨hduration, hstart⟩ := List.append_eq_nil_iff.1
    (List.append_eq_nil_iff.1 (List.append_eq_nil_iff.1 h).1).1
  obtain ⟨d, hd, hdeq⟩ := isPositive_iff.1 (Issue.check_eq_nil_iff.1 hduration)
  obtain ⟨s, hs, hseq⟩ := isNonNegative_iff.1 (Issue.check_eq_nil_iff.1 hstart)
  -- only a video with a trim end does not last as long as its duration says
  have heffective : ∃ e : ℚ, clip.effectiveDuration = number e ∧ 0 < e := by
    rw [effectiveDuration]
    split
    · rename_i media hcontent
      obtain ⟨q, hq⟩ := trimStart_of_issues h hcontent
      split_ifs
      · obtain ⟨r, hr, hle⟩ := MediaClip.exists_outputDuration (d := d) hq
        exact ⟨r, hdeq ▸ hr, by linarith⟩
      · exact ⟨d, hdeq, hd⟩
    · exact ⟨d, hdeq, hd⟩
  obtain ⟨e, he, hpos⟩ := heffective
  exact ⟨s, d, e, hseq, hdeq, he, hs, hd, hpos⟩

/-- The segment for a clip lasts as long as the clip, but never less than the shortest length. -/
theorem outputDuration_eq {media : MediaClip Exact} {s d e : ℚ} (h : clip.issues = [])
    (hcontent : clip.content = .video media) (times : clip.HasTimes s d e) :
    (media.excerpt clip.duration).outputDuration = number (max e (1 / 20)) := by
  have heffective := times.effective_eq
  rw [effectiveDuration, hcontent] at heffective
  change (if media.trimEnd?.isSome then (media.excerpt clip.duration).outputDuration
    else clip.duration) = _ at heffective
  rcases htrim : media.trimEnd? with - | stop
  · rw [htrim] at heffective
    have hde : d = e := Exact.number.inj (times.duration_eq.symm.trans heffective)
    rw [times.duration_eq, MediaClip.outputDuration_of_untrimmed d htrim, hde]
  · rw [htrim] at heffective
    obtain ⟨q, hq⟩ := trimStart_of_issues h hcontent
    obtain ⟨r, hr, hle⟩ := MediaClip.exists_outputDuration (d := d) hq
    rw [← times.duration_eq] at hr
    have hre : r = e := Exact.number.inj (hr.symm.trans heffective)
    rw [hr, ← hre, max_eq_left hle]

end Clip

/-! ### The end of the timeline -/

/-- The greatest of some rationals is a rational. -/
theorem Exact.exists_foldl_max {values : List Exact} (h : ∀ x ∈ values, ∃ q, x = number q)
    (q : ℚ) : ∃ t, values.foldl Scalar.max (number q) = number t := by
  induction values generalizing q with
  | nil => exact ⟨q, rfl⟩
  | cons x rest ih =>
    rw [List.forall_mem_cons] at h
    obtain ⟨y, rfl⟩ := h.1
    rw [List.foldl_cons, max_number]
    exact ih h.2 _

/-- The timeline of a project without faults ends at a rational. -/
theorem Project.exists_timelineEnd {project : Project Exact} (h : project.issues = []) :
    ∃ t : ℚ, project.timelineEnd = number t := by
  rw [timelineEnd, zero_eq]
  refine Exact.exists_foldl_max (fun x hx ↦ ?_) 0
  obtain ⟨clip, hclip, rfl⟩ := List.mem_map.1 hx
  obtain ⟨s, d, e, times⟩ := Clip.exists_times (project.issues_clip h clip hclip)
  exact ⟨s + d, times.endTime_eq⟩

end Splice
