import Splice.Proofs.Samples
import Splice.Proofs.Timeline.Ranges

/-!
# Source windows

What a valid clip plays of its source, in exact numbers (`MediaClip.HasWindow`). A length is held up
at `leastSegment` in three places: the duration of a clip without a trim end, before it is
multiplied by the speed; the length between the trims; and the output, after the division by the
speed.

Where the first one applies the last one is idle (`HasWindow.mul_speed_eq_of_untrimmed`); the second
one makes it idle only at speeds up to one (`HasWindow.mul_speed_eq_iff_of_trimmed`). So a clip at a
higher speed, trimmed to less than `leastSegment` takes at that speed, has an output that lasts
longer than what is played for it. Every other output lasts as long as its source at the speed.
-/

namespace Splice

open Exact (number)

namespace MediaClip

/-- The source window of a clip that lasts for `d`, in rationals. -/
structure HasWindow (media : MediaClip Exact) (d start source output speed : ℚ) : Prop where
  excerpt_eq :
    media.excerpt (number d) = ⟨number start, number source, number output, number speed⟩
  start_eq : media.trimStart = number start
  start_nonneg : 0 ≤ start
  speed_mem : speed ∈ Set.Icc (1 / 4) 4
  source_untrimmed : media.trimEnd? = none → source = max d (1 / 20) * speed
  source_trimmed : ∀ stop, media.trimEnd? = some (number stop) →
    source = max (stop - start) (1 / 20)
  output_eq : output = max (source / speed) (1 / 20)

namespace HasWindow

variable {media : MediaClip Exact} {d start source output speed : ℚ}

theorem speed_pos (h : media.HasWindow d start source output speed) : 0 < speed :=
  lt_of_lt_of_le (by norm_num) h.speed_mem.1

theorem least_le_output (h : media.HasWindow d start source output speed) : 1 / 20 ≤ output :=
  h.output_eq ▸ le_max_right _ _

/-- The output takes all of the source at the speed, and at least what the shortest segment
takes. -/
theorem output_mul_speed (h : media.HasWindow d start source output speed) :
    output * speed = max source (speed / 20) := by
  have hquotient : source / speed * speed = source := div_mul_cancel₀ _ h.speed_pos.ne'
  rw [h.output_eq, max_mul_of_nonneg _ _ h.speed_pos.le, hquotient, one_div_mul_eq_div]

/-- The output keeps pace with the source exactly if the source lasts for the shortest segment at
that speed. -/
theorem mul_speed_eq_iff (h : media.HasWindow d start source output speed) :
    output * speed = source ↔ speed / 20 ≤ source := by
  rw [h.output_mul_speed, max_eq_left_iff]

/-- Without a trim end it always does, since the duration was held up before it was multiplied. -/
theorem mul_speed_eq_of_untrimmed (h : media.HasWindow d start source output speed)
    (htrim : media.trimEnd? = none) : output * speed = source := by
  rw [h.mul_speed_eq_iff, h.source_untrimmed htrim, ← one_div_mul_eq_div]
  exact mul_le_mul_of_nonneg_right (le_max_right _ _) h.speed_pos.le

/-- With a trim end it does at speeds up to one, and otherwise only if the trims leave enough. -/
theorem mul_speed_eq_iff_of_trimmed {stop : ℚ} (h : media.HasWindow d start source output speed)
    (htrim : media.trimEnd? = some (number stop)) :
    output * speed = source ↔ speed ≤ 1 ∨ speed / 20 ≤ stop - start := by
  have hslow : speed / 20 ≤ 1 / 20 ↔ speed ≤ 1 := div_le_div_iff_of_pos_right (by norm_num)
  rw [h.mul_speed_eq_iff, h.source_trimmed stop htrim, le_max_iff, hslow, or_comm]

end HasWindow

/-- Every clip with rational trims has a source window, whatever speed its effects ask for. -/
theorem hasWindow_of_trims {media : MediaClip Exact} {start d : ℚ}
    (hnonneg : 0 ≤ start) (hstart : media.trimStart = number start)
    (hstop : ∀ stop ∈ media.trimEnd?, ∃ r : ℚ, stop = number r) :
    ∃ source output speed, media.HasWindow d start source output speed := by
  obtain ⟨speed, hmem, hspeed⟩ := media.look.effects.isIn_speed
  have hne : speed ≠ 0 := (lt_of_lt_of_le (by norm_num) hmem.1).ne'
  rcases htrim : media.trimEnd? with - | stop
  · refine ⟨_, _, speed, ?_, hstart, hnonneg, hmem, fun _ ↦ rfl,
      fun _ h ↦ absurd (htrim.symm.trans h).symm (Option.some_ne_none _), rfl⟩
    simp only [excerpt, htrim, Option.filter_none, leastSegment_eq, hspeed, hstart, zero_eq,
      Exact.max_number, Exact.number_mul, Exact.number_div _ _ hne, max_eq_left hnonneg]
  · obtain ⟨r, rfl⟩ := hstop stop htrim
    refine ⟨max (r - start) (1 / 20), _, speed, ?_, hstart, hnonneg, hmem,
      fun h ↦ absurd (htrim.symm.trans h) (Option.some_ne_none _), ?_, rfl⟩
    · simp only [excerpt, htrim, Option.filter_some, Exact.isFinite_number, if_true,
        leastSegment_eq, hspeed, hstart, zero_eq, Exact.max_number, Exact.number_sub,
        Exact.number_div _ _ hne, max_eq_left hnonneg]
    · intro stop h
      obtain rfl : r = stop := Exact.number.inj (Option.some.inj (htrim.symm.trans h))
      rfl

end MediaClip

namespace Clip

/-- A valid clip has a source window, of which the output lasts as long as the source at the speed
unless the trims leave less than the shortest segment takes at a speed above one. -/
theorem keepsPace_iff {clip : Clip Exact} {media : MediaClip Exact} (h : clip.issues = [])
    (hcontent : clip.content = .video media ∨ clip.content = .image media) :
    ∃ d start source output speed, clip.duration = number d ∧
      media.HasWindow d start source output speed ∧ 1 / 20 ≤ output ∧
      source ≤ output * speed ∧
      (output * speed = source ↔ ∀ stop, media.trimEnd? = some (number stop) →
        speed ≤ 1 ∨ speed / 20 ≤ stop - start) := by
  obtain ⟨s, d, e, times⟩ := exists_times h
  obtain ⟨start, hnonneg, hstart, hstop⟩ := exists_trims h hcontent
  obtain ⟨source, output, speed, window⟩ :=
    MediaClip.hasWindow_of_trims (d := d) hnonneg hstart hstop
  refine ⟨d, start, source, output, speed, times.duration_eq, window, window.least_le_output,
    window.output_mul_speed ▸ le_max_left _ _, ?_⟩
  rcases htrim : media.trimEnd? with - | stop
  · exact iff_of_true (window.mul_speed_eq_of_untrimmed htrim) fun _ h ↦ nomatch h
  · obtain ⟨r, rfl⟩ := hstop stop htrim
    rw [window.mul_speed_eq_iff_of_trimmed htrim]
    constructor
    · rintro hpace _ ⟨⟩
      exact hpace
    · intro hpace
      exact hpace r rfl

/-- A second at double speed. -/
theorem keepsPace_double :
    (Sample.video "a" 0.0 3.0 (some 1.0) { speed? := some 2.0 } : Clip Exact).issues = [] ∧
    ∃ source output : ℚ,
      (⟨"source", 0.0, some 1.0, Sample.look { speed? := some 2.0 }⟩ : MediaClip Exact).HasWindow
        3 0 source output 2 ∧
      output * 2 = source := by
  have hvalid :
      (Sample.video "a" 0.0 3.0 (some 1.0) { speed? := some 2.0 } : Clip Exact).issues = [] := by
    decide +kernel
  obtain ⟨d, start, source, output, speed, hduration, window, -, -, hpace⟩ :=
    keepsPace_iff hvalid (.inl rfl)
  have hd : number 3 = number d := Eq.trans (by decide +kernel) hduration
  obtain rfl : 3 = d := Exact.number.inj hd
  have hstart : number 0 = number start := Eq.trans (by decide +kernel) window.start_eq
  obtain rfl : 0 = start := Exact.number.inj hstart
  have hspeed : number 2 = number speed :=
    Eq.trans (by decide +kernel) (congrArg Excerpt.speed window.excerpt_eq)
  obtain rfl : 2 = speed := Exact.number.inj hspeed
  refine ⟨hvalid, source, output, window, hpace.2 fun stop hstop ↦ .inr ?_⟩
  have hone : number 1 = number stop := Eq.trans (by decide +kernel) (Option.some.inj hstop)
  rw [← Exact.number.inj hone]
  norm_num

/-- At fourfold speed a tenth of a second is played for a twentieth, which takes a fifth. -/
theorem not_keepsPace_short :
    (Sample.video "a" 0.0 1.0 (some 0.1) { speed? := some 4.0 } : Clip Exact).issues = [] ∧
    let window := (⟨"source", 0.0, some 0.1, Sample.look { speed? := some 4.0 }⟩ :
      MediaClip Exact).excerpt 1.0
    window.sourceDuration = number (1 / 10) ∧ window.outputDuration = number (1 / 20) ∧
      window.outputDuration * window.speed ≠ window.sourceDuration := by
  decide +kernel

end Clip

end Splice
