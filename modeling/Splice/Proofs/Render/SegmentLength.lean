import Splice.Proofs.Render.Run
import Splice.Proofs.Samples
import Splice.Proofs.Timeline.Durations

/-!
# Length of rendered segments

How long the segment of a video clip is, against the effective duration with which the clip is
planned. The two are computed apart from each other: only with a trim end does the effective
duration look at the source window. In exact numbers they agree on every valid clip that has a trim
end or lasts for at least `leastSegment`, and on no other; the segment of a shorter clip is held up
at `leastSegment`, the plan is not.
-/

namespace Splice

open Exact (number)

/-- A valid clip without a trim end is planned for its duration, with one for at least the shortest
segment. -/
theorem Clip.leastSegment_le_effective_iff {clip : Clip Exact} {media : MediaClip Exact}
    {s d e : ℚ} (hissues : clip.issues = []) (hcontent : clip.content = .video media)
    (times : clip.HasTimes s d e) :
    1 / 20 ≤ e ↔ media.trimEnd?.isSome = true ∨ 1 / 20 ≤ d := by
  have heffective := times.effective_eq
  rw [effectiveDuration, hcontent] at heffective
  change (if media.trimEnd?.isSome then (media.excerpt clip.duration).outputDuration
    else clip.duration) = _ at heffective
  -- only with a trim end is the planned length that of the source window
  cases htrim : media.trimEnd?.isSome with
  | false =>
    rw [htrim, if_neg Bool.false_ne_true, times.duration_eq] at heffective
    rw [Exact.number.inj heffective]
    simp
  | true =>
    obtain ⟨q, hq⟩ := trimStart_of_issues hissues hcontent
    obtain ⟨r, hr, hle⟩ := MediaClip.exists_outputDuration (d := d) hq
    rw [htrim, if_pos rfl, times.duration_eq, hr] at heffective
    rw [← Exact.number.inj heffective]
    simpa using hle

namespace Session

variable {σ : Type} {s : Session (StateM σ) Exact} {p q : Situation Exact σ}

/-- A segment is as long as its clip is planned, but never shorter than the shortest segment; so the
two lengths agree exactly if the clip has a trim end or is not that short. -/
theorem duration_makeSegment {clip : Clip Exact} {media : MediaClip Exact} {path : Path}
    {blended : BlendedEdges} {file : RenderedFile Exact} (hissues : clip.issues = [])
    (hcontent : clip.content = .video media)
    (h : (s.makeSegment clip media path blended).Ends p (.ok file) q) :
    file.duration = Scalar.max clip.effectiveDuration leastSegment ∧
      (file.duration = clip.effectiveDuration ↔
        media.trimEnd?.isSome = true ∨ leastSegment ≤ clip.duration) := by
  obtain ⟨start, d, e, times⟩ := Clip.exists_times hissues
  have hrendered : file.duration = number (max e (1 / 20)) := by
    rw [(ends_makeSegment h).1, Clip.outputDuration_eq hissues hcontent times]
  have hagree : file.duration = clip.effectiveDuration ↔ 1 / 20 ≤ e := by
    rw [hrendered, times.effective_eq, Exact.number.injEq, max_eq_left_iff]
  constructor
  · rw [hrendered, times.effective_eq, leastSegment_eq, Exact.max_number]
  · rw [hagree, times.duration_eq, leastSegment_eq, Exact.number_le,
      Clip.leastSegment_le_effective_iff hissues hcontent times]

/-- A clip that is trimmed to a tenth of a second. -/
theorem duration_makeSegment_trimmed : ∃ file q,
    (Sample.session.makeSegment (Sample.video "b" 0.0 3.0 (some 0.1) {})
      ⟨"source", 0.0, some 0.1, Sample.look {}⟩ ⟨"source.mp4"⟩ {}).Ends ⟨{}, ()⟩ (.ok file) q ∧
    file.duration = Scalar.max (Clip.effectiveDuration (Sample.video "b" 0.0 3.0 (some 0.1) {}))
      (leastSegment : Exact) ∧
    file.duration = Clip.effectiveDuration (Sample.video "b" 0.0 3.0 (some 0.1) {}) := by
  obtain ⟨file, q, h⟩ := RenderT.exists_ends (α := Exact) (p := ⟨{}, ()⟩)
    (x := Sample.session.makeSegment (Sample.video "b" 0.0 3.0 (some 0.1) {})
      ⟨"source", 0.0, some 0.1, Sample.look {}⟩ ⟨"source.mp4"⟩ {}) rfl
  have hlength := duration_makeSegment (by decide +kernel) rfl h
  exact ⟨file, q, h, hlength.1, hlength.2.2 (.inl rfl)⟩

/-- A clip of a fiftieth of a second is valid, and its segment is longer than it is planned. -/
theorem duration_makeSegment_short :
    (Sample.video "a" 0.0 0.02 none {} : Clip Exact).issues = [] ∧
    (Sample.video "a" 0.0 0.02 none {} : Clip Exact).effectiveDuration = number (1 / 50) ∧
    ∃ file q,
      (Sample.session.makeSegment (Sample.video "a" 0.0 0.02 none {})
        ⟨"source", 0.0, none, Sample.look {}⟩ ⟨"source.mp4"⟩ {}).Ends ⟨{}, ()⟩ (.ok file) q ∧
      file.duration = number (1 / 20) := by
  obtain ⟨file, q, h⟩ := RenderT.exists_ends (α := Exact) (p := ⟨{}, ()⟩)
    (x := Sample.session.makeSegment (Sample.video "a" 0.0 0.02 none {})
      ⟨"source", 0.0, none, Sample.look {}⟩ ⟨"source.mp4"⟩ {}) rfl
  refine ⟨by decide +kernel, by decide +kernel, file, q, h, ?_⟩
  rw [(ends_makeSegment h).1]
  decide +kernel

end Session

end Splice
