import Splice.Failure
import Splice.Proofs.Text.Trim

/-!
# Diagnostics

What is kept of a diagnostic: all of it but the blanks at its ends, or its beginning and three dots
(`abridges_shortened`). What is kept has no blanks at its ends either, since a trimmed text begins
with no blank and the dots stand last (`isTrimmed_dotted`). So a diagnostic that was cut is cut at
the same place again and gets the same dots, although it is longer than the limit, and the
diagnostic of one failure can be passed on as that of another. The only one that does not stay is
the diagnostic of an engine that said nothing, where the limit is too short for it
(`shortened_shortened_iff`).
-/

namespace Splice

open Text (IsTrimmed isBlank isBlankText trim trimChars)

variable {text : String} {limit : ℕ}

/-- The beginning of a text, with dots that show that it goes on. -/
def dotted (text : String) (limit : ℕ) : String := String.ofList (text.toList.take limit) ++ "..."

/-! ### What is kept -/

theorem isEmpty_trimChars (text : String) :
    (trimChars text.toList).isEmpty = isBlankText text := by
  rw [Bool.eq_iff_iff, List.isEmpty_iff, isBlankText, List.all_eq_true]
  exact Text.trimChars_eq_nil_iff

/-- Nothing but blanks is replaced by the standard diagnostic. -/
theorem shortened_of_blank (limit : ℕ) (h : isBlankText text = true) :
    shortened text limit = standardDiagnostic := by
  rw [shortened, isEmpty_trimChars, if_pos h]

/-- Anything else is trimmed, and cut if it is too long. -/
theorem shortened_of_not_blank (limit : ℕ) (h : isBlankText text = false) :
    shortened text limit =
      if (trim text).length ≤ limit then trim text else dotted (trim text) limit := by
  rw [shortened, isEmpty_trimChars, h, if_neg Bool.false_ne_true, dotted, trim,
    String.length_ofList, String.toList_ofList]

/-- A trimmed text stays, unless it is too long. -/
theorem shortened_of_isTrimmed (limit : ℕ) (h : IsTrimmed text)
    (hblank : isBlankText text = false) :
    shortened text limit = if text.length ≤ limit then text else dotted text limit := by
  rw [shortened_of_not_blank limit hblank, Text.trim_eq_self_iff.2 h]

/-! ### Dots -/

theorem toList_dotted (text : String) (limit : ℕ) :
    (dotted text limit).toList = text.toList.take limit ++ ['.', '.', '.'] := by
  rw [dotted, String.toList_append, String.toList_ofList]
  rfl

theorem getLast?_dotted (text : String) (limit : ℕ) :
    (dotted text limit).toList.getLast? = some '.' := by
  rw [toList_dotted, List.getLast?_append_of_ne_nil _ (by decide)]
  rfl

/-- The dots make three characters more than the limit. -/
theorem length_dotted (h : limit < text.length) : (dotted text limit).length = limit + 3 := by
  rw [← String.length_toList] at h
  rw [← String.length_toList, toList_dotted, List.length_append, List.length_take,
    Nat.min_eq_left h.le]
  rfl

theorem isBlankText_dotted (text : String) (limit : ℕ) :
    isBlankText (dotted text limit) = false := by
  rw [isBlankText, List.all_eq_false]
  exact ⟨'.', List.mem_of_getLast? (getLast?_dotted text limit), by decide⟩

/-- With dots at its end, the beginning of a trimmed text is trimmed. -/
theorem isTrimmed_dotted (limit : ℕ) (h : IsTrimmed text) : IsTrimmed (dotted text limit) := by
  constructor
  · intro c hc
    rw [toList_dotted, List.head?_append, List.head?_take] at hc
    split_ifs at hc with hzero
    -- with nothing before them, the dots come first
    · obtain rfl := Option.some.inj hc
      decide
    · rcases hhead : text.toList.head? with - | d
      · rw [hhead] at hc
        obtain rfl := Option.some.inj hc
        decide
      · rw [hhead] at hc
        obtain rfl := Option.some.inj hc
        exact h.1 d hhead
  · intro c hc
    rw [getLast?_dotted] at hc
    obtain rfl := Option.some.inj hc
    decide

/-- The dots do not reach into what is cut a second time. -/
theorem dotted_dotted (h : limit < text.length) :
    dotted (dotted text limit) limit = dotted text limit := by
  have hlength : (text.toList.take limit).length = limit := by
    rw [List.length_take, String.length_toList, Nat.min_eq_left h.le]
  rw [← String.toList_inj, toList_dotted, toList_dotted, List.take_left' hlength]

/-! ### Shortening twice -/

/-- The standard diagnostic has 31 characters. -/
theorem shortened_standardDiagnostic (limit : ℕ) :
    shortened standardDiagnostic limit =
      if 31 ≤ limit then standardDiagnostic else dotted standardDiagnostic limit :=
  shortened_of_isTrimmed limit (by decide) (by decide)

/-- A diagnostic that was shortened stays, unless it stands for none and is too long. -/
theorem shortened_shortened_iff :
    shortened (shortened text limit) limit = shortened text limit ↔
      isBlankText text = false ∨ 31 ≤ limit := by
  cases hblank : isBlankText text with
  | true =>
    rw [shortened_of_blank limit hblank, shortened_standardDiagnostic]
    split_ifs with h
    · exact iff_of_true rfl (.inr h)
    · refine iff_of_false (fun heq ↦ ?_) (by simp [h])
      have hlast := getLast?_dotted standardDiagnostic limit
      rw [heq] at hlast
      exact absurd hlast (by decide)
  | false =>
    refine iff_of_true ?_ (.inl rfl)
    have htrim := Text.isTrimmed_trim text
    rw [shortened_of_not_blank limit hblank]
    split_ifs with h
    · have hkept : isBlankText (trim text) = false := by
        rw [← Text.isEmpty_trim, Text.trim_eq_self_iff.2 htrim, Text.isEmpty_trim, hblank]
      rw [shortened_of_isTrimmed limit htrim hkept, if_pos h]
    · rw [shortened_of_isTrimmed limit (isTrimmed_dotted limit htrim) (isBlankText_dotted _ _),
        length_dotted (not_le.1 h), if_neg (by omega), dotted_dotted (not_le.1 h)]

/-- Something is said, and only the dots go beyond the limit. -/
theorem length_shortened (text : String) (h : 31 ≤ limit) :
    0 < (shortened text limit).length ∧ (shortened text limit).length ≤ limit + 3 := by
  cases hblank : isBlankText text with
  | true =>
    have hstandard : standardDiagnostic.length = 31 := by decide
    rw [shortened_of_blank limit hblank, hstandard]
    omega
  | false =>
    rw [shortened_of_not_blank limit hblank]
    split_ifs with hfits
    · refine ⟨Nat.pos_of_ne_zero fun hzero ↦ ?_, by omega⟩
      rw [← Text.isEmpty_trim, String.length_eq_zero_iff.1 hzero] at hblank
      exact absurd hblank (by decide)
    · rw [length_dotted (not_le.1 hfits)]
      omega

/-! ### The contract -/

/-- What is kept of a diagnostic, for a limit of characters. -/
structure Abridges (text : String) (limit : ℕ) (kept : String) : Prop where
  /-- Something is said. -/
  ne_empty : kept ≠ ""
  /-- Only the dots go beyond the limit. -/
  length_le : kept.length ≤ limit + 3
  /-- Nothing but blanks stands for nothing. -/
  blank : isBlankText text = true → kept = standardDiagnostic
  /-- What fits is kept, without the blanks at its ends. -/
  fits : isBlankText text = false → (trim text).length ≤ limit → kept = trim text
  /-- Of what does not fit the beginning is kept, and dots show that it goes on. -/
  cut : isBlankText text = false → limit < (trim text).length →
    kept = dotted (trim text) limit
  /-- What is kept stays. -/
  again : shortened kept limit = kept

/-- With a limit that the standard diagnostic fits, a diagnostic is shortened once at most, and that
of a failure is the same when it is passed on. -/
theorem abridges_shortened (text : String) {limit : ℕ} (h : 31 ≤ limit) :
    Abridges text limit (shortened text limit) ∧
      ∀ first second : String, ∃ kept, Failure.ofDiagnostic first text = .engine first kept ∧
        Failure.ofDiagnostic second kept = .engine second kept := by
  obtain ⟨hpos, hle⟩ := length_shortened text h
  refine ⟨?_, fun first second ↦ ⟨_, rfl, ?_⟩⟩
  · exact {
      ne_empty := fun heq ↦ by rw [heq] at hpos; exact absurd hpos (by decide)
      length_le := hle
      blank := shortened_of_blank limit
      fits := fun hblank hfits ↦ by rw [shortened_of_not_blank limit hblank, if_pos hfits]
      cut := fun hblank hlong ↦ by
        rw [shortened_of_not_blank limit hblank, if_neg hlong.not_ge]
      again := shortened_shortened_iff.2 (.inr h) }
  · rw [Failure.ofDiagnostic, shortened_shortened_iff.2 (.inr (by decide))]

/-- A diagnostic that is cut behind two blanks. -/
def spacedDiagnostic : String := " Conversion of the last stream  failed\n"

/-- The blanks before the cut stay, as the dots stand behind them. -/
theorem abridges_shortened_spaced :
    31 ≤ 31 ∧ shortened spacedDiagnostic 31 = "Conversion of the last stream  ..." ∧
      Abridges spacedDiagnostic 31 (shortened spacedDiagnostic 31) ∧
        ∀ first second : String, ∃ kept,
          Failure.ofDiagnostic first spacedDiagnostic = .engine first kept ∧
            Failure.ofDiagnostic second kept = .engine second kept :=
  ⟨le_rfl, by decide +kernel, abridges_shortened spacedDiagnostic le_rfl⟩

end Splice
