import Splice.Job.Filter
import Splice.Proofs.Job.FileLists
import Splice.Proofs.Number.Halving
import Splice.Proofs.Number.Numerals

/-!
# Tempo

A sound changes its tempo by a chain of factors, since a single change reaches from a half to two
only. The chain is what two loops put out: the first one halves a speed as long as it is above two,
the second one doubles it as long as it is below a half, and what remains is the last factor, with
three places (`LoopRun`, `realizesTempo_of_steps`). A speed is held within a quarter and four
before, so a loop goes round once at most.

Nothing is rounded on the way (`HalvingScalar`), only the last factor is, by half a thousandth at
most. Its bounds have three places themselves, so it does not leave them (`reads_fixed`). One factor
stands before it, which is two at most: so the product is right to a thousandth
(`realizesTempo`). The factors are those that are read in the text of the filter.
-/

namespace Splice

open Scalar (denote clamp fixed)

/-! ### Loops -/

/-- The run of a loop that goes on while a condition holds, with an item for each round: what it
puts out from a state on, and the state in which it ends. -/
inductive LoopRun {α : Type} (goesOn : α → Prop) (next : α → α) (item : String) :
    α → List String → α → Prop
  | done {x : α} (h : ¬ goesOn x) : LoopRun goesOn next item x [] x
  | again {x last : α} {items : List String} (h : goesOn x)
      (rest : LoopRun goesOn next item (next x) items last) :
      LoopRun goesOn next item x (item :: items) last

/-! ### Reading a chain -/

/-- The factor that a step of a chain names. -/
def tempoFactor? (step : List Char) : Option ℚ :=
  ("atempo=".toList.isPrefixOf? step).bind fun number ↦ (magnitudeOf? number).map Decimal.value

/-- The factors that a chain of steps names, in their order. -/
def tempoFactors? (text : String) : Option (List ℚ) :=
  (Text.pieces (· == ',') text.toList).mapM tempoFactor?

/-- Factors that a chain of tempo changes may have, and what they come to. -/
structure IsTempoChain (factors : List ℚ) (speed : ℚ) : Prop where
  /-- There is a last factor. -/
  ne_nil : factors ≠ []
  /-- Every factor is within the range of a single change. -/
  range : ∀ f ∈ factors, 1 / 2 ≤ f ∧ f ≤ 2
  /-- All but the last one are the same end of the range. -/
  ends : (∀ f ∈ factors.dropLast, f = 2) ∨ ∀ f ∈ factors.dropLast, f = 1 / 2
  /-- The product is the speed, to a thousandth. -/
  close : |factors.prod - speed| ≤ 1 / 1000

/-- What the tempo of a sound is changed by for a speed with a value. -/
structure RealizesTempo {α : Type} [Scalar α] (speed : α) (value : ℚ) : Prop where
  /-- The loops end, and the steps are what they put out and what they leave. -/
  loops : ∃ twos middle halves last,
    LoopRun (2.0 < ·) (· / 2.0) "2.0" (clamp leastSpeed greatestSpeed speed) twos middle ∧
      LoopRun (· < 0.5) (· / 0.5) "0.5" middle halves last ∧
        tempoSteps speed = twos ++ halves ++ [fixed 3 last]
  /-- The text is read as a chain for the speed, held within its bounds. -/
  chain : ∃ factors, tempoFactors? (tempoFilter speed) = some factors ∧
    IsTempoChain factors (max (1 / 4) (min 4 value))

/-! ### Steps -/

/-- A step of a chain without the name of the filter, and the factor that it is read as. -/
def ReadsAsFactor (step : String) (factor : ℚ) : Prop :=
  ',' ∉ step.toList ∧ (magnitudeOf? step.toList).map Decimal.value = some factor

theorem isPrefixOf?_append (first rest : List Char) :
    first.isPrefixOf? (first ++ rest) = some rest := by
  induction first with
  | nil => rfl
  | cons c first ih => rw [List.cons_append, List.isPrefixOf?, if_pos (beq_self_eq_true c), ih]

/-- A step with the name of the filter before it is read as its factor. -/
theorem tempoFactor?_append {step : String} {factor : ℚ} (h : ReadsAsFactor step factor) :
    tempoFactor? ("atempo=" ++ step).toList = some factor := by
  rw [tempoFactor?, String.toList_append, isPrefixOf?_append]
  exact h.2

/-- No step has a comma in it. -/
theorem comma_not_mem {steps : List String} {factors : List ℚ}
    (h : List.Forall₂ ReadsAsFactor steps factors) :
    ∀ step ∈ steps, ',' ∉ ("atempo=" ++ step).toList := by
  induction h with
  | nil => exact List.forall_mem_nil _
  | cons hreads _ ih =>
    refine List.forall_mem_cons.2 ⟨?_, ih⟩
    rw [String.toList_append]
    exact List.not_mem_append (by decide) hreads.1

/-- Steps that are joined by commas are read one by one. -/
theorem tempoFactors?_intercalate {steps : List String} {factors : List ℚ} (hne : steps ≠ [])
    (h : List.Forall₂ ReadsAsFactor steps factors) :
    tempoFactors? (",".intercalate (steps.map ("atempo=" ++ ·))) = some factors := by
  have hcomma : ∀ step ∈ (steps.map ("atempo=" ++ ·)).map String.toList, ',' ∉ step := by
    rw [List.map_map, List.forall_mem_map]
    exact comma_not_mem h
  rw [tempoFactors?, Text.pieces_eq, String.toList_intercalate, ← List.splitOn_eq_splitOnP]
  refine (congrArg _ (List.splitOn_intercalate ',' hcomma (by simpa using hne))).trans ?_
  clear hne hcomma
  induction h with
  | nil => rfl
  | cons hreads _ ih =>
    rw [List.map_cons, List.map_cons, List.mapM_cons, tempoFactor?_append hreads, ih]
    rfl

/-! ### The last factor -/

section

variable {α : Type} [Scalar α] {x : α} {q : ℚ}

/-- A scalar within the range of a single change is written as a factor within this range, half a
thousandth away at most. -/
theorem reads_fixed (hx : denote x = .finite false q) (hlow : 1 / 2 ≤ q) (hhigh : q ≤ 2) :
    ∃ factor, ReadsAsFactor (fixed 3 x) factor ∧ (1 / 2 ≤ factor ∧ factor ≤ 2) ∧
      |factor - q| ≤ 1 / 2000 := by
  have hq : 0 ≤ q := by linarith
  have htext : (fixed 3 x).toList = (Decimal.places 3 q.num.natAbs q.den).positional := by
    rw [toList_fixed 3 hx]
    rfl
  have hplaces : (Decimal.places 3 q.num.natAbs q.den).exponent < 0 := by
    show (-3 : ℤ) < 0
    decide
  refine ⟨(Decimal.places 3 q.num.natAbs q.den).value, ⟨?_, ?_⟩, ⟨?_, ?_⟩, ?_⟩
  · rw [htext]
    exact fun hcomma ↦ absurd (Decimal.isDigit_or_eq_of_mem_positional hcomma) (by decide)
  · rw [htext, Decimal.magnitudeOf?_positional hplaces]
    rfl
  · have := Decimal.le_value_places 3 500 hq (by norm_num; linarith)
    norm_num at this
    linarith
  · have := Decimal.value_places_le 3 2000 hq (by norm_num; linarith)
    norm_num at this
    linarith
  · have := Decimal.abs_value_places_sub_le hq 3
    norm_num at this ⊢
    linarith

/-! ### The chain -/

variable [HalvingScalar α] {speed : α} {negative : Bool} {magnitude : ℚ}

/-- A speed is held within a quarter and four. -/
theorem denote_clampedSpeed (h : denote speed = .finite negative magnitude) :
    denote (clamp leastSpeed greatestSpeed speed) =
      .finite false (max (1 / 4) (min 4 (withSign negative magnitude))) :=
  Scalar.denote_clamp HalvingScalar.denote_quarter HalvingScalar.denote_four (by norm_num)
    (by norm_num) h (HalvingScalar.magnitude_nonneg _ _ _ h)

/-- The first loop goes on above two. -/
theorem two_lt_iff (hx : denote x = .finite false q) : 2.0 < x ↔ 2 < q :=
  Scalar.lt_iff_of_denote HalvingScalar.denote_two hx

/-- The second loop goes on below a half. -/
theorem lt_half_iff (hx : denote x = .finite false q) : x < 0.5 ↔ q < 1 / 2 :=
  Scalar.lt_iff_of_denote hx HalvingScalar.denote_half

/-- One factor is a chain if it is in range and near enough. -/
theorem isTempoChain_singleton {f : ℚ} (hrange : 1 / 2 ≤ f ∧ f ≤ 2) (hclose : |f - q| ≤ 1 / 2000) :
    IsTempoChain [f] q where
  ne_nil := List.cons_ne_nil _ _
  range := List.forall_mem_singleton.2 hrange
  ends := .inl (List.forall_mem_nil _)
  close := by
    rw [List.prod_singleton]
    linarith

/-- An end of the range before the last factor scales what the last one is wrong by. -/
theorem isTempoChain_pair {e f : ℚ} (he : e = 2 ∨ e = 1 / 2) (hrange : 1 / 2 ≤ f ∧ f ≤ 2)
    (hclose : |f - q / e| ≤ 1 / 2000) : IsTempoChain [e, f] q where
  ne_nil := List.cons_ne_nil _ _
  range := by
    refine List.forall_mem_cons.2 ⟨?_, List.forall_mem_singleton.2 hrange⟩
    rcases he with rfl | rfl <;> norm_num
  ends := he.imp List.forall_mem_singleton.2 List.forall_mem_singleton.2
  close := by
    have hne : e ≠ 0 := by rcases he with rfl | rfl <;> norm_num
    have hsize : |e| ≤ 2 := by rcases he with rfl | rfl <;> norm_num [abs_le]
    calc |[e, f].prod - q| = |e * (f - q / e)| := by
          rw [List.prod_pair, mul_sub, mul_div_cancel₀ _ hne]
      _ = |e| * |f - q / e| := abs_mul _ _
      _ ≤ 2 * (1 / 2000) := mul_le_mul hsize hclose (abs_nonneg _) zero_le_two
      _ = 1 / 1000 := by norm_num

omit [HalvingScalar α] in
/-- Steps that the loops make, and that are read as a chain. -/
theorem realizesTempo_of_steps {twos halves : List String} {middle last : α} {factors : List ℚ}
    {value : ℚ}
    (hdown : LoopRun (2.0 < ·) (· / 2.0) "2.0" (clamp leastSpeed greatestSpeed speed) twos middle)
    (hup : LoopRun (· < 0.5) (· / 0.5) "0.5" middle halves last)
    (hsteps : tempoSteps speed = twos ++ halves ++ [fixed 3 last])
    (hreads : List.Forall₂ ReadsAsFactor (twos ++ halves ++ [fixed 3 last]) factors)
    (hchain : IsTempoChain factors (max (1 / 4) (min 4 value))) : RealizesTempo speed value where
  loops := ⟨twos, middle, halves, last, hdown, hup, hsteps⟩
  chain := by
    refine ⟨factors, ?_, hchain⟩
    rw [tempoFilter, hsteps]
    exact tempoFactors?_intercalate (List.append_ne_nil_of_right_ne_nil _ (List.cons_ne_nil _ _))
      hreads

/-- A chain of tempo changes comes to the speed that it is made for. -/
theorem realizesTempo (h : denote speed = .finite negative magnitude) :
    RealizesTempo speed (withSign negative magnitude) := by
  have hx := denote_clampedSpeed h
  have hlow : 1 / 4 ≤ max (1 / 4) (min 4 (withSign negative magnitude)) := le_max_left _ _
  have hhigh : max (1 / 4) (min 4 (withSign negative magnitude)) ≤ 4 :=
    max_le (by norm_num) (min_le_left _ _)
  have htwo : ReadsAsFactor "2.0" 2 := ⟨by decide, by decide +kernel⟩
  have hhalf : ReadsAsFactor "0.5" (1 / 2) := ⟨by decide, by decide +kernel⟩
  by_cases habove : 2.0 < clamp leastSpeed greatestSpeed speed
  · -- one round of the first loop
    have hq := (two_lt_iff hx).1 habove
    have hlast := HalvingScalar.denote_div_two _ _ hx hlow hhigh
    obtain ⟨f, hreads, hrange, hclose⟩ := reads_fixed hlast (by linarith) (by linarith)
    refine realizesTempo_of_steps (.again habove (.done ?_)) (.done ?_) (if_pos habove)
      (.cons htwo (.cons hreads .nil)) (isTempoChain_pair (.inl rfl) hrange hclose)
    · rw [two_lt_iff hlast]
      linarith
    · rw [lt_half_iff hlast]
      linarith
  by_cases hbelow : clamp leastSpeed greatestSpeed speed < 0.5
  · -- one round of the second loop
    have hq := (lt_half_iff hx).1 hbelow
    have hlast := HalvingScalar.denote_div_half _ _ hx hlow hhigh
    obtain ⟨f, hreads, hrange, hclose⟩ := reads_fixed hlast (by linarith) (by linarith)
    refine realizesTempo_of_steps (.done habove) (.again hbelow (.done ?_))
      ((if_neg habove).trans (if_pos hbelow)) (.cons hhalf (.cons hreads .nil))
      (isTempoChain_pair (.inr rfl) hrange ?_)
    · rw [lt_half_iff hlast]
      linarith
    · rwa [div_div_eq_mul_div, div_one]
  · -- no round
    have hle := (two_lt_iff hx).not.1 habove
    have hge := (lt_half_iff hx).not.1 hbelow
    obtain ⟨f, hreads, hrange, hclose⟩ := reads_fixed hx (not_lt.1 hge) (not_lt.1 hle)
    exact realizesTempo_of_steps (.done habove) (.done hbelow)
      ((if_neg habove).trans (if_neg hbelow)) (.cons hreads .nil)
      (isTempoChain_singleton hrange hclose)

/-- A speed just below four, whose last factor is rounded up to the end of the range. -/
theorem realizesTempo_nearFour :
    denote (3.9996 : Float) = .finite false (Binary64.toRat (Binary64.magnitude 3.9996)) ∧
      tempoFilter (3.9996 : Float) = "atempo=2.0,atempo=2.000" ∧
        RealizesTempo (3.9996 : Float)
          (withSign false (Binary64.toRat (Binary64.magnitude 3.9996))) := by
  have hdenote : denote (3.9996 : Float) =
      .finite false (Binary64.toRat (Binary64.magnitude 3.9996)) := by decide +kernel
  exact ⟨hdenote, by decide +kernel, realizesTempo hdenote⟩

end

end Splice
