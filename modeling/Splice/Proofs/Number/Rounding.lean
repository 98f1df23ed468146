import Splice.Proofs.Number.Exact
import Splice.Proofs.Number.Finite

/-!
# Scalars that round to zero

A time is counted in frames by rounding it to the nearest integer, a half away from zero, and
cutting the result to a word. `RoundingScalar` says when this count is zero: exactly if the time is
less than a half on both sides. A value that is no number counts as zero too.

For exact scalars this is arithmetic of rationals. For doubles the count is made from a double
again, which need not be the integer that was meant; it is enough that a double made from a positive
integer denotes one or more (`AtLeastOne`). As long as mantissas are full, every rounding on the way
keeps the place of the first bit (`full_round`, `full_mul`).
-/

namespace Splice

/-- Scalars that are rounded as the numbers they denote are. -/
class RoundingScalar (α : Type) [Scalar α] : Prop extends LawfulScalar α where
  toInt64_round_eq_zero_iff (x : α) :
    Scalar.toInt64 (Scalar.round x) = 0 ↔ ¬ 0.5 ≤ x ∧ ¬ x ≤ -0.5
  zero_lt_twentieth : (0.0 : α) < 0.05

/-- A magnitude is cut to zero if it is less than one. -/
theorem Denotation.truncateWithin_eq_zero_iff {low high : ℤ} {negative : Bool} {magnitude : ℚ}
    (hlow : low < 0) (hhigh : 0 < high) (h : 0 ≤ magnitude) :
    (finite negative magnitude).truncateWithin low high = 0 ↔ magnitude < 1 := by
  have hnonneg : 0 ≤ magnitude.floor := Rat.le_floor_iff.2 (by exact_mod_cast h)
  have hone : 1 ≤ magnitude.floor ↔ 1 ≤ magnitude := by
    rw [Rat.le_floor_iff]
    norm_num
  rw [← not_le, ← hone]
  cases negative with
  | false =>
    show max low (min high magnitude.floor) = 0 ↔ _
    omega
  | true =>
    show max low (min high (-magnitude.floor)) = 0 ↔ _
    omega

/-- Finite denotations are ordered by their rationals. -/
theorem Denotation.place?_finite_le_iff {s t : Bool} {m n : ℚ} :
    (∃ p ∈ (finite s m).place?, ∃ q ∈ (finite t n).place?, p ≤ q) ↔
      withSign s m ≤ withSign t n := by
  simp only [place?, Option.mem_some_iff, exists_eq_left', WithBot.coe_le_coe, WithTop.coe_le_coe]

/-- A half is rounded up to one. -/
theorem one_le_floor_add_half_iff {x : ℚ} : 1 ≤ (x + 1 / 2).floor ↔ 1 / 2 ≤ x := by
  rw [Rat.le_floor_iff]
  push_cast
  constructor <;> intro <;> linarith

/-! ### Exact scalars -/

namespace Exact

/-- A rational is rounded to zero if it is less than a half on both sides. -/
theorem nearest_eq_zero_iff {x : ℚ} : nearest x = 0 ↔ ¬ 1 / 2 ≤ x ∧ ¬ x ≤ -(1 / 2) := by
  rw [nearest]
  split_ifs with h
  · have hzero : 0 ≤ (-x + 1 / 2).floor := Rat.le_floor_iff.2 (by push_cast; linarith)
    rw [and_iff_right (by linarith), le_neg, ← one_le_floor_add_half_iff]
    omega
  · have hzero : 0 ≤ (x + 1 / 2).floor := Rat.le_floor_iff.2 (by push_cast; linarith)
    rw [and_iff_left (by linarith), ← one_le_floor_add_half_iff]
    omega

/-- Only zero is cut to zero. -/
theorem toInt64_ofInt_eq_zero_iff (n : ℤ) : Scalar.toInt64 (number n) = 0 ↔ n = 0 := by
  rw [Scalar.toInt64, denote_number,
    Denotation.truncateWithin_eq_zero_iff (by decide) (by decide) (abs_nonneg _)]
  norm_cast
  exact Int.abs_lt_one_iff

theorem half_eq : (0.5 : Exact) = number (1 / 2) := by
  rw [ofScientific_eq]
  norm_num

instance : RoundingScalar Exact where
  toInt64_round_eq_zero_iff x := by
    rcases x with - | (- | -) | q
    case number =>
      rw [round_number, toInt64_ofInt_eq_zero_iff, nearest_eq_zero_iff, half_eq, number_neg,
        number_le, number_le]
    all_goals decide +kernel
  zero_lt_twentieth := by decide +kernel

end Exact

/-! ### Doubles -/

namespace Binary64

open Float.Model Float.Model.UnpackedFloat

/-- An infinity, or a finite unpacked double whose first bit stands at one or above. -/
def AtLeastOne (u : UnpackedFloat) : Prop := Full (-52) 971 u ∨ ∃ s, u = .infinity s

/-- An infinity survives being packed. -/
theorem unpack_packedInfinity (s : Sign) :
    UnpackedFloat.unpack .binary64 (packedInfinity .binary64 s) = .infinity s := by
  cases s <;> rfl

/-- Packing keeps the first bit in its place, or gives an infinity. -/
theorem atLeastOne_unpack_pack {high : ℤ} {u : UnpackedFloat} (h : Full (-52) high u) :
    AtLeastOne (UnpackedFloat.unpack .binary64 (UnpackedFloat.pack .binary64 u)) := by
  cases u with
  | notANumber | infinity s | zero s => exact h.elim
  | finite s m e hm =>
    obtain ⟨hlog, hlow, -⟩ := h
    rcases le_or_gt e 971 with hle | hlarge
    · exact .inl (full_unpack_pack (by decide) le_rfl ⟨hlog, hlow, hle⟩)
    · have hbias : (Format.binary64.exponentBias : ℤ) + (52 : ℕ) = 1075 := rfl
      have hfield : 2 ^ 11 ≤ (e + Format.binary64.exponentBias + (52 : ℕ)).toNat + 1 := by omega
      have hpack : UnpackedFloat.pack .binary64 (.finite s m e hm) = packedInfinity .binary64 s :=
        if_pos hfield
      exact .inr ⟨s, by rw [hpack, unpack_packedInfinity]⟩

/-- What denotes one or more is not cut to zero. -/
theorem toInt64_ne_zero {x : Float} (h : AtLeastOne x.toModel.unpack) : Scalar.toInt64 x ≠ 0 := by
  show (denote x).truncateWithin _ _ ≠ 0
  rw [denote_eq]
  obtain h | ⟨s, hs⟩ := h
  · generalize x.toModel.unpack = u at h
    cases u with
    | notANumber | infinity s | zero s => exact h.elim
    | finite s m e hm =>
      obtain ⟨hlog, hlow, -⟩ := h
      have hmantissa : (2 : ℚ) ^ 52 ≤ m := by
        exact_mod_cast hlog ▸ Nat.log2_self_le hm.ne'
      have hone : (1 : ℚ) ≤ m * 2 ^ e := calc
        (1 : ℚ) = 2 ^ 52 * 2 ^ (-52 : ℤ) := by norm_num
        _ ≤ m * 2 ^ e := mul_le_mul hmantissa (zpow_le_zpow_right₀ one_le_two hlow)
          (by positivity) (by positivity)
      rw [denoteUnpacked, Ne,
        Denotation.truncateWithin_eq_zero_iff (by decide) (by decide) (by positivity)]
      exact not_lt.2 hone
  · rw [hs]
    cases s <;> decide

/-! #### Full mantissas -/

/-- Rounding a mantissa of any length leaves a full one. -/
theorem full_round {low high : ℤ} (s : Sign) {m : ℕ} {e : ℤ} (hm : m ≠ 0) (hlow : -1074 ≤ low)
    (hle : low ≤ m.log2 + e - 52) (hlt : m.log2 + e - 52 < high) :
    Full low high (UnpackedFloat.round .binary64 s m e) := by
  have htarget (t : ℤ) : Format.binary64.targetExponent t = max (t - 53) (-1074) := rfl
  simp only [UnpackedFloat.round, decreaseExponent, htarget, totalExponent]
  have hlog := log2_shiftLeft hm (e - max (m.log2 + 1 + e - 53) (-1074)).toNat
  exact full_roundWithAccuracy s .exact (by omega) hlow (by omega) (by omega)

/-- So does normalizing a positive integer. -/
theorem full_normalize {low high : ℤ} (s : Sign) {n : ℕ} {e : ℤ} (hn : n ≠ 0) (hlow : -1074 ≤ low)
    (hle : low ≤ n.log2 + e - 52) (hlt : n.log2 + e - 52 < high) :
    Full low high (normalize .binary64 n e s) := by
  have hpos : compare (n : ℤ) 0 = .gt := compare_gt_iff_gt.2 (by omega)
  rw [UnpackedFloat.normalize, hpos]
  exact full_round _ hn hlow hle hlt

/-- A product has all bits of both factors, but for one. -/
theorem le_log2_mul {m n : ℕ} (hm : m ≠ 0) (hn : n ≠ 0) : m.log2 + n.log2 ≤ (m * n).log2 := by
  rw [Nat.le_log2 (Nat.mul_ne_zero hm hn), pow_add]
  exact Nat.mul_le_mul (Nat.log2_self_le hm) (Nat.log2_self_le hn)

/-- A product of full mantissas is full, with an exponent that the bounds of both factors allow. -/
theorem full_mul {low₁ high₁ low₂ high₂ : ℤ} {u v : UnpackedFloat} (hu : Full low₁ high₁ u)
    (hv : Full low₂ high₂ v) (hlow : -1074 ≤ low₁ + low₂ + 52) :
    Full (low₁ + low₂ + 52) (high₁ + high₂ + 54) (UnpackedFloat.mul .binary64 u v) := by
  cases u with
  | notANumber | infinity s | zero s => exact hu.elim
  | finite s m e hm =>
    cases v with
    | notANumber | infinity s | zero s => exact hv.elim
    | finite t n f hn =>
      obtain ⟨hlogm, hlem, hgem⟩ := hu
      obtain ⟨hlogn, hlen, hgen⟩ := hv
      have hge := le_log2_mul hm.ne' hn.ne'
      have hle := log2_mul_le m n
      exact full_roundWithAccuracy _ .exact (by omega) hlow (by omega) (by omega)

/-! #### Whole doubles -/

/-- A positive word has a full mantissa. -/
theorem full_toFloat {n : UInt64} (h : n.toNat ≠ 0) :
    Full (-52) 12 n.toFloat.toModel.unpack := by
  have hlog : n.toNat.log2 ≤ 63 := log2_le_of_lt n.toNat_lt
  exact full_unpack_pack (by decide) (by decide)
    (full_normalize _ h (by decide) (by omega) (by omega))

/-- A double made from a positive integer denotes one or more. -/
theorem atLeastOne_ofNat {n : ℕ} (h : n ≠ 0) : AtLeastOne (Float.ofNat n).toModel.unpack := by
  show AtLeastOne (Float.ofScientific n false 0).toModel.unpack
  rw [Float.ofScientific]
  simp only [Bool.false_eq_true, if_false]
  split_ifs with hfast
  · -- below the limit of exact doubles: the integer as a word, times the power of ten that is one
    have hword : n.toUInt64.toNat = n := by
      show n % 2 ^ 64 = n
      omega
    have hunit : Full (-52) (-52) (Float.exactlyRepresentablePowersOfTen[0]).toModel.unpack := by
      decide +kernel
    have hmul := full_mul (full_toFloat (hword ▸ h)) hunit (by decide)
    exact atLeastOne_unpack_pack hmul
  · have hlog : (n <<< 53 * 10 ^ 0).log2 = n.log2 + 53 := by
      rw [Nat.pow_zero, Nat.mul_one, log2_shiftLeft h]
    have hfull : Full (-52) (n.log2 + 1) (UnpackedFloat.ofScientific .binary64 n (0 : ℕ)) := by
      rw [ofScientific_eq h (by decide)]
      generalize n <<< 53 * 10 ^ 0 = m at hlog
      exact full_roundWithAccuracy _ .exact (by omega) (by decide) (by omega) (by omega)
    exact atLeastOne_unpack_pack hfull

/-- The sign does not matter to where the first bit stands. -/
theorem atLeastOne_neg {x : Float} (h : AtLeastOne x.toModel.unpack) :
    AtLeastOne (-x).toModel.unpack := by
  show AtLeastOne (UnpackedFloat.unpack .binary64 (UnpackedFloat.pack .binary64
    x.toModel.unpack.neg))
  obtain h | ⟨s, hs⟩ := h
  · generalize x.toModel.unpack = u at h
    cases u with
    | notANumber | infinity s | zero s => exact h.elim
    | finite s m e hm => exact atLeastOne_unpack_pack (u := .finite _ m e hm) h
  · rw [hs]
    exact .inr ⟨_, unpack_packedInfinity _⟩

/-- A whole double counts zero only if it was made from zero. -/
theorem toInt64_whole_eq_zero_iff (negative : Bool) (n : ℕ) :
    Scalar.toInt64 (whole negative n) = 0 ↔ n = 0 := by
  constructor
  · intro hzero
    by_contra hn
    have hlarge := atLeastOne_ofNat hn
    cases negative with
    | false => exact toInt64_ne_zero hlarge hzero
    | true => exact toInt64_ne_zero (atLeastOne_neg hlarge) hzero
  · rintro rfl
    cases negative <;> decide +kernel

/-! #### Rounding -/

/-- Magnitudes are not negative. -/
theorem magnitude_nonneg {x : Float} {negative : Bool} {m : ℚ} (h : denote x = .finite negative m) :
    0 ≤ m := by
  rw [denote_eq] at h
  generalize x.toModel.unpack = u at h
  cases u with
  | notANumber | infinity s => cases h
  | zero s =>
    obtain ⟨-, rfl⟩ := Denotation.finite.inj h
    exact le_rfl
  | finite s k e hk =>
    obtain ⟨-, rfl⟩ := Denotation.finite.inj h
    positivity

theorem floor_add_half_toNat_eq_zero_iff (m : ℚ) :
    (m + 1 / 2).floor.toNat = 0 ↔ m < 1 / 2 := by
  rw [← not_le, ← one_le_floor_add_half_iff]
  omega

/-- A double counts zero frames if it is less than a half on both sides. -/
theorem toInt64_round_eq_zero_iff (x : Float) :
    Scalar.toInt64 (Scalar.round x) = 0 ↔ ¬ 0.5 ≤ x ∧ ¬ x ≤ -0.5 := by
  have hhalf : denote 0.5 = .finite false (1 / 2) := by decide +kernel
  have hminus : denote (-0.5) = .finite true (1 / 2) := by decide +kernel
  have hround : Scalar.round x = round x := rfl
  rw [le_iff, le_iff, hround, round, hhalf, hminus]
  -- what is no number counts zero frames and compares with nothing; an infinity is held at an end
  -- of the word
  cases hx : denote x with
  | nan =>
    have hzero : Scalar.toInt64 x = 0 := by
      show (denote x).truncateWithin _ _ = 0
      rw [hx]
      rfl
    simp [hzero, Denotation.place?]
  | infinite negative =>
    have hend : Scalar.toInt64 x ≠ 0 := by
      show (denote x).truncateWithin _ _ ≠ 0
      rw [hx]
      cases negative <;> decide
    cases negative <;> simp [hend, Denotation.place?]
  | finite negative m =>
    have hnonneg := magnitude_nonneg hx
    have hcount : Scalar.toInt64 (whole negative (m + 1 / 2).floor.toNat) = 0 ↔ m < 1 / 2 := by
      rw [toInt64_whole_eq_zero_iff, floor_add_half_toNat_eq_zero_iff]
    show Scalar.toInt64 (whole negative _) = 0 ↔ _
    rw [hcount, Denotation.place?_finite_le_iff, Denotation.place?_finite_le_iff]
    cases negative with
    | false =>
      show m < 1 / 2 ↔ ¬ 1 / 2 ≤ m ∧ ¬ m ≤ -(1 / 2)
      rw [not_le, and_iff_left (by linarith)]
    | true =>
      show m < 1 / 2 ↔ ¬ 1 / 2 ≤ -m ∧ ¬ -m ≤ -(1 / 2)
      rw [neg_le_neg_iff, ← not_le, and_iff_right (by linarith)]

instance : RoundingScalar Float where
  toInt64_round_eq_zero_iff := toInt64_round_eq_zero_iff
  zero_lt_twentieth := by decide +kernel

end Binary64

end Splice
