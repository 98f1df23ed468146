import Splice.Json.Record
import Splice.Proofs.Number.Doubles

/-!
# Numbers of a document are finite

Whatever number a document holds, the double that it is read as is finite
(`isFinite_of_scalar?`): a significand of 64 bits is one, and it only gets smaller where it is
divided by a power of ten; where it is multiplied, the reading checks for itself.

That no overflow occurs is followed through the rounding of unpacked doubles by a bound on the
exponent (`Bounded`). A rounding adds at most one bit to the mantissa, so a bound on the position of
the first bit is enough for it (`bounded_roundWithAccuracy`). For a quotient the divisor must not be
too small either: the powers of ten have full mantissas, with bounds on both sides of their
exponents (`full_powerOfTen`).
-/

namespace Splice.Binary64

open Float.Model Float.Model.UnpackedFloat

/-! ### Bit lengths -/

theorem log2_mono {m n : ℕ} (h : m ≤ n) : m.log2 ≤ n.log2 := by
  rw [Nat.log2_eq_log_two, Nat.log2_eq_log_two]
  exact Nat.log_mono_right h

theorem log2_le_of_lt {n k : ℕ} (h : n < 2 ^ (k + 1)) : n.log2 ≤ k := by
  rcases Nat.eq_zero_or_pos n with rfl | hn
  · simp
  · exact Nat.le_of_lt_succ ((Nat.log2_lt hn.ne').2 h)

/-- Counting up adds at most one bit. -/
theorem log2_succ_le (n : ℕ) : (n + 1).log2 ≤ n.log2 + 1 := by
  rcases Nat.eq_zero_or_pos n with rfl | hn
  · decide
  · calc (n + 1).log2 ≤ (2 * n).log2 := log2_mono (by omega)
      _ = n.log2 + 1 := Nat.log2_two_mul hn.ne'

/-- Dividing by a power of two drops bits. -/
theorem log2_div_pow (n k : ℕ) : (n / 2 ^ k).log2 = n.log2 - k := by
  rw [Nat.log2_eq_log_two, Nat.log2_eq_log_two, Nat.log_div_base_pow]

theorem log2_shiftLeft {m : ℕ} (hm : m ≠ 0) (k : ℕ) : (m <<< k).log2 = m.log2 + k := by
  induction k with
  | zero => rfl
  | succ k ih =>
    have hne : m <<< k ≠ 0 := by simp [Nat.shiftLeft_eq, hm]
    rw [Nat.shiftLeft_succ, Nat.log2_two_mul hne, ih, Nat.add_assoc]

/-- Shifting adds as many bits as it says, except to zero. -/
theorem log2_shiftLeft_le (m k : ℕ) : (m <<< k).log2 ≤ m.log2 + k := by
  rcases eq_or_ne m 0 with rfl | hm
  · simp
  · exact (log2_shiftLeft hm k).le

/-- A product has at most the bits of both factors. -/
theorem log2_mul_le (m n : ℕ) : (m * n).log2 ≤ m.log2 + n.log2 + 1 := by
  rcases Nat.eq_zero_or_pos (m * n) with h | h
  · rw [h]
    simp
  · have hlt : m * n < 2 ^ (m.log2 + n.log2 + 1 + 1) := calc
      m * n < 2 ^ (m.log2 + 1) * 2 ^ (n.log2 + 1) :=
        Nat.mul_lt_mul'' Nat.lt_log2_self Nat.lt_log2_self
      _ = 2 ^ (m.log2 + n.log2 + 1 + 1) := by rw [← pow_add]; congr 1; omega
    exact log2_le_of_lt hlt

/-- A quotient has at most the bits that the divisor leaves, and one more. -/
theorem log2_div_le (m n : ℕ) : (m / n).log2 ≤ m.log2 - n.log2 := by
  rcases Nat.eq_zero_or_pos n with rfl | hn
  · simp
  · calc (m / n).log2 ≤ (m / 2 ^ n.log2).log2 :=
          log2_mono (Nat.div_le_div_left (Nat.log2_self_le hn.ne') (by positivity))
      _ = m.log2 - n.log2 := log2_div_pow _ _

/-! ### Rounding -/

/-- A zero, or a finite unpacked double whose exponent has a bound. -/
def Bounded (k : ℤ) : UnpackedFloat → Prop
  | .zero _ => True
  | .finite _ _ e _ => e ≤ k
  | _ => False

/-- Bits that are shifted out are dropped from the mantissa. -/
theorem mantissa_shiftRight (em : ExtendedMantissa) (n : ℕ) :
    (em >>> n).mantissa = em.mantissa / 2 ^ n := by
  show (n.repeat ExtendedMantissa.shiftRightOne em).mantissa = _
  induction n with
  | zero => simp [Nat.repeat]
  | succ n ih =>
    rw [Nat.repeat, ExtendedMantissa.shiftRightOne, ih, Nat.div_div_eq_div_mul, ← pow_succ]

/-- Rounding counts up by one at most. -/
theorem roundedMantissa_le (em : ExtendedMantissa) : em.roundedMantissa ≤ em.mantissa + 1 := by
  rw [ExtendedMantissa.roundedMantissa]
  rcases em.accuracy with - | - | - | - <;> simp [Accuracy.roundToNearestEven]
  omega

/-- And it never counts down. -/
theorem le_roundedMantissa (em : ExtendedMantissa) : em.mantissa ≤ em.roundedMantissa := by
  rw [ExtendedMantissa.roundedMantissa]
  rcases em.accuracy with - | - | - | - <;> simp [Accuracy.roundToNearestEven]

theorem mantissa_ofMantissaAndAccuracy (m : ℕ) (acc : Accuracy) :
    (ExtendedMantissa.ofMantissaAndAccuracy m acc).mantissa = m := by
  rcases acc with - | - | - | - <;> rfl

/-- A shift to the exponent that fits a mantissa keeps bounds on the exponent and the first bit. -/
theorem shiftToTargetExponent_le {j k : ℤ} {m : ℕ} {e : ℤ} (acc : Accuracy) (hk : -1074 ≤ k)
    (he : e ≤ k) (hm : m.log2 + e ≤ j) (hj : j ≤ k + 52) :
    (shiftToTargetExponent .binary64 m e acc).2 ≤ k ∧
      (shiftToTargetExponent .binary64 m e acc).1.mantissa.log2 +
        (shiftToTargetExponent .binary64 m e acc).2 ≤ max j k := by
  have htarget (t : ℤ) : Format.binary64.targetExponent t = max (t - 53) (-1074) := rfl
  simp only [shiftToTargetExponent, shiftToExponent, htarget, totalExponent, mantissa_shiftRight,
    mantissa_ofMantissaAndAccuracy, log2_div_pow]
  omega

/-- Rounding keeps a bound on the exponent, if the first bit may still move up by one. -/
theorem bounded_roundWithAccuracy {k : ℤ} (s : Sign) {m : ℕ} {e : ℤ} (acc : Accuracy)
    (hk : -1074 ≤ k) (he : e ≤ k) (hm : m.log2 + e ≤ k + 51) :
    Bounded k (roundWithAccuracy .binary64 s m e acc) := by
  obtain ⟨he₁, hm₁⟩ := shiftToTargetExponent_le acc hk he hm (by omega)
  simp only [roundWithAccuracy]
  generalize shiftToTargetExponent .binary64 m e acc = shifted at he₁ hm₁
  have hround := (log2_mono (roundedMantissa_le shifted.1)).trans
    (log2_succ_le shifted.1.mantissa)
  obtain ⟨he₂, -⟩ := shiftToTargetExponent_le .exact hk he₁ (j := k + 52)
    (m := shifted.1.roundedMantissa) (by omega) le_rfl
  split_ifs with h
  · trivial
  · exact he₂

/-- Rounding an exact mantissa keeps the bound. -/
theorem bounded_round {k : ℤ} (s : Sign) {m : ℕ} {e : ℤ} (hk : -1074 ≤ k)
    (hm : m.log2 + e ≤ k + 51) : Bounded k (UnpackedFloat.round .binary64 s m e) := by
  have htarget (t : ℤ) : Format.binary64.targetExponent t = max (t - 53) (-1074) := rfl
  simp only [UnpackedFloat.round, decreaseExponent, htarget, totalExponent]
  have hlog := log2_shiftLeft_le m (e - max (m.log2 + 1 + e - 53) (-1074)).toNat
  exact bounded_roundWithAccuracy s .exact hk (by omega) (by omega)

/-- So does normalizing a signed one. -/
theorem bounded_normalize {k : ℤ} {n : ℤ} {e : ℤ} (s : Sign) (hk : -1074 ≤ k)
    (hn : n.natAbs.log2 + e ≤ k + 51) : Bounded k (normalize .binary64 n e s) := by
  rw [UnpackedFloat.normalize]
  split
  · rename_i h
    rw [compare_lt_iff_lt] at h
    exact bounded_round _ hk (by rwa [show (-n).toNat = n.natAbs by omega])
  · trivial
  · rename_i h
    rw [compare_gt_iff_gt] at h
    exact bounded_round _ hk (by rwa [show n.toNat = n.natAbs by omega])

/-! ### Full mantissas -/

/-- A finite unpacked double that has all bits of a mantissa, and whose exponent has bounds. -/
def Full (low high : ℤ) : UnpackedFloat → Prop
  | .finite _ m e _ => m.log2 = 52 ∧ low ≤ e ∧ e ≤ high
  | _ => False

instance (low high : ℤ) : DecidablePred (Full low high)
  | .finite _ m e _ => inferInstanceAs (Decidable (m.log2 = 52 ∧ low ≤ e ∧ e ≤ high))
  | .zero _ | .infinity _ | .notANumber => inferInstanceAs (Decidable False)

/-- A mantissa that has enough bits is shifted to the place of its first bit. -/
theorem shiftToTargetExponent_full {m : ℕ} {e : ℤ} (acc : Accuracy) (hm : 52 ≤ m.log2)
    (he : -1022 ≤ m.log2 + e) :
    (shiftToTargetExponent .binary64 m e acc).1.mantissa.log2 = 52 ∧
      (shiftToTargetExponent .binary64 m e acc).2 = m.log2 + e - 52 := by
  have htarget (t : ℤ) : Format.binary64.targetExponent t = max (t - 53) (-1074) := rfl
  simp only [shiftToTargetExponent, shiftToExponent, htarget, totalExponent, mantissa_shiftRight,
    mantissa_ofMantissaAndAccuracy, log2_div_pow]
  omega

/-- Rounding a long mantissa leaves a full one, with its exponent moved up by one at most. -/
theorem full_roundWithAccuracy {low high : ℤ} (s : Sign) {m : ℕ} {e : ℤ} (acc : Accuracy)
    (hm : 52 ≤ m.log2) (hlow : -1074 ≤ low) (hle : low ≤ m.log2 + e - 52)
    (hlt : m.log2 + e - 52 < high) : Full low high (roundWithAccuracy .binary64 s m e acc) := by
  obtain ⟨hm₁, he₁⟩ := shiftToTargetExponent_full acc hm (e := e) (by omega)
  simp only [roundWithAccuracy]
  generalize shiftToTargetExponent .binary64 m e acc = shifted at hm₁ he₁
  have hge := log2_mono (le_roundedMantissa shifted.1)
  have hround := (log2_mono (roundedMantissa_le shifted.1)).trans
    (log2_succ_le shifted.1.mantissa)
  obtain ⟨hm₂, he₂⟩ := shiftToTargetExponent_full .exact (m := shifted.1.roundedMantissa)
    (e := shifted.2) (by omega) (by omega)
  split_ifs with h
  · rw [h] at hm₂
    cases hm₂
  · exact ⟨hm₂, by omega, by omega⟩

/-! ### Products and quotients -/

/-- A product keeps the bound that the exponents and the first bits of its factors allow. -/
theorem bounded_mul {k : ℤ} {s₁ s₂ : Sign} {m₁ m₂ : ℕ} {e₁ e₂ : ℤ} (h₁ : 0 < m₁) (h₂ : 0 < m₂)
    (hk : -1074 ≤ k) (he : e₁ + e₂ ≤ k) (hm : m₁.log2 + m₂.log2 + 1 + (e₁ + e₂) ≤ k + 51) :
    Bounded k (mul .binary64 (.finite s₁ m₁ e₁ h₁) (.finite s₂ m₂ e₂ h₂)) := by
  have hlog := log2_mul_le m₁ m₂
  exact bounded_roundWithAccuracy _ _ hk he (by omega)

/-- A quotient of a finite double by one that is ten or more is no greater. -/
theorem bounded_div {s₁ : Sign} {m₁ : ℕ} {e₁ : ℤ} (h₁ : 0 < m₁) {v : UnpackedFloat}
    (hnormal : Normal m₁ e₁) (hv : Full (-49) 971 v) :
    Bounded 971 (UnpackedFloat.div .binary64 (.finite s₁ m₁ e₁ h₁) v) := by
  cases v with
  | infinity s | zero s | notANumber => exact hv.elim
  | finite s₂ m₂ e₂ h₂ =>
    obtain ⟨hm₂, he₂, -⟩ := hv
    have hm₁ : m₁.log2 ≤ 52 := log2_le_of_lt hnormal.lt
    have he₁ := hnormal.le_max
    have htarget (t : ℤ) : Format.binary64.targetExponent t = max (t - 53) (-1074) := rfl
    simp only [UnpackedFloat.div, divCore, htarget, totalExponent]
    generalize hn : (e₁ - e₂ - min (e₁ - e₂)
      (max (m₁.log2 + 1 + e₁ - (m₂.log2 + 1 + e₂) - 53) (-1074))).toNat = n
    have hlog : (m₁ <<< n / m₂).log2 ≤ m₁.log2 + n - m₂.log2 :=
      (log2_div_le _ _).trans (Nat.sub_le_sub_right (log2_shiftLeft_le m₁ n) _)
    exact bounded_roundWithAccuracy _ _ (by decide) (by omega) (by omega)

/-! ### Packing -/

/-- Bits are bounded by their exponent field, unless that is the one of what is not finite. -/
theorem bounded_unpack {k : ℤ} (b : BitVec Format.binary64.numBits) (hk : -1074 ≤ k)
    (hne : unpackExponent b ≠ -1#11) (hle : ((unpackExponent b).toNat : ℤ) ≤ k + 1075) :
    Bounded k (UnpackedFloat.unpack .binary64 b) := by
  have hbias : (Format.binary64.exponentBias : ℤ) + (52 : ℕ) = 1075 := rfl
  simp only [UnpackedFloat.unpack, hbias]
  rw [if_neg hne]
  split_ifs with hzero hmantissa
  · trivial
  · rw [hzero]
    exact hk
  · show _ ≤ k
    omega

/-- An exponent that has a place in the format is its own field, and not that of what is not
finite. -/
theorem exponentField_of_lt {n : ℕ} (h : n + 1 < 2 ^ 11) :
    (BitVec.ofNat 11 n).toNat = n ∧ BitVec.ofNat 11 n ≠ -1#11 := by
  have hnat : (BitVec.ofNat 11 n).toNat = n := Nat.mod_eq_of_lt (by omega)
  refine ⟨hnat, ?_⟩
  rw [Ne, ← BitVec.toNat_inj, hnat]
  show n ≠ 2047
  omega

/-- Packing keeps the bound on an exponent that has a place in the format. -/
theorem bounded_unpack_pack {k : ℤ} {u : UnpackedFloat} (hk : -1074 ≤ k) (hmax : k ≤ 971)
    (h : Bounded k u) :
    Bounded k (UnpackedFloat.unpack .binary64 (UnpackedFloat.pack .binary64 u)) := by
  have hbias : (Format.binary64.exponentBias : ℤ) + (52 : ℕ) = 1075 := rfl
  have hzero : ((0#11).toNat : ℤ) ≤ k + 1075 := by
    rw [show (0#11).toNat = 0 from rfl]
    omega
  -- the cases are those of packing; an exponent beyond the format is excluded by the bound, which
  -- leaves normal and subnormal doubles
  fun_cases UnpackedFloat.pack Format.binary64 u with
  | case1 => exact h.elim
  | case2 s => exact h.elim
  | case3 s => exact bounded_unpack _ hk (by simp [packedZero]) (by simpa [packedZero] using hzero)
  | case4 s m e hm biased hb =>
    have he : e ≤ k := h
    have hfield : biased = (e + 1075).toNat := by rw [← hbias, ← add_assoc]
    have hlarge : 2 ^ 11 ≤ biased + 1 := hb
    omega
  | case5 s m e hm bits biased hb hfull =>
    have he : e ≤ k := h
    have hfield : biased = (e + 1075).toNat := by rw [← hbias, ← add_assoc]
    obtain ⟨hnat, hne⟩ := exponentField_of_lt (not_le.1 hb)
    refine bounded_unpack _ hk ?_ ?_
    · rwa [unpackExponent_packComponents]
    · rw [unpackExponent_packComponents, hnat]
      omega
  | case6 s m e hm bits biased hb hfull =>
    refine bounded_unpack _ hk ?_ ?_
    · rw [unpackExponent_packComponents]
      decide
    · rwa [unpackExponent_packComponents]

/-- Packing keeps a full mantissa with an exponent that has a place in the format. -/
theorem full_unpack_pack {low high : ℤ} {u : UnpackedFloat} (hlow : -1074 ≤ low)
    (hhigh : high ≤ 971) (h : Full low high u) :
    Full low high (UnpackedFloat.unpack .binary64 (UnpackedFloat.pack .binary64 u)) := by
  have hbias : (Format.binary64.exponentBias : ℤ) + (52 : ℕ) = 1075 := rfl
  -- a full mantissa is that of a normal double, so all other cases of packing are excluded
  fun_cases UnpackedFloat.pack Format.binary64 u with
  | case1 | case2 s | case3 s => exact h.elim
  | case4 s m e hm biased hb =>
    obtain ⟨-, hle, hge⟩ := h
    have hfield : biased = (e + 1075).toNat := by rw [← hbias, ← add_assoc]
    have hlarge : 2 ^ 11 ≤ biased + 1 := hb
    omega
  | case5 s m e hm bits biased hb hfull =>
    obtain ⟨-, hle, hge⟩ := h
    have hfield : biased = (e + 1075).toNat := by rw [← hbias, ← add_assoc]
    obtain ⟨hnat, hne⟩ := exponentField_of_lt (not_le.1 hb)
    have hpos : BitVec.ofNat 11 biased ≠ 0#11 := by
      rw [Ne, ← BitVec.toNat_inj, hnat]
      show biased ≠ 0
      omega
    simp only [UnpackedFloat.unpack, unpackExponent_packComponents, unpackMantissa_packComponents,
      hbias]
    rw [if_neg hne, if_neg hpos]
    refine ⟨?_, ?_, ?_⟩
    · rw [toNat_append_fraction, Nat.log2_eq_iff (by rw [fractionCount]; omega), fractionCount]
      have := (BitVec.ofNat 52 m).isLt
      omega
    · rw [hnat]
      omega
    · rw [hnat]
      omega
  | case6 s m e hm bits biased hb hfull =>
    refine absurd ?_ hfull
    show m.log2 + 1 = 53
    rw [h.1]

/-- What has a bound is finite. -/
theorem isFinite_of_bounded {x : Float} {k : ℤ} (h : Bounded k x.toModel.unpack) :
    Scalar.isFinite x = true := by
  rw [isFinite_iff]
  revert h
  cases x.toModel.unpack with
  | notANumber | infinity s => exact False.elim
  | zero s | finite s m e hm => exact fun _ ↦ rfl

/-- An unpacked double below the greatest exponent is packed as a finite one. -/
theorem isFinite_ofModel_pack {u : UnpackedFloat} (h : Bounded 971 u) :
    Scalar.isFinite (Float.ofModel (Float.Model.pack u)) = true :=
  isFinite_of_bounded (bounded_unpack_pack (by decide) le_rfl h)

/-! ### Operations -/

/-- A finite double is zero or has a normal mantissa. -/
theorem unpack_cases {x : Float} (h : Scalar.isFinite x = true) :
    (∃ s, x.toModel.unpack = .zero s) ∨
      ∃ s m e, ∃ hm : 0 < m, x.toModel.unpack = .finite s m e hm ∧ Normal m e := by
  rw [isFinite_iff] at h
  have hcanonical := canonical_unpack x
  generalize x.toModel.unpack = u at h hcanonical
  cases hcanonical with
  | notANumber | infinity s => cases h
  | zero s => exact .inl ⟨s, rfl⟩
  | finite s hm hnormal => exact .inr ⟨s, _, _, hm, rfl, hnormal⟩

/-- The opposite of a finite double is finite. -/
theorem isFinite_neg {x : Float} (h : Scalar.isFinite x = true) :
    Scalar.isFinite (-x) = true := by
  have hneg : Bounded 971 x.toModel.unpack.neg := by
    obtain ⟨s, hx⟩ | ⟨s, m, e, hm, hx, hnormal⟩ := unpack_cases h
    · rw [hx]
      trivial
    · rw [hx]
      exact hnormal.le_max
  exact isFinite_ofModel_pack hneg

/-- A product of a natural number and a power of ten is rounded only once. -/
theorem ofScientific_eq {m n : ℕ} (hm : m ≠ 0) (hn : n ≤ 2 ^ 11) :
    UnpackedFloat.ofScientific .binary64 m n =
      roundWithAccuracy .binary64 .positive (m <<< 53 * 10 ^ n) (-53) .exact := by
  have hlarge : ¬ (n : ℤ) > 2 ^ Format.binary64.exponentBits := by
    show ¬ (n : ℤ) > 2 ^ 11
    omega
  have hsmall : ¬ (n : ℤ) < -((2 ^ Format.binary64.exponentBits : ℤ) + m.log2) := by
    show ¬ (n : ℤ) < -(2 ^ 11 + (m.log2 : ℤ))
    omega
  rw [UnpackedFloat.ofScientific, dif_neg hm, if_neg hlarge, if_neg hsmall,
    if_pos (Int.natCast_nonneg n)]
  rfl

theorem log2_shiftLeft_mul (m n : ℕ) : (m <<< 53 * n).log2 ≤ m.log2 + n.log2 + 54 := by
  have hmul := log2_mul_le (m <<< 53) n
  have hshift := log2_shiftLeft_le m 53
  omega

/-- A natural number times a power of ten has the bound that its bits allow. -/
theorem bounded_ofScientific {k : ℤ} {m n : ℕ} (hm : m ≠ 0) (hn : n ≤ 2 ^ 11) (hk : -1074 ≤ k)
    (he : -53 ≤ k) (hlog : m.log2 + (10 ^ n).log2 ≤ k + 50) :
    Bounded k (UnpackedFloat.ofScientific .binary64 m n) := by
  have hfirst := log2_shiftLeft_mul m (10 ^ n)
  rw [ofScientific_eq hm hn]
  exact bounded_roundWithAccuracy _ _ hk he (by omega)

/-- The powers of ten up to the 306th leave room below the greatest exponent. -/
theorem log2_ten_pow_le {n : ℕ} (h : n ≤ 306) : (10 ^ n).log2 ≤ 1022 := by
  have hlt : 10 ^ n < 2 ^ (10 * 102) := calc
    10 ^ n ≤ 10 ^ (3 * 102) := Nat.pow_le_pow_right (by decide) h
    _ = (10 ^ 3) ^ 102 := pow_mul 10 3 102
    _ < (2 ^ 10) ^ 102 := Nat.pow_lt_pow_left (by decide) (by decide)
    _ = 2 ^ (10 * 102) := (pow_mul 2 10 102).symm
  have := (Nat.log2_lt (by positivity)).2 hlt
  omega

/-- The powers of ten that a reading divides by are ten or more, and do not overflow. -/
theorem full_powerOfTen {n : ℕ} (hpos : 0 < n) (hle : n ≤ 308) :
    Full (-49) 971 (Literal.powerOfTen n : Float).toModel.unpack := by
  rcases Nat.lt_or_ge 22 n with hlarge | hsmall
  · rcases Nat.lt_or_ge 306 n with hlast | hn
    · -- here the bound does not leave room for a carry in the rounding
      obtain rfl | rfl : n = 307 ∨ n = 308 := by omega
      · decide +kernel
      · decide +kernel
    · have hlow : 3 ≤ (10 ^ n).log2 := log2_mono (Nat.le_self_pow hpos.ne' 10)
      have hhigh := log2_ten_pow_le hn
      have hlog : (1 <<< 53 * 10 ^ n).log2 = (10 ^ n).log2 + 53 := by
        rw [Nat.shiftLeft_eq, Nat.one_mul, Nat.mul_comm, ← Nat.shiftLeft_eq,
          log2_shiftLeft (by positivity)]
      have hround := ofScientific_eq (m := 1) (n := n) (by decide) (by omega)
      have hpower : (Literal.powerOfTen n : Float) =
          Float.ofModel (Float.Model.pack (UnpackedFloat.ofScientific .binary64 1 n)) :=
        dif_neg (by omega)
      rw [hpower, hround]
      exact full_unpack_pack (by decide) le_rfl
        (full_roundWithAccuracy _ _ (by omega) (by decide) (by omega) (by omega))
  · have htable : ∀ n ≤ 22, 0 < n →
        Full (-49) 971 (Literal.powerOfTen n : Float).toModel.unpack := by
      decide +kernel
    exact htable n hsmall hpos

/-- Dividing by a power of ten does not overflow. -/
theorem isFinite_div_powerOfTen {x : Float} {n : ℕ} (h : Scalar.isFinite x = true) (hpos : 0 < n)
    (hle : n ≤ 308) : Scalar.isFinite (x / Literal.powerOfTen n) = true := by
  have hpower := full_powerOfTen hpos hle
  have hdiv : Bounded 971 (UnpackedFloat.div .binary64 x.toModel.unpack
      (Literal.powerOfTen n : Float).toModel.unpack) := by
    obtain ⟨s, hx⟩ | ⟨s, m, e, hm, hx, hnormal⟩ := unpack_cases h
    · rw [hx]
      generalize (Literal.powerOfTen n : Float).toModel.unpack = u at hpower
      cases u with
      | finite => trivial
      | _ => exact hpower.elim
    · rw [hx]
      exact bounded_div hm hnormal hpower
  exact isFinite_ofModel_pack hdiv

/-! ### Whole numbers -/

/-- A word of 64 bits is far below the greatest exponent. -/
theorem bounded_toFloat (n : UInt64) : Bounded 12 n.toFloat.toModel.unpack := by
  refine bounded_unpack_pack (by decide) (by decide) (bounded_normalize _ (by decide) ?_)
  have hlog : n.toNat.log2 ≤ 63 := log2_le_of_lt n.toNat_lt
  rw [Int.natAbs_natCast]
  omega

/-- A natural number that fits a word is a finite double. -/
theorem isFinite_ofNat {n : ℕ} (h : n < Word.count64) : Scalar.isFinite (Float.ofNat n) = true := by
  show Scalar.isFinite (Float.ofScientific n false 0) = true
  rw [Float.ofScientific]
  simp only [Bool.false_eq_true, if_false]
  -- a number with a short mantissa is scaled as a double, here by one; any other is rounded at once
  split_ifs with hfast
  · have hunit : (Float.exactlyRepresentablePowersOfTen[0]).toModel.unpack =
        .finite .positive (2 ^ 52) (-52) (by decide) := by rfl
    have hbound := bounded_toFloat n.toUInt64
    have hmul : Bounded 971 (UnpackedFloat.mul .binary64 n.toUInt64.toFloat.toModel.unpack
        (Float.exactlyRepresentablePowersOfTen[0]).toModel.unpack) := by
      rw [hunit]
      obtain ⟨s, hx⟩ | ⟨s, m, e, hm, hx, hnormal⟩ := unpack_cases (isFinite_of_bounded hbound)
      · rw [hx]
        trivial
      · rw [hx] at hbound ⊢
        have hlog : m.log2 ≤ 52 := log2_le_of_lt hnormal.lt
        have he : e ≤ 12 := hbound
        refine bounded_mul hm _ (by decide) (by omega) ?_
        rw [Nat.log2_two_pow]
        omega
    exact isFinite_ofModel_pack hmul
  · have hlog : n.log2 ≤ 63 := log2_le_of_lt (k := 63) h
    have hbound : Bounded 971 (UnpackedFloat.ofScientific .binary64 n (0 : ℕ)) :=
      bounded_ofScientific (by omega) (by decide) (by decide) (by decide) (by
        rw [Nat.pow_zero, show Nat.log2 1 = 0 from rfl]
        omega)
    exact isFinite_ofModel_pack hbound

theorem isFinite_ofInt {n : ℤ} (h : n.natAbs < Word.count64) :
    Scalar.isFinite (Float.ofInt n) = true := by
  cases n with
  | ofNat n => exact isFinite_ofNat h
  | negSucc n => exact isFinite_neg (isFinite_ofNat h)

/-! ### Reading -/

/-- A significand that is read fits a word. -/
theorem absorb_lt {significand : ℕ} (h : significand < Word.count64) (digits : List Char) :
    (Literal.absorb significand digits).1 < Word.count64 := by
  induction digits generalizing significand with
  | nil => exact h
  | cons digit rest ih =>
    rw [Literal.absorb]
    split_ifs with hnext
    · exact ih hnext
    · exact h

/-- A finite double that is divided down stays finite. -/
theorem isFinite_shrink {x : Float} {power : ℕ} (h : Scalar.isFinite x = true) (hpos : 0 < power) :
    Scalar.isFinite (Literal.shrink x power) = true := by
  fun_induction Literal.shrink x power with
  | case1 x power hle => exact isFinite_div_powerOfTen h hpos hle
  | case2 x power hlarge hzero => exact h
  | case3 x power hlarge hzero ih =>
    exact ih (isFinite_div_powerOfTen h (by decide) le_rfl) (by omega)

/-- A significand that is scaled by a power of ten is finite, or it is refused. -/
theorem isFinite_of_scaled? {significand : ℕ} {power : ℤ} {x : Float}
    (h : significand < Word.count64) (hx : Literal.scaled? significand power = some x) :
    Scalar.isFinite x = true := by
  have hsignificand : Scalar.isFinite (Scalar.ofNat significand : Float) = true := isFinite_ofNat h
  rw [Literal.scaled?] at hx
  dsimp only at hx
  split_ifs at hx with hneg hle hfinite hzero
  · rw [← Option.some.inj hx]
    exact isFinite_shrink hsignificand (by omega)
  · rwa [← Option.some.inj hx]
  · rwa [← Option.some.inj hx]

/-- So is the magnitude of a literal. -/
theorem isFinite_of_magnitude? {l : Literal} {x : Float} (hx : l.magnitude? = some x) :
    Scalar.isFinite x = true := by
  have hword : (Literal.absorb (Literal.absorb 0 l.whole).1 l.fraction).1 < Word.count64 :=
    absorb_lt (absorb_lt (by decide) _) _
  rw [Literal.magnitude?] at hx
  dsimp only at hx
  split at hx
  · exact isFinite_of_scaled? hword hx
  · split_ifs at hx with hexponent hneg hzero
    · exact isFinite_of_scaled? hword hx
    · exact isFinite_of_scaled? hword hx
    · rw [← Option.some.inj hx]
      decide +kernel

theorem isFinite_of_real {l : Literal} {f : Float → Float} {n : Number Float}
    (hf : ∀ {x}, Scalar.isFinite x = true → Scalar.isFinite (f x) = true)
    (h : (l.magnitude?.map fun x ↦ Number.real (f x)) = some n) :
    Scalar.isFinite n.toScalar = true := by
  obtain ⟨x, hx, rfl⟩ := Option.map_eq_some_iff.1 h
  exact hf (isFinite_of_magnitude? hx)

/-- So is the number of a literal, as an integer or as a double. -/
theorem isFinite_of_number? {l : Literal} {n : Number Float} (h : l.number? = some n) :
    Scalar.isFinite n.toScalar = true := by
  rw [Literal.number?] at h
  dsimp only at h
  split_ifs at h with hwhole hnegative hword hword hnegative
  · rw [← Option.some.inj h]
    refine isFinite_ofInt ?_
    have := hword.2
    rw [Word.half64] at this
    rw [Word.count64]
    omega
  · exact isFinite_of_real isFinite_neg h
  · rw [← Option.some.inj h]
    exact isFinite_ofNat hword
  · exact isFinite_of_real id h
  · exact isFinite_of_real isFinite_neg h
  · exact isFinite_of_real id h

/-- Whatever number a document holds, it is read as a finite double. -/
theorem isFinite_of_scalar? {value : Json} {x : Float} (h : Json.scalar? value = some x) :
    Scalar.isFinite x = true := by
  cases value with
  | number literal =>
    obtain ⟨n, hn, rfl⟩ := Option.map_eq_some_iff.1 h
    exact isFinite_of_number? hn
  | null | bool b | string s | array items | object members | unreadable => cases h

end Splice.Binary64
