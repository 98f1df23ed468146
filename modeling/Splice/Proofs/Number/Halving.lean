import Splice.Proofs.Number.Rounding

/-!
# Doubling and halving

Between a quarter and four, a scalar is halved and doubled without rounding. `HalvingScalar` says
so of the two quotients that a tempo is made of, by two and by a half.

For exact scalars there is nothing to round. A double in this range has a full mantissa
(`Normal.full_of_range`), and a quotient by a power of two keeps the mantissa: the long division
shifts by 53 bits and gives twice the mantissa without a remainder, the rounding drops the zero at
its end (`div_two_pow`). What is left is that a double with a full mantissa survives being packed
(`unpack_pack_of_full`).
-/

namespace Splice

open Scalar (denote)

/-- Scalars that are halved and doubled exactly between a quarter and four. -/
class HalvingScalar (α : Type) [Scalar α] : Prop extends LawfulScalar α where
  magnitude_nonneg (x : α) (negative : Bool) (q : ℚ) : denote x = .finite negative q → 0 ≤ q
  denote_two : denote (2.0 : α) = .finite false 2
  denote_half : denote (0.5 : α) = .finite false (1 / 2)
  denote_quarter : denote (0.25 : α) = .finite false (1 / 4)
  denote_four : denote (4.0 : α) = .finite false 4
  denote_div_two (x : α) (q : ℚ) :
    denote x = .finite false q → 1 / 4 ≤ q → q ≤ 4 → denote (x / 2.0) = .finite false (q / 2)
  denote_div_half (x : α) (q : ℚ) :
    denote x = .finite false q → 1 / 4 ≤ q → q ≤ 4 → denote (x / 0.5) = .finite false (q * 2)

/-! ### Places of finite scalars -/

namespace Scalar

variable {α : Type} [Scalar α] [LawfulScalar α] {x y : α} {s t : Bool} {p q : ℚ}

/-- Finite scalars are ordered by the rationals that they denote. -/
theorem lt_iff_of_denote (hx : denote x = .finite s p) (hy : denote y = .finite t q) :
    x < y ↔ withSign s p < withSign t q := by
  rw [LawfulScalar.lt_iff]
  simp [hx, hy, Denotation.place?]

/-- A finite scalar that is held within positive bounds. -/
theorem denote_clamp {low high : α} (hlow : denote low = .finite false p)
    (hhigh : denote high = .finite false q) (hp : 0 < p) (hpq : p ≤ q) {m : ℚ}
    (hx : denote x = .finite s m) (hm : 0 ≤ m) :
    denote (clamp low high x) = .finite false (Max.max p (Min.min q (withSign s m))) := by
  have hbelow := lt_iff_of_denote hx hlow
  have habove := lt_iff_of_denote hhigh hx
  rw [show withSign false p = p from rfl] at hbelow
  rw [show withSign false q = q from rfl] at habove
  rw [clamp]
  split_ifs with hlt hgt
  · rw [hlow, max_eq_left ((min_le_right _ _).trans (hbelow.1 hlt).le)]
  · rw [hhigh, min_eq_left (habove.1 hgt).le, max_eq_right hpq]
  · rw [hbelow, not_lt] at hlt
    rw [habove, not_lt] at hgt
    rw [min_eq_right hgt, max_eq_right hlt, hx]
    -- what is above a positive number has no sign
    cases s with
    | false => rfl
    | true =>
      have hneg : p ≤ -m := hlt
      exact absurd hneg (by linarith)

end Scalar

/-! ### Exact scalars -/

namespace Exact

/-- An exact scalar is what it denotes. -/
theorem eq_number_of_denote {x : Exact} {q : ℚ} (h : denote x = .finite false q) :
    x = number q := by
  cases x with
  | nan | infinite negative => cases h
  | number r =>
    obtain ⟨hsign, rfl⟩ := Denotation.finite.inj h
    rw [abs_of_nonneg (not_lt.1 (of_decide_eq_false hsign))]

theorem denote_of_nonneg {q : ℚ} (h : 0 ≤ q) : denote (number q) = .finite false q := by
  show Denotation.finite (decide (q < 0)) |q| = _
  rw [abs_of_nonneg h, decide_eq_false h.not_gt]

instance : HalvingScalar Exact where
  magnitude_nonneg x negative q h := by
    cases x with
    | nan | infinite negative => cases h
    | number r =>
      obtain ⟨-, rfl⟩ := Denotation.finite.inj h
      exact abs_nonneg r
  denote_two := by decide +kernel
  denote_half := by decide +kernel
  denote_quarter := by decide +kernel
  denote_four := by decide +kernel
  denote_div_two x q h hlow _ := by
    have hquotient : x / 2.0 = number (q / 2) := by
      rw [eq_number_of_denote h, ofScientific_eq]
      refine (number_div _ _ (by norm_num)).trans ?_
      norm_num
    rw [hquotient]
    exact denote_of_nonneg (by linarith)
  denote_div_half x q h hlow _ := by
    have hquotient : x / 0.5 = number (q * 2) := by
      rw [eq_number_of_denote h, ofScientific_eq]
      refine (number_div _ _ (by norm_num)).trans ?_
      norm_num [div_eq_mul_inv]
    rw [hquotient]
    exact denote_of_nonneg (by linarith)

end Exact

/-! ### Doubles -/

namespace Binary64

open Float.Model Float.Model.UnpackedFloat

/-! #### Packing -/

/-- The sign survives being packed. -/
theorem unpackSign_packComponents {spec : Format} {s : Sign} {exponent : BitVec spec.exponentBits}
    {mantissa : BitVec spec.mantissaBitsWithoutImplicit} :
    unpackSign (packComponents spec s exponent mantissa) = s.toBitVec := by
  ext i hi
  obtain rfl : i = 0 := by omega
  simp [unpackSign, packComponents, BitVec.getLsbD_append, BitVec.getElem_append]

theorem ofBitVec_toBitVec (s : Sign) : Sign.ofBitVec s.toBitVec = s := by
  cases s <;> rfl

/-- A double with a full mantissa survives being packed. -/
theorem unpack_pack_of_full {s : Sign} {m : ℕ} {e : ℤ} (hm : 0 < m) (hlog : m.log2 = 52)
    (hlow : -1074 ≤ e) (hhigh : e ≤ 971) :
    UnpackedFloat.unpack .binary64 (UnpackedFloat.pack .binary64 (.finite s m e hm)) =
      .finite s m e hm := by
  have hbias : (Format.binary64.exponentBias : ℤ) + (52 : ℕ) = 1075 := rfl
  have hfield : (e + Format.binary64.exponentBias + (52 : ℕ)).toNat = (e + 1075).toNat := by
    rw [← hbias, ← add_assoc]
  obtain ⟨hnat, hne⟩ := exponentField_of_lt (n := (e + 1075).toNat) (by omega)
  have hpos : BitVec.ofNat 11 (e + 1075).toNat ≠ 0#11 := by
    rw [Ne, ← BitVec.toNat_inj, hnat]
    show (e + 1075).toNat ≠ 0
    omega
  -- the exponent does not overflow and the mantissa is not short, so both are stored as they are
  have hpack : UnpackedFloat.pack .binary64 (.finite s m e hm) =
      packComponents .binary64 s (BitVec.ofNat 11 (e + 1075).toNat) (BitVec.ofNat 52 m) := by
    rw [← hfield]
    refine (if_neg ?_).trans (if_pos ?_)
    · show ¬ 2 ^ 11 ≤ (e + Format.binary64.exponentBias + (52 : ℕ)).toNat + 1
      omega
    · show m.log2 + 1 = 53
      rw [hlog]
  have hbits : 2 ^ 52 ≤ m ∧ m < 2 ^ 53 := (Nat.log2_eq_iff hm.ne').1 hlog
  have hmantissa : (1#1 ++ BitVec.ofNat 52 m).toNat = m := by
    rw [toNat_append_fraction, BitVec.toNat_ofNat, fractionCount]
    omega
  have hexponent : ((BitVec.ofNat 11 (e + 1075).toNat).toNat : ℤ) - 1075 = e := by
    rw [hnat]
    omega
  rw [hpack]
  simp only [UnpackedFloat.unpack, unpackExponent_packComponents, unpackMantissa_packComponents,
    unpackSign_packComponents, ofBitVec_toBitVec, hbias]
  rw [if_neg hne, if_neg hpos]
  simp only [hmantissa, hexponent]

/-! #### Quotients by powers of two -/

/-- A mantissa that fits is not shifted. -/
theorem shiftToTargetExponent_of_full {m : ℕ} {e : ℤ} (hlog : m.log2 = 52) (hlow : -1074 ≤ e) :
    shiftToTargetExponent .binary64 m e .exact = (⟨m, false, false⟩, e) := by
  have htarget (t : ℤ) : Format.binary64.targetExponent t = max (t - 53) (-1074) := rfl
  have hshift : (max ((m.log2 : ℤ) + 1 + e - 53) (-1074) - e).toNat = 0 := by omega
  simp only [shiftToTargetExponent, shiftToExponent, htarget, totalExponent, hshift]
  rw [Nat.cast_zero, add_zero]
  rfl

/-- The zero at the end of a mantissa with one bit too many is dropped. -/
theorem shiftToTargetExponent_two_mul {m : ℕ} {e : ℤ} (hlog : m.log2 = 52) (hlow : -1075 ≤ e) :
    shiftToTargetExponent .binary64 (2 * m) e .exact = (⟨m, false, false⟩, e + 1) := by
  have htarget (t : ℤ) : Format.binary64.targetExponent t = max (t - 53) (-1074) := rfl
  have hdouble : (2 * m).log2 = 53 := by rw [Nat.log2_two_mul (by rintro rfl; cases hlog), hlog]
  have hshift : (max (((2 * m).log2 : ℤ) + 1 + e - 53) (-1074) - e).toNat = 1 := by omega
  have hhalf : ExtendedMantissa.shiftRightOne ⟨2 * m, false, false⟩ = ⟨m, false, false⟩ := by
    rw [ExtendedMantissa.shiftRightOne, Nat.mul_div_cancel_left m (by decide), Nat.mul_mod_right]
    rfl
  simp only [shiftToTargetExponent, shiftToExponent, htarget, totalExponent, hshift]
  exact Prod.ext hhalf (by rw [Nat.cast_one])

/-- A quotient by a power of two keeps a full mantissa. -/
theorem div_two_pow {s : Sign} {m : ℕ} {e f : ℤ} (hm : 0 < m) (hlog : m.log2 = 52)
    (hlow : -1021 ≤ e - f) :
    UnpackedFloat.div .binary64 (.finite s m e hm)
      (.finite .positive (2 ^ 52) f (by decide)) = .finite s m (e - f - 53 + 1) hm := by
  have htarget (t : ℤ) : Format.binary64.targetExponent t = max (t - 53) (-1074) := rfl
  have hsign : s / Sign.positive = s := by cases s <;> rfl
  have hcore : divCore .binary64 m e (2 ^ 52) f = (2 * m, e - f - 53, .exact) := by
    have hone : (2 ^ 52).log2 = 52 := by decide
    have hexponent : min (e - f) (max ((m.log2 : ℤ) + 1 + e - ((2 ^ 52).log2 + 1 + f) - 53) (-1074))
        = e - f - 53 := by
      rw [hlog, hone]
      omega
    have hshift : m <<< 53 = 2 * m * 2 ^ 52 := by
      rw [Nat.shiftLeft_eq]
      ring
    simp only [divCore, htarget, totalExponent, hexponent]
    rw [show (e - f - (e - f - 53)).toNat = 53 by omega, hshift, Nat.mul_div_cancel _ (by decide),
      Nat.mul_mod_left]
    rfl
  have hrounded : (⟨m, false, false⟩ : ExtendedMantissa).roundedMantissa = m := rfl
  simp only [UnpackedFloat.div, hcore, hsign, roundWithAccuracy]
  simp only [shiftToTargetExponent_two_mul hlog (e := e - f - 53) (by omega), hrounded,
    shiftToTargetExponent_of_full hlog (e := e - f - 53 + 1) (by omega)]
  rw [dif_neg hm.ne']

/-! #### Halves and doubles -/

/-- Between a quarter and four, mantissas are full. -/
theorem Normal.full_of_range {m : ℕ} {e : ℤ} (h : Normal m e) (hlow : 1 / 4 ≤ (m * 2 ^ e : ℚ))
    (hhigh : (m * 2 ^ e : ℚ) ≤ 4) : m.log2 = 52 ∧ -54 ≤ e ∧ e ≤ -50 := by
  have hpos : (0 : ℚ) < 2 ^ e := by positivity
  have hlt : (m : ℚ) < 2 ^ 53 := by exact_mod_cast h.lt
  have he : -54 ≤ e := by
    by_contra hsmall
    have hpow : (2 : ℚ) ^ e ≤ 2 ^ (-55 : ℤ) := zpow_le_zpow_right₀ one_le_two (by omega)
    have hbelow : (m * 2 ^ e : ℚ) < 1 / 4 := calc
      (m * 2 ^ e : ℚ) < 2 ^ 53 * 2 ^ e := mul_lt_mul_of_pos_right hlt hpos
      _ ≤ 2 ^ 53 * 2 ^ (-55 : ℤ) := mul_le_mul_of_nonneg_left hpow (by positivity)
      _ = 1 / 4 := by norm_num
    exact absurd hlow hbelow.not_ge
  have hfull : 2 ^ 52 ≤ m := h.full.resolve_right (by omega)
  refine ⟨(Nat.log2_eq_iff (by omega)).2 ⟨hfull, h.lt⟩, he, ?_⟩
  by_contra hlarge
  have hge : (2 : ℚ) ^ 52 ≤ m := by exact_mod_cast hfull
  have hpow : (2 : ℚ) ^ (-49 : ℤ) ≤ 2 ^ e := zpow_le_zpow_right₀ one_le_two (by omega)
  have habove : (4 : ℚ) < m * 2 ^ e := calc
    (4 : ℚ) < 2 ^ 52 * 2 ^ (-49 : ℤ) := by norm_num
    _ ≤ m * 2 ^ e := mul_le_mul hge hpow (by positivity) (by positivity)
  exact absurd hhigh habove.not_ge

/-- A scalar between a quarter and four over a power of two. -/
theorem denote_div {x y : Float} {q : ℚ} {f : ℤ} (hx : denote x = .finite false q)
    (hy : y.toModel.unpack = .finite .positive (2 ^ 52) f (by decide)) (hlow : 1 / 4 ≤ q)
    (hhigh : q ≤ 4) (hf : -53 ≤ f) (hf' : f ≤ -51) :
    denote (x / y) = .finite false (q * 2 ^ (-f - 52)) := by
  obtain ⟨s, hzero⟩ | ⟨s, m, e, hm, hunpack, hnormal⟩ :=
    unpack_cases (x := x) (by rw [Scalar.isFinite]; exact congrArg _ hx)
  · rw [denote_eq, hzero] at hx
    obtain ⟨-, rfl⟩ := Denotation.finite.inj hx
    norm_num at hlow
  · rw [denote_eq, hunpack] at hx
    obtain ⟨hsign, rfl⟩ := Denotation.finite.inj hx
    obtain ⟨hlog, hle, hge⟩ := hnormal.full_of_range hlow hhigh
    have hquotient : (x / y).toModel.unpack = .finite s m (e - f - 53 + 1) hm := calc
      _ = UnpackedFloat.unpack .binary64 (UnpackedFloat.pack .binary64
          (UnpackedFloat.div .binary64 x.toModel.unpack y.toModel.unpack)) := rfl
      _ = .finite s m (e - f - 53 + 1) hm := by
        rw [hunpack, hy, div_two_pow hm hlog (by omega),
          unpack_pack_of_full hm hlog (by omega) (by omega)]
    rw [denote_eq, hquotient, denoteUnpacked, hsign, mul_assoc, ← zpow_add₀ two_ne_zero]
    congr 3
    ring

instance : HalvingScalar Float where
  magnitude_nonneg _ _ _ := magnitude_nonneg
  denote_two := by decide +kernel
  denote_half := by decide +kernel
  denote_quarter := by decide +kernel
  denote_four := by decide +kernel
  denote_div_two x q h hlow hhigh := by
    have htwo : (2.0 : Float).toModel.unpack = .finite .positive (2 ^ 52) (-51) (by decide) := by
      rfl
    refine (denote_div h htwo hlow hhigh (by decide) le_rfl).trans ?_
    norm_num [div_eq_mul_inv]
  denote_div_half x q h hlow hhigh := by
    have hhalf : (0.5 : Float).toModel.unpack = .finite .positive (2 ^ 52) (-53) (by decide) := by
      rfl
    refine (denote_div h hhalf hlow hhigh le_rfl (by decide)).trans ?_
    norm_num

end Binary64

end Splice
