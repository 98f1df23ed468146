import Mathlib
import Splice.Number.Binary64
import Splice.Proofs.Number.Order

/-!
# Doubles are lawful scalars

Comparisons, sums and differences of doubles are defined on unpacked doubles (a sign, a mantissa and
an exponent), while the library reads a double through its bit fields. This module ties the two
together (`unpack_eq`, `denote_eq`) and derives the laws of `LawfulScalar`.

An unpacked double that comes out of bits is `Canonical`, so the exponent decides a comparison
before the mantissa does. This agrees with the rationals that are denoted (`Normal.compare_eq`) and
with the bits read as one integer, on which the total order rests (`Normal.rank_lt`). Rounding is
not looked into: a sum is a number because neither an overflow nor a cancellation gives anything
else (`normalize_ne`, `unpack_pack_ne`).
-/

namespace Splice.Binary64

open Float.Model Float.Model.UnpackedFloat

/-! ### Fields -/

/-- The sign of a sign bit. -/
def signOf (negative : Bool) : Sign := if negative then .negative else .positive

/-- Whether a sign is that of negative numbers. -/
def isMinus : Sign → Bool
  | .negative => true
  | .positive => false

@[simp] theorem isMinus_signOf (negative : Bool) : isMinus (signOf negative) = negative := by
  cases negative <;> rfl

theorem toNat_unpackMantissa (x : Float) :
    (@unpackMantissa .binary64 x.toModel.toBits.toBitVec).toNat = fractionField x := by
  rw [fractionField, payload, unpackMantissa, BitVec.toNat_cast, BitVec.extractLsb_toNat]
  show x.toModel.toBits.toNat >>> 0 % 2 ^ 52 = x.toModel.toBits.toNat % Word.half64 % fractionCount
  rw [Nat.shiftRight_zero, Word.half64, fractionCount]
  omega

theorem toNat_unpackExponent (x : Float) :
    (@unpackExponent .binary64 x.toModel.toBits.toBitVec).toNat = exponentField x := by
  rw [exponentField, payload, unpackExponent, BitVec.toNat_cast, BitVec.extractLsb_toNat]
  show x.toModel.toBits.toNat >>> 52 % 2 ^ 11 = x.toModel.toBits.toNat % Word.half64 / fractionCount
  rw [Nat.shiftRight_eq_div_pow, Word.half64, fractionCount]
  omega

/-- The sign of an unpacked double is the sign bit. -/
theorem ofBitVec_unpackSign (x : Float) :
    Sign.ofBitVec (@unpackSign .binary64 x.toModel.toBits.toBitVec) =
      signOf (isNegative x) := by
  have hsign : (@unpackSign .binary64 x.toModel.toBits.toBitVec).toNat =
      x.toModel.toBits.toNat / 2 ^ 63 := by
    rw [unpackSign, BitVec.toNat_cast, BitVec.extractLsb_toNat]
    show x.toModel.toBits.toNat >>> 63 % 2 ^ 1 = _
    have := x.toModel.toBits.toNat_lt
    rw [Nat.shiftRight_eq_div_pow]
    omega
  have hnegative : isNegative x = decide (2 ^ 63 ≤ x.toModel.toBits.toNat) := rfl
  simp only [Sign.ofBitVec, ← BitVec.toNat_inj, hsign, hnegative, signOf, decide_eq_true_eq]
  show (if x.toModel.toBits.toNat / 2 ^ 63 = 0 then _ else _) = _
  split_ifs with h₁ h₂ h₂
  · omega
  · rfl
  · rfl
  · omega

theorem toNat_append_fraction (v : BitVec 52) : (1#1 ++ v).toNat = fractionCount + v.toNat := by
  rw [BitVec.toNat_append, ← Nat.shiftLeft_add_eq_or_of_lt v.isLt]
  rfl

/-- A double unpacked by its fields. -/
theorem unpack_eq (x : Float) :
    x.toModel.unpack =
      if exponentField x = 2047 then
        if fractionField x = 0 then .infinity (signOf (isNegative x)) else .notANumber
      else if exponentField x = 0 then
        if h : fractionField x = 0 then .zero (signOf (isNegative x))
        else .finite (signOf (isNegative x)) (fractionField x) (-1074) (Nat.pos_of_ne_zero h)
      else .finite (signOf (isNegative x)) (fractionCount + fractionField x)
        (exponentField x - 1075) (Nat.add_pos_left (by decide) _) := by
  have hall : (-1#11).toNat = 2047 := rfl
  have hnone : (0#11).toNat = 0 := rfl
  have hbias : (Format.binary64.exponentBias : ℤ) + (52 : ℕ) = 1075 := rfl
  rw [Float.Model.unpack, UnpackedFloat.unpack]
  simp only [ofBitVec_unpackSign, ← BitVec.toNat_inj, toNat_unpackExponent, toNat_unpackMantissa,
    toNat_append_fraction, hall, hnone, hbias, BitVec.toNat_zero]
  split_ifs <;> simp [*]

/-! ### Denotations -/

/-- What an unpacked double denotes. -/
def denoteUnpacked : UnpackedFloat → Denotation
  | .notANumber => .nan
  | .infinity s => .infinite (isMinus s)
  | .zero s => .finite (isMinus s) 0
  | .finite s m e _ => .finite (isMinus s) (m * 2 ^ e)

/-- A binary fraction is its mantissa times its power of two. -/
theorem toRat_eq (b : BinaryFraction) : toRat b = b.mantissa * (2 : ℚ) ^ b.power := by
  rw [toRat]
  split_ifs with h
  · obtain ⟨n, hn⟩ := Int.eq_ofNat_of_zero_le h
    rw [hn, Int.toNat_natCast, zpow_natCast]
    simp only [Nat.pow_eq]
    push_cast
    rfl
  · obtain ⟨n, hn⟩ := Int.eq_ofNat_of_zero_le (by omega : 0 ≤ -b.power)
    rw [hn, Int.toNat_natCast, Rat.mkRat_eq_div, show b.power = -(n : ℤ) by omega, zpow_neg,
      zpow_natCast, div_eq_mul_inv]
    simp only [Nat.pow_eq]
    push_cast
    rfl

/-- The bit fields and the unpacked double denote the same. -/
theorem denote_eq (x : Float) : denote x = denoteUnpacked x.toModel.unpack := by
  rw [unpack_eq, denote]
  split_ifs with h₁ h₂ h₃ h₄
  · rw [denoteUnpacked, isMinus_signOf]
  · rfl
  · rw [denoteUnpacked, isMinus_signOf, magnitude, if_pos h₃, toRat_eq, h₄]
    simp
  · rw [denoteUnpacked, isMinus_signOf, magnitude, if_pos h₃, toRat_eq]
  · rw [denoteUnpacked, isMinus_signOf, magnitude, if_neg h₃, toRat_eq]

/-- Only what is no number has no place in the order. -/
theorem place?_eq_none_iff (u : UnpackedFloat) :
    (denoteUnpacked u).place? = none ↔ u = .notANumber := by
  cases u with
  | notANumber => simp [denoteUnpacked, Denotation.place?]
  | infinity s => cases s <;> simp [denoteUnpacked, Denotation.place?, isMinus]
  | zero s => simp [denoteUnpacked, Denotation.place?]
  | finite => simp [denoteUnpacked, Denotation.place?]

/-- A double is no number exactly if its unpacked form is none. -/
theorem isNaN_iff (x : Float) : Scalar.isNaN x = true ↔ x.toModel.unpack = .notANumber := by
  show (denote x).isNaN = true ↔ _
  rw [denote_eq]
  cases x.toModel.unpack <;> simp [denoteUnpacked, Denotation.isNaN]

/-- It is finite exactly if its unpacked form is. -/
theorem isFinite_iff (x : Float) :
    Scalar.isFinite x = true ↔ x.toModel.unpack.isFinite = true := by
  show (denote x).isFinite = true ↔ _
  rw [denote_eq]
  cases x.toModel.unpack <;> simp [denoteUnpacked, Denotation.isFinite, UnpackedFloat.isFinite]

/-! ### Canonical form -/

/-- The mantissa has at most 53 bits, and all of them unless the exponent is the least one. -/
structure Normal (mantissa : ℕ) (exponent : ℤ) : Prop where
  lt : mantissa < 2 ^ 53
  le : -1074 ≤ exponent
  le_max : exponent ≤ 971
  full : 2 ^ 52 ≤ mantissa ∨ exponent = -1074

/-- Unpacked doubles in the form that bits give them. -/
inductive Canonical : UnpackedFloat → Prop
  | notANumber : Canonical .notANumber
  | infinity (s : Sign) : Canonical (.infinity s)
  | zero (s : Sign) : Canonical (.zero s)
  | finite (s : Sign) {m : ℕ} {e : ℤ} (hm : 0 < m) (h : Normal m e) : Canonical (.finite s m e hm)

/-- What comes out of bits is canonical. -/
theorem canonical_unpack (x : Float) : Canonical x.toModel.unpack := by
  have hfraction : fractionField x < 2 ^ 52 := Nat.mod_lt _ (by decide)
  have hexponent : exponentField x < 2 ^ 11 :=
    Nat.div_lt_of_lt_mul (Nat.mod_lt _ (by decide))
  rw [unpack_eq]
  -- the leading bit is implied by the exponent field, except in subnormal doubles
  split_ifs with h₁ h₂ h₃ h₄
  · exact .infinity _
  · exact .notANumber
  · exact .zero _
  · exact .finite _ _ ⟨by omega, by omega, by omega, .inr rfl⟩
  · refine .finite _ _ ⟨?_, by omega, by omega, .inl ?_⟩
    · rw [fractionCount]; omega
    · rw [fractionCount]; omega

namespace Normal

variable {m₁ m₂ : ℕ} {e₁ e₂ : ℤ}

/-- The greater exponent wins, since the mantissa of the other one has no more bits. -/
theorem lt_of_exponent_lt (h₁ : Normal m₁ e₁) (h₂ : Normal m₂ e₂) (h : e₁ < e₂) :
    (m₁ * 2 ^ e₁ : ℚ) < m₂ * 2 ^ e₂ := by
  have hfull : (2 ^ 52 : ℚ) ≤ m₂ := by
    exact_mod_cast h₂.full.resolve_right (by have := h₁.le; omega)
  have hlt : (m₁ : ℚ) < 2 ^ 53 := by exact_mod_cast h₁.lt
  have hpos₁ : (0 : ℚ) < 2 ^ e₁ := by positivity
  have hpos₂ : (0 : ℚ) < 2 ^ e₂ := by positivity
  have hpow : (2 : ℚ) ^ (e₁ + 1) ≤ 2 ^ e₂ := zpow_le_zpow_right₀ one_le_two h
  -- a greater exponent is at least a factor of two, as much as any mantissa can gain
  calc (m₁ * 2 ^ e₁ : ℚ) < 2 ^ 53 * 2 ^ e₁ := mul_lt_mul_of_pos_right hlt hpos₁
    _ = 2 ^ 52 * 2 ^ (e₁ + 1) := by rw [zpow_add₀ two_ne_zero]; ring
    _ ≤ 2 ^ 52 * 2 ^ e₂ := by linarith
    _ ≤ m₂ * 2 ^ e₂ := mul_le_mul_of_nonneg_right hfull hpos₂.le

/-- Exponents first, mantissas second: the order of the rationals. -/
theorem compare_eq (h₁ : Normal m₁ e₁) (h₂ : Normal m₂ e₂) :
    (compare e₁ e₂).then (compare m₁ m₂) = compare (m₁ * 2 ^ e₁ : ℚ) (m₂ * 2 ^ e₂) := by
  rcases lt_trichotomy e₁ e₂ with h | rfl | h
  · rw [compare_lt_iff_lt.2 h, compare_lt_iff_lt.2 (h₁.lt_of_exponent_lt h₂ h)]
    rfl
  · have hpos : (0 : ℚ) < 2 ^ e₁ := by positivity
    rw [compare_eq_iff_eq.2 rfl]
    show compare m₁ m₂ = _
    rcases lt_trichotomy m₁ m₂ with h | rfl | h
    · rw [compare_lt_iff_lt.2 h,
        compare_lt_iff_lt.2 (mul_lt_mul_of_pos_right (by exact_mod_cast h) hpos)]
    · rw [compare_eq_iff_eq.2 rfl, compare_eq_iff_eq.2 rfl]
    · rw [compare_gt_iff_gt.2 h,
        compare_gt_iff_gt.2 (mul_lt_mul_of_pos_right (by exact_mod_cast h) hpos)]
  · rw [compare_gt_iff_gt.2 h, compare_gt_iff_gt.2 (h₂.lt_of_exponent_lt h₁ h)]
    rfl

/-- Exponents first, mantissas second: the order of the bits. -/
theorem rank_lt (h₁ : Normal m₁ e₁) (h₂ : Normal m₂ e₂)
    (h : (compare e₁ e₂).then (compare m₁ m₂) = .lt) :
    (e₁ + 1074) * fractionCount + m₁ < (e₂ + 1074) * fractionCount + m₂ := by
  rw [Ordering.then_eq_lt, compare_lt_iff_lt, compare_eq_iff_eq, compare_lt_iff_lt] at h
  obtain ⟨hlt₁, hle₁, -, -⟩ := h₁
  obtain ⟨-, -, -, hfull₂⟩ := h₂
  rw [fractionCount]
  omega

theorem rank_pos (h : Normal m₁ e₁) (hm : 0 < m₁) : 0 < (e₁ + 1074) * fractionCount + m₁ := by
  have := h.le
  rw [fractionCount]
  omega

/-- The bits of a finite double are below those of an infinity. -/
theorem rank_lt_infinity (h : Normal m₁ e₁) :
    (e₁ + 1074) * fractionCount + m₁ < 2047 * fractionCount := by
  obtain ⟨hlt, -, hmax, -⟩ := h
  rw [fractionCount]
  omega

end Normal

/-! ### The order -/

theorem compare_coe (a b : ℚ) :
    compare ((a : WithTop ℚ) : WithBot (WithTop ℚ)) ((b : WithTop ℚ) : WithBot (WithTop ℚ)) =
      compare a b := by
  rcases lt_trichotomy a b with h | rfl | h
  · rw [compare_lt_iff_lt.2 h, compare_lt_iff_lt]
    exact_mod_cast h
  · rw [compare_eq_iff_eq.2 rfl, compare_eq_iff_eq.2 rfl]
  · rw [compare_gt_iff_gt.2 h, compare_gt_iff_gt]
    exact_mod_cast h

theorem compare_neg_neg (a b : ℚ) : compare (-a) (-b) = (compare a b).swap := by
  rcases lt_trichotomy a b with h | rfl | h
  · rw [compare_lt_iff_lt.2 h, compare_gt_iff_gt.2 (neg_lt_neg h)]
    rfl
  · rw [compare_eq_iff_eq.2 rfl, compare_eq_iff_eq.2 rfl]
    rfl
  · rw [compare_gt_iff_gt.2 h, compare_lt_iff_lt.2 (neg_lt_neg h)]
    rfl

theorem withSign_zero (negative : Bool) : withSign negative 0 = 0 := by
  cases negative <;> simp [withSign]

/-- Canonical doubles compare as the places of what they denote. -/
theorem compare_eq_place {u v : UnpackedFloat} (hu : Canonical u) (hv : Canonical v)
    {p q : WithBot (WithTop ℚ)} (hp : (denoteUnpacked u).place? = some p)
    (hq : (denoteUnpacked v).place? = some q) : u.compare v = some (compare p q) := by
  have hpos {m : ℕ} {e : ℤ} (hm : 0 < m) : (0 : ℚ) < m * 2 ^ e := by positivity
  -- doubles of different kinds or signs compare by these; mantissas count only between finite
  -- doubles of one sign
  cases hu with
  | notANumber => cases hp
  | infinity s =>
    cases hv with
    | notANumber => cases hq
    | infinity t => cases s <;> cases t <;> cases hp <;> cases hq <;> rfl
    | zero t => cases s <;> cases t <;> cases hp <;> cases hq <;> rfl
    | finite t hm h => cases s <;> cases t <;> cases hp <;> cases hq <;> rfl
  | zero s =>
    obtain rfl := Option.some.inj hp
    rw [withSign_zero]
    cases hv with
    | notANumber => cases hq
    | infinity t => cases t <;> cases hq <;> rfl
    | zero t =>
      obtain rfl := Option.some.inj hq
      rw [withSign_zero, compare_coe, compare_eq_iff_eq.2 rfl]
      rfl
    | finite t hm h =>
      obtain rfl := Option.some.inj hq
      rw [compare_coe]
      cases t with
      | positive => exact congrArg some (compare_lt_iff_lt.2 (hpos hm)).symm
      | negative => exact congrArg some (compare_gt_iff_gt.2 (neg_neg_of_pos (hpos hm))).symm
  | finite s hm h =>
    obtain rfl := Option.some.inj hp
    cases hv with
    | notANumber => cases hq
    | infinity t => cases s <;> cases t <;> cases hq <;> rfl
    | zero t =>
      obtain rfl := Option.some.inj hq
      rw [withSign_zero, compare_coe]
      cases s with
      | positive => exact congrArg some (compare_gt_iff_gt.2 (hpos hm)).symm
      | negative => exact congrArg some (compare_lt_iff_lt.2 (neg_neg_of_pos (hpos hm))).symm
    | finite t hn k =>
      obtain rfl := Option.some.inj hq
      rw [compare_coe]
      cases s with
      | positive =>
        cases t with
        | positive => exact congrArg some (h.compare_eq k)
        | negative =>
          exact congrArg some
            (compare_gt_iff_gt.2 ((neg_neg_of_pos (hpos hn)).trans (hpos hm))).symm
      | negative =>
        cases t with
        | positive =>
          exact congrArg some
            (compare_lt_iff_lt.2 ((neg_neg_of_pos (hpos hm)).trans (hpos hn))).symm
        | negative =>
          show some (Ordering.swap _) = some (compare (-_) (-_))
          rw [compare_neg_neg, h.compare_eq k]

/-- A question about a comparison is one about the places, if there are any. -/
theorem any_compare_iff {u v : UnpackedFloat} (hu : Canonical u) (hv : Canonical v)
    (f : Ordering → Bool) :
    (u.compare v).any f = true ↔ ∃ p ∈ (denoteUnpacked u).place?,
      ∃ q ∈ (denoteUnpacked v).place?, f (compare p q) = true := by
  rcases hp : (denoteUnpacked u).place? with - | p
  · obtain rfl := (place?_eq_none_iff u).1 hp
    simp [UnpackedFloat.compare]
  · rcases hq : (denoteUnpacked v).place? with - | q
    · obtain rfl := (place?_eq_none_iff v).1 hq
      cases u <;> simp [UnpackedFloat.compare]
    · rw [compare_eq_place hu hv hp hq]
      simp

/-- Doubles compare by what they denote. -/
theorem lt_iff (x y : Float) :
    x < y ↔ ∃ p ∈ (denote x).place?, ∃ q ∈ (denote y).place?, p < q := by
  have hlt : x < y ↔ (x.toModel.unpack.compare y.toModel.unpack).any (· == .lt) = true := by
    show decide (x.toModel < y.toModel) = true ↔ _
    rw [decide_eq_true_iff]
    show (x.toModel.unpack.compare y.toModel.unpack == some .lt) = true ↔ _
    cases x.toModel.unpack.compare y.toModel.unpack <;> simp
  rw [hlt, any_compare_iff (canonical_unpack x) (canonical_unpack y), denote_eq, denote_eq]
  simp only [beq_iff_eq, compare_lt_iff_lt]

/-- The same for the order that allows equality. -/
theorem le_iff (x y : Float) :
    x ≤ y ↔ ∃ p ∈ (denote x).place?, ∃ q ∈ (denote y).place?, p ≤ q := by
  have hle : x ≤ y ↔ (x.toModel.unpack.compare y.toModel.unpack).any (·.isLE) = true := by
    show decide (x.toModel ≤ y.toModel) = true ↔ _
    rw [decide_eq_true_iff]
    rfl
  rw [hle, any_compare_iff (canonical_unpack x) (canonical_unpack y), denote_eq, denote_eq]
  simp only [Ordering.isLE_iff_ne_gt, compare_gt_iff_gt, not_lt]

/-! ### The total order -/

/-- The bits below the sign of an unpacked double. -/
def rank : UnpackedFloat → ℤ
  | .notANumber => 0
  | .infinity _ => 2047 * fractionCount
  | .zero _ => 0
  | .finite _ m e _ => (e + 1074) * fractionCount + m

/-- The place in the total order of an unpacked double that is a number. -/
def unpackedPlace : UnpackedFloat → ℤ
  | .notANumber => 0
  | .infinity s => if isMinus s then -rank (.infinity s) - 1 else rank (.infinity s)
  | .zero s => if isMinus s then -rank (.zero s) - 1 else rank (.zero s)
  | .finite s m e h => if isMinus s then -rank (.finite s m e h) - 1 else rank (.finite s m e h)

/-- The bits below the sign are the rank of the unpacked double. -/
theorem payload_eq_rank (x : Float) (h : Scalar.isNaN x = false) :
    (payload x : ℤ) = rank x.toModel.unpack := by
  have hfields : payload x = fractionCount * exponentField x + fractionField x :=
    (Nat.div_add_mod _ _).symm
  rw [Bool.eq_false_iff, ne_eq, isNaN_iff] at h
  rw [hfields]
  rw [unpack_eq] at h ⊢
  split_ifs at h ⊢ with h₁ h₂ h₃ h₄
  · simp [rank, h₁, h₂, fractionCount]
  · exact absurd rfl h
  · simp [rank, h₃, h₄]
  · simp [rank, h₃]
  · simp [rank, fractionCount]
    ring

/-- So the place in the total order can be read off the unpacked double. -/
theorem place_eq (x : Float) (h : Scalar.isNaN x = false) :
    place x = unpackedPlace x.toModel.unpack := by
  have hplace : place x =
      if isNegative x then -rank x.toModel.unpack - 1 else rank x.toModel.unpack := by
    rw [place, payload_eq_rank x h]
  rw [Bool.eq_false_iff, ne_eq, isNaN_iff] at h
  rw [hplace]
  rw [unpack_eq] at h ⊢
  split_ifs at h ⊢ <;> simp_all [unpackedPlace]

/-- What is below by value is below in the total order. -/
theorem unpackedPlace_lt {u v : UnpackedFloat} (hu : Canonical u) (hv : Canonical v)
    (h : u.compare v = some .lt) : unpackedPlace u < unpackedPlace v := by
  have htop : (0 : ℤ) < 2047 * fractionCount := by decide
  cases hu with
  | notANumber => cases h
  | infinity s =>
    cases hv with
    | notANumber => cases h
    | infinity t | zero t =>
      cases s <;> cases t <;> simp [UnpackedFloat.compare, unpackedPlace, isMinus, rank] at h ⊢ <;>
        omega
    | finite t hn l =>
      have hpos := l.rank_pos hn
      have htop := l.rank_lt_infinity
      cases s <;> cases t <;> simp [UnpackedFloat.compare, unpackedPlace, isMinus, rank] at h ⊢ <;>
        omega
  | zero s =>
    cases hv with
    | notANumber => cases h
    | infinity t =>
      cases s <;> cases t <;> simp [UnpackedFloat.compare, unpackedPlace, isMinus, rank] at h ⊢ <;>
        omega
    | zero t => cases h
    | finite t hn l =>
      have hpos := l.rank_pos hn
      cases s <;> cases t <;> simp [UnpackedFloat.compare, unpackedPlace, isMinus, rank] at h ⊢ <;>
        omega
  | finite s hm k =>
    have hpos := k.rank_pos hm
    have htop := k.rank_lt_infinity
    cases hv with
    | notANumber => cases h
    | infinity t | zero t =>
      cases s <;> cases t <;> simp [UnpackedFloat.compare, unpackedPlace, isMinus, rank] at h ⊢ <;>
        omega
    | finite t hn l =>
      have hpos' := l.rank_pos hn
      cases s with
      | positive =>
        cases t with
        | positive => exact k.rank_lt l (Option.some.inj h)
        | negative => cases h
      | negative =>
        cases t with
        | positive =>
          simp only [unpackedPlace, isMinus, rank, if_true, Bool.false_eq_true, if_false]
          omega
        | negative =>
          -- for negative doubles both orders are reversed
          have hswap := Option.some.inj h
          rw [k.compare_eq l, ← compare_neg_neg, compare_lt_iff_lt, neg_lt_neg_iff,
            ← compare_lt_iff_lt, ← l.compare_eq k] at hswap
          have hlt := l.rank_lt k hswap
          simp only [unpackedPlace, isMinus, rank, if_true]
          omega

/-- The total order refines the order by value. -/
theorem place_lt_of_lt {x y : Float} (h : x < y) : place x < place y := by
  obtain ⟨p, hp, q, hq, hpq⟩ := (lt_iff x y).1 h
  have hx : Scalar.isNaN x = false := Denotation.isNaN_eq_false_iff.2 ⟨p, hp⟩
  have hy : Scalar.isNaN y = false := Denotation.isNaN_eq_false_iff.2 ⟨q, hq⟩
  rw [denote_eq] at hp hq
  rw [place_eq x hx, place_eq y hy]
  refine unpackedPlace_lt (canonical_unpack x) (canonical_unpack y) ?_
  rw [compare_eq_place (canonical_unpack x) (canonical_unpack y) hp hq, compare_lt_iff_lt.2 hpq]

/-! ### Sums and differences -/

/-- Packing makes nothing that is no number. -/
theorem unpack_pack_ne (u : UnpackedFloat) (h : u ≠ .notANumber) :
    UnpackedFloat.unpack .binary64 (UnpackedFloat.pack .binary64 u) ≠ .notANumber := by
  fun_cases UnpackedFloat.pack Format.binary64 u with
  | case1 => exact absurd rfl h
  | case2 s => simp [UnpackedFloat.unpack, packedInfinity]
  | case3 s => simp [UnpackedFloat.unpack, packedZero]
  | case4 s m e hm biased hb => simp [UnpackedFloat.unpack, packedInfinity]
  | case5 s m e hm bits biased hb hfull =>
    have hlt : biased + 1 < 2 ^ 11 := not_le.1 hb
    -- without an overflow the exponent field is not that of what is no number
    have hne : BitVec.ofNat 11 biased ≠ -1#11 := by
      intro heq
      have hnat : biased % 2 ^ 11 = 2047 := congrArg BitVec.toNat heq
      omega
    simp only [UnpackedFloat.unpack, unpackExponent_packComponents, unpackMantissa_packComponents]
    rw [if_neg hne]
    split_ifs <;> simp
  | case6 s m e hm bits biased hb hfull =>
    simp only [UnpackedFloat.unpack, unpackExponent_packComponents, unpackMantissa_packComponents]
    rw [if_neg (by decide)]
    split_ifs <;> simp

/-- Rounding makes nothing that is no number. -/
theorem normalize_ne (m e : ℤ) (s : Sign) :
    UnpackedFloat.normalize Format.binary64 m e s ≠ UnpackedFloat.notANumber := by
  have hround (s : Sign) (m : ℕ) (e : ℤ) :
      UnpackedFloat.round Format.binary64 s m e ≠ UnpackedFloat.notANumber := by
    simp only [UnpackedFloat.round, roundWithAccuracy]
    split_ifs <;> simp
  rw [UnpackedFloat.normalize]
  split
  · exact hround _ _ _
  · simp
  · exact hround _ _ _

theorem isNaN_ofModel_pack {u : UnpackedFloat} (h : u ≠ .notANumber) :
    Scalar.isNaN (Float.ofModel (Float.Model.pack u)) = false := by
  rw [Bool.eq_false_iff, ne_eq, isNaN_iff]
  exact unpack_pack_ne u h

/-- A finite double can be added to any number. -/
theorem isNaN_add (x y : Float) (hx : Scalar.isFinite x = true) (hy : Scalar.isNaN y = false) :
    Scalar.isNaN (x + y) = false := by
  rw [isFinite_iff] at hx
  rw [Bool.eq_false_iff, ne_eq, isNaN_iff] at hy
  refine isNaN_ofModel_pack ?_
  generalize x.toModel.unpack = u at hx
  generalize y.toModel.unpack = v at hy
  cases u <;> cases v <;>
    simp_all [UnpackedFloat.isFinite, UnpackedFloat.add, normalize_ne]
  split_ifs <;> simp

/-- And a finite double can be subtracted from any number. -/
theorem isNaN_sub (x y : Float) (hx : Scalar.isNaN x = false) (hy : Scalar.isFinite y = true) :
    Scalar.isNaN (x - y) = false := by
  rw [isFinite_iff] at hy
  rw [Bool.eq_false_iff, ne_eq, isNaN_iff] at hx
  refine isNaN_ofModel_pack ?_
  generalize x.toModel.unpack = u at hx
  generalize y.toModel.unpack = v at hy
  cases u <;> cases v <;>
    simp_all [UnpackedFloat.isFinite, UnpackedFloat.sub, normalize_ne]
  split_ifs <;> simp

instance : LawfulScalar Float where
  lt_iff := lt_iff
  le_iff := le_iff
  precedes_total x y := by
    show (decide (place x ≤ place y) || decide (place y ≤ place x)) = true
    rw [Bool.or_eq_true, decide_eq_true_iff, decide_eq_true_iff]
    exact le_total _ _
  precedes_trans x y z hxy hyz := by
    have hle : place x ≤ place z := (of_decide_eq_true hxy).trans (of_decide_eq_true hyz)
    exact decide_eq_true hle
  not_lt_of_precedes x y h hlt := by
    have hle : place x ≤ place y := of_decide_eq_true h
    exact absurd (place_lt_of_lt hlt) (not_lt.2 hle)
  isNaN_add := isNaN_add
  isNaN_sub := isNaN_sub
  denote_zero := by decide +kernel
  denote_one := by decide +kernel
  isFinite_hundredth := by decide +kernel
  isFinite_twentieth := by decide +kernel
  zero_sub_hundredth_lt := by decide +kernel

end Splice.Binary64
