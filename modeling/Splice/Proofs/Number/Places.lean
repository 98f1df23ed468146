import Mathlib.Algebra.Order.Field.Basic
import Mathlib.Algebra.Order.Ring.Rat
import Mathlib.Data.List.TakeWhile
import Mathlib.Data.Rat.Cast.Order
import Mathlib.Tactic.FieldSimp
import Mathlib.Tactic.Linarith
import Mathlib.Tactic.NormNum
import Mathlib.Tactic.Positivity
import Mathlib.Tactic.Ring
import Splice.Proofs.Number.Digits

/-!
# Decimals with a fixed number of places

A quotient that is rounded to a number of places is at most half a unit of the last place away from
what it was (`abs_value_places_sub_le`), and it does not cross a number that has so few places
itself (`le_value_places`, `value_places_le`). What is written of a decimal with places is read as
this decimal (`magnitudeOf?_positional`), trailing zeros included.
-/

namespace Splice.Decimal

/-- The rational that a decimal stands for. -/
def value (d : Decimal) : ℚ := d.coefficient * (10 : ℚ) ^ d.exponent

/-! ### Rounding a quotient -/

variable {num den k count : ℕ}

/-- A quotient that reaches an integer is not rounded below it. -/
theorem le_roundQuotient (hden : 0 < den) (h : k * den ≤ num) : k ≤ roundQuotient num den := by
  have hquotient : k ≤ num / den := (Nat.le_div_iff_mul_le hden).2 h
  rw [roundQuotient]
  split_ifs <;> omega

/-- And one that does not exceed it is not rounded above it. -/
theorem roundQuotient_le (hden : 0 < den) (h : num ≤ k * den) : roundQuotient num den ≤ k := by
  have hsplit := Nat.div_add_mod num den
  have hquotient : num / den ≤ k := Nat.div_le_of_le_mul (by rwa [Nat.mul_comm])
  rcases hquotient.eq_or_lt with heq | hlt
  · -- nothing is left over, so nothing is rounded up
    have hnone : num % den = 0 := by
      rw [heq, Nat.mul_comm] at hsplit
      omega
    rw [roundQuotient, hnone]
    split_ifs <;> omega
  · rw [roundQuotient]
    split_ifs <;> omega

/-- Rounding moves a quotient by a half at most. -/
theorem abs_roundQuotient_sub_le (hden : 0 < den) :
    |(roundQuotient num den : ℚ) - num / den| ≤ 1 / 2 := by
  have hpos : (0 : ℚ) < den := by exact_mod_cast hden
  have hbounds : 2 * num ≤ 2 * (roundQuotient num den * den) + den ∧
      2 * (roundQuotient num den * den) ≤ 2 * num + den := by
    have hsplit := Nat.div_add_mod' num den
    have hrest := Nat.mod_lt num hden
    rw [roundQuotient]
    split_ifs
    · omega
    · rw [add_mul]
      omega
    · omega
    · rw [add_mul]
      omega
  obtain ⟨hlow, hhigh⟩ := hbounds
  have hlow' : (2 * num : ℚ) ≤ 2 * (roundQuotient num den * den) + den := by exact_mod_cast hlow
  have hhigh' : (2 * (roundQuotient num den * den) : ℚ) ≤ 2 * num + den := by exact_mod_cast hhigh
  rw [abs_le, neg_le_sub_iff_le_add, sub_le_iff_le_add, div_le_iff₀ hpos, ← sub_le_iff_le_add',
    le_div_iff₀ hpos]
  constructor <;> linarith

/-! ### Rounding to places -/

variable {q : ℚ}

theorem coefficient_places (count num den : ℕ) :
    (places count num den).coefficient = roundQuotient (num * Nat.pow 10 count) den := rfl

/-- In units of the last place, the decimal is the rounded quotient. -/
theorem value_places (count num den : ℕ) :
    (places count num den).value * 10 ^ count = roundQuotient (num * Nat.pow 10 count) den := by
  rw [value, places, mul_assoc, ← zpow_natCast, ← zpow_add₀ (by norm_num), neg_add_cancel,
    zpow_zero, mul_one]

/-- A rational in units of the last place, as a quotient. -/
theorem mul_pow_eq_div (hq : 0 ≤ q) (count : ℕ) :
    q * 10 ^ count = (q.num.natAbs * Nat.pow 10 count : ℕ) / q.den := by
  have hnum : (q.num.natAbs : ℚ) = q.num := by
    rw [Nat.cast_natAbs, abs_of_nonneg (Rat.num_nonneg.2 hq)]
  rw [Nat.cast_mul, hnum, Nat.pow_eq, Nat.cast_pow, mul_div_right_comm, Rat.num_div_den]
  rfl

/-- Rounding to places moves a rational by half a unit of the last place at most. -/
theorem abs_value_places_sub_le (hq : 0 ≤ q) (count : ℕ) :
    |(places count q.num.natAbs q.den).value - q| * 10 ^ count ≤ 1 / 2 := by
  have hunit : (0 : ℚ) ≤ 10 ^ count := by positivity
  rw [← abs_of_nonneg hunit, ← abs_mul, sub_mul, value_places, mul_pow_eq_div hq]
  exact abs_roundQuotient_sub_le q.den_pos

/-- A rational that is at least a number with so many places stays so. -/
theorem le_value_places (count k : ℕ) (hq : 0 ≤ q) (h : (k : ℚ) ≤ q * 10 ^ count) :
    (k : ℚ) ≤ (places count q.num.natAbs q.den).value * 10 ^ count := by
  rw [mul_pow_eq_div hq, le_div_iff₀ (by exact_mod_cast q.den_pos)] at h
  rw [value_places]
  exact_mod_cast le_roundQuotient q.den_pos (by exact_mod_cast h)

/-- A rational that is at most a number with so many places stays so. -/
theorem value_places_le (count k : ℕ) (hq : 0 ≤ q) (h : q * 10 ^ count ≤ k) :
    (places count q.num.natAbs q.den).value * 10 ^ count ≤ k := by
  rw [mul_pow_eq_div hq, div_le_iff₀ (by exact_mod_cast q.den_pos)] at h
  rw [value_places]
  exact_mod_cast roundQuotient_le q.den_pos (by exact_mod_cast h)

/-! ### Reading back -/

/-- Digits around a point are read as one coefficient. -/
theorem magnitudeOf?_point {whole fraction : List Char} (hne : whole ≠ [])
    (hwhole : ∀ c ∈ whole, c.isDigit = true) (hfraction : ∀ c ∈ fraction, c.isDigit = true) :
    magnitudeOf? (whole ++ '.' :: fraction) =
      some ⟨natOfDigits (whole ++ fraction), -fraction.length⟩ := by
  have hpoint : ('.').isDigit = false := rfl
  have hdigits : fraction.takeWhile Char.isDigit = fraction :=
    List.takeWhile_eq_self_iff.2 hfraction
  have hrest : fraction.dropWhile Char.isDigit = [] := List.dropWhile_eq_nil_iff.2 hfraction
  rw [magnitudeOf?, List.takeWhile_append_of_pos hwhole, List.dropWhile_append_of_pos hwhole,
    List.takeWhile_cons_of_neg (by decide), List.dropWhile_cons_of_neg (by decide), List.append_nil]
  simp only [hdigits, hrest, exponentOf?]
  rw [if_neg (by simp [hne]), Option.map_some, zero_sub]

/-- What is written of a decimal consists of digits and a point. -/
theorem isDigit_or_eq_of_mem_positional {d : Decimal} {c : Char} (h : c ∈ d.positional) :
    c.isDigit = true ∨ c = '.' := by
  obtain ⟨-, hwhole, -⟩ := split_whole d
  have hmem : c ∈ d.split.1 ∨ c = '.' ∨ c ∈ d.split.2 := by
    rw [positional] at h
    split at h
    · rename_i heq
      rw [heq]
      exact .inl h
    · rename_i heq
      rw [heq]
      simpa using h
  rcases hmem with hc | rfl | hc
  · exact .inl (hwhole c hc)
  · exact .inr rfl
  · exact .inl (isDigit_of_mem_split_fraction hc)

/-- The digits around the point are those of the coefficient, padded. -/
theorem split_append {d : Decimal} (h : d.exponent < 0) :
    d.split.1 ++ d.split.2 = padded ((-d.exponent).toNat + 1) d.coefficient := by
  rw [split, if_neg (by omega)]
  exact List.take_append_drop _ _

/-- There are as many digits behind the point as there are places. -/
theorem length_split_fraction {d : Decimal} (h : d.exponent < 0) :
    d.split.2.length = (-d.exponent).toNat := by
  rw [split, if_neg (by omega), List.length_drop, length_padded]
  omega

theorem length_split_fraction_le (d : Decimal) : d.split.2.length ≤ (-d.exponent).toNat := by
  rcases lt_or_ge d.exponent 0 with h | h
  · exact (length_split_fraction h).le
  · rw [split, if_pos h]
    exact Nat.zero_le _

/-- A decimal with places is written with a point. -/
theorem positional_eq {d : Decimal} (h : d.exponent < 0) :
    d.positional = d.split.1 ++ '.' :: d.split.2 := by
  have hlength := length_split_fraction h
  rw [positional]
  split
  · rename_i heq
    rw [heq] at hlength
    simp at hlength
    omega
  · rename_i heq
    rw [heq]

/-- A decimal with places is read as it is written. -/
theorem magnitudeOf?_positional {d : Decimal} (h : d.exponent < 0) :
    magnitudeOf? d.positional = some d := by
  obtain ⟨hwhole, hdigits, -⟩ := split_whole d
  rw [positional_eq h, magnitudeOf?_point hwhole hdigits fun _ ↦ isDigit_of_mem_split_fraction,
    split_append h, natOfDigits_padded, length_split_fraction h, Int.toNat_of_nonneg (by omega),
    neg_neg]

end Splice.Decimal
