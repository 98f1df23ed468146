import Splice.Number.Decimal
import Splice.Number.Reading

/-!
# Digits

Writing a natural number and reading it back. The digits of a number are digits, they do not begin
with a zero unless they are the single digit of zero, and reading them gives the number again, with
zeros in front of them or without. The same holds of the digits before a point (`split_whole`).
-/

namespace Splice.Decimal

theorem isDigit_of_mem_digitsOf {n : Nat} {c : Char} (h : c ∈ digitsOf n) : c.isDigit = true :=
  Nat.isDigit_of_mem_toDigits (by decide) (by decide) h

theorem digitsOf_ne_nil (n : Nat) : digitsOf n ≠ [] := Nat.toDigits_ne_nil

/-- Only zero is written with a zero at the front. -/
theorem head?_digitsOf_ne {n : Nat} (h : 0 < n) : (digitsOf n).head? ≠ some '0' := by
  induction n using Nat.base_induction 10 (by decide) with
  | single m hm =>
    rw [digitsOf, Nat.toDigits_of_lt_base hm]
    simpa using Nat.ne_of_gt h
  | digit m k hk hm ih =>
    rw [digitsOf, ← Nat.toDigits_append_toDigits (by decide) hm hk]
    rcases hdigits : Nat.toDigits 10 m with - | ⟨c, rest⟩
    · exact absurd hdigits Nat.toDigits_ne_nil
    · have hhead := ih hm
      rw [digitsOf, hdigits] at hhead
      exact hhead

theorem head?_digitsOf_of_length {n : Nat} (h : 1 < (digitsOf n).length) :
    (digitsOf n).head? ≠ some '0' := by
  rcases Nat.eq_zero_or_pos n with rfl | hn
  · exact absurd h (by decide)
  · exact head?_digitsOf_ne hn

/-- Padding is done with digits. -/
theorem isDigit_of_mem_padded {width n : Nat} {c : Char} (h : c ∈ padded width n) :
    c.isDigit = true := by
  rcases List.mem_append.1 h with hzero | hdigit
  · rw [List.eq_of_mem_replicate hzero]
    rfl
  · exact isDigit_of_mem_digitsOf hdigit

theorem padded_ne_nil (width n : Nat) : padded width n ≠ [] :=
  List.append_ne_nil_of_right_ne_nil _ (digitsOf_ne_nil n)

/-- A padded number has the width that is asked for, or more if it needs more. -/
theorem length_padded (width n : Nat) :
    (padded width n).length = max width (digitsOf n).length := by
  rw [padded, List.length_append, List.length_replicate]
  omega

/-- A number with enough digits is not padded. -/
theorem padded_eq_digitsOf {width n : Nat} (h : width ≤ (digitsOf n).length) :
    padded width n = digitsOf n := by
  rw [padded, Nat.sub_eq_zero_of_le h]
  rfl

/-! ### Layouts around a point -/

/-- The digits before the point do not begin with a superfluous zero. -/
theorem take_padded (places n : Nat) :
    let digits := padded (places + 1) n
    let whole := digits.take (digits.length - places)
    whole ≠ [] ∧ (1 < whole.length → whole.head? ≠ some '0') := by
  intro digits whole
  have hlength : digits.length = max (places + 1) (digitsOf n).length := length_padded _ _
  have hwhole : whole.length = digits.length - places := by
    rw [List.length_take, Nat.min_eq_left (Nat.sub_le _ _)]
  refine ⟨List.ne_nil_of_length_pos (by omega), fun hlong ↦ ?_⟩
  -- with two digits before the point there is no padding
  have hdigits : digits = digitsOf n := padded_eq_digitsOf (by omega)
  rw [List.head?_take, if_neg (by omega), hdigits]
  exact head?_digitsOf_of_length (by omega)

/-- There is a digit before the point, and no superfluous zero. -/
theorem split_whole (d : Decimal) :
    d.split.1 ≠ [] ∧ (∀ c ∈ d.split.1, c.isDigit = true) ∧
      (1 < d.split.1.length → d.split.1.head? ≠ some '0') := by
  rw [split]
  split
  · exact ⟨digitsOf_ne_nil _, fun _ ↦ isDigit_of_mem_digitsOf, head?_digitsOf_of_length⟩
  · obtain ⟨hne, hhead⟩ := take_padded (-d.exponent).toNat d.coefficient
    exact ⟨hne, fun _ hc ↦ isDigit_of_mem_padded (List.mem_of_mem_take hc), hhead⟩

/-- Behind the point there are digits only. -/
theorem isDigit_of_mem_split_fraction {d : Decimal} {c : Char} (h : c ∈ d.split.2) :
    c.isDigit = true := by
  rw [split] at h
  split at h
  · cases h
  · exact isDigit_of_mem_padded (List.mem_of_mem_drop h)

/-! ### Reading back -/

theorem natOfDigits_digitsOf (n : Nat) : natOfDigits (digitsOf n) = n :=
  Nat.ofDigitChars_ten_toDigits

/-- Zeros in front of them change nothing. -/
theorem natOfDigits_padded (width n : Nat) : natOfDigits (padded width n) = n := by
  show Nat.ofDigitChars 10 (_ ++ _) 0 = n
  rw [Nat.ofDigitChars_append, Nat.ofDigitChars_replicate_zero, Nat.mul_zero]
  exact natOfDigits_digitsOf n

/-- Padded to one width, different numbers have different texts. -/
theorem padded_injective (width : Nat) {n k : Nat} (h : padded width n = padded width k) :
    n = k := by
  rw [← natOfDigits_padded width n, h, natOfDigits_padded]

end Splice.Decimal
