import Splice.Proofs.Number.Numerals
import Splice.Proofs.Number.Rounding

/-!
# Rounding to millionths

What the text of a number says about the number. The number is rounded to the nearest millionth, of
two that are equally near to the even one (`IsNearest`), and there is only one such millionth
(`IsNearest.unique`). Since the text depends on this millionth only, and tells which one it was,
numbers have the same text if they are rounded to the same millionth, and in no other case
(`numeral_eq_numeral_iff`).

Each millionth has one text in a canonical form (`Numeral`). In particular the sign of a number that
is rounded to zero is lost.
-/

namespace Splice

open Scalar (denote numeral)

/-! ### Nearest integers -/

/-- An integer nearest to a rational; of two the even one. -/
structure IsNearest (q : ℚ) (n : ℤ) : Prop where
  close : |(n : ℚ) - q| ≤ 1 / 2
  even : |(n : ℚ) - q| = 1 / 2 → Even n

namespace IsNearest

variable {q : ℚ} {n m : ℤ}

/-- The integer nearest to the opposite is the opposite. -/
theorem neg (h : IsNearest q n) : IsNearest (-q) (-n) := by
  have hdistance : |((-n : ℤ) : ℚ) - -q| = |(n : ℚ) - q| := by
    rw [Int.cast_neg, ← abs_neg]
    congr 1
    ring
  exact ⟨by rw [hdistance]; exact h.close, fun htie ↦ (h.even (hdistance ▸ htie)).neg⟩

/-- So a sign goes along with the magnitude. -/
theorem withSign {magnitude unit : ℚ} (h : IsNearest (magnitude * unit) n) (negative : Bool) :
    IsNearest (withSign negative magnitude * unit) (if negative then -n else n) := by
  cases negative with
  | false => exact h
  | true =>
    have hneg := h.neg
    rwa [← neg_mul] at hneg

/-- Another integer is at least a half away. -/
theorem half_le_of_ne (h : IsNearest q n) (hne : m ≠ n) : 1 / 2 ≤ |(m : ℚ) - q| := by
  have hone : (1 : ℚ) ≤ |(m : ℚ) - n| := by
    exact_mod_cast Int.one_le_abs (sub_ne_zero.2 hne)
  have htriangle := abs_sub_le (m : ℚ) q n
  have hclose := h.close
  rw [abs_sub_comm] at hclose
  linarith

/-- No other integer is nearer. -/
theorem abs_sub_le_abs_sub (h : IsNearest q n) (m : ℤ) : |(n : ℚ) - q| ≤ |(m : ℚ) - q| := by
  rcases eq_or_ne m n with rfl | hne
  · exact le_rfl
  · exact h.close.trans (h.half_le_of_ne hne)

/-- Of two integers that are equally near, one is odd. -/
theorem unique (hn : IsNearest q n) (hm : IsNearest q m) : n = m := by
  by_contra hne
  have htien : |(n : ℚ) - q| = 1 / 2 := le_antisymm hn.close (hm.half_le_of_ne hne)
  have htiem : |(m : ℚ) - q| = 1 / 2 := le_antisymm hm.close (hn.half_le_of_ne (Ne.symm hne))
  obtain ⟨k, hk⟩ := hn.even htien
  obtain ⟨l, hl⟩ := hm.even htiem
  have hdistance : |(n : ℚ) - m| ≤ 1 := by
    have htriangle := abs_sub_le (n : ℚ) q m
    rw [abs_sub_comm q] at htriangle
    linarith
  have hle : |n - m| ≤ 1 := by exact_mod_cast hdistance
  rw [abs_le] at hle
  omega

end IsNearest

namespace Decimal

/-- A tie goes to the even neighbour. -/
theorem even_roundQuotient {num den : ℕ} (hden : 0 < den)
    (h : |(roundQuotient num den : ℚ) - num / den| = 1 / 2) : Even (roundQuotient num den) := by
  have hpos : (0 : ℚ) < den := by exact_mod_cast hden
  have htie : 2 * (roundQuotient num den * den) = 2 * num + den ∨
      2 * (roundQuotient num den * den) + den = 2 * num := by
    rcases (abs_eq (by norm_num)).1 h with h | h
    · left
      field_simp at h
      have h' : (2 * (roundQuotient num den * den) : ℚ) = 2 * num + den := by linarith
      exact_mod_cast h'
    · right
      field_simp at h
      have h' : (2 * (roundQuotient num den * den) + den : ℚ) = 2 * num := by linarith
      exact_mod_cast h'
  have hsplit := Nat.div_add_mod' num den
  have hrest := Nat.mod_lt num hden
  rw [roundQuotient] at htie ⊢
  split_ifs at htie ⊢ with hbelow habove heven
  · omega
  · rw [add_mul] at htie
    omega
  · exact Nat.even_iff.2 heven
  · exact Nat.even_iff.2 (by omega)

/-- Rounding a quotient gives the nearest integer. -/
theorem isNearest_roundQuotient {num den : ℕ} (hden : 0 < den) :
    IsNearest (num / den) (roundQuotient num den) where
  close := by exact_mod_cast abs_roundQuotient_sub_le hden
  even h := by exact_mod_cast even_roundQuotient hden (by exact_mod_cast h)

/-- Rounding to places gives the nearest multiple of the last place. -/
theorem isNearest_places {q : ℚ} (hq : 0 ≤ q) (count : ℕ) :
    IsNearest (q * 10 ^ count) (places count q.num.natAbs q.den).coefficient := by
  rw [mul_pow_eq_div hq, coefficient_places]
  exact isNearest_roundQuotient q.den_pos

end Decimal

/-- A number is rounded to the nearest millionth. -/
theorem isNearest_millionths {magnitude : ℚ} (negative : Bool) (h : 0 ≤ magnitude) :
    IsNearest (withSign negative magnitude * 10 ^ 6) (millionths negative magnitude) := by
  rw [millionths]
  exact (Decimal.isNearest_places h 6).withSign negative

/-! ### The canonical form -/

/-- A numeral with at most so many places: perhaps a minus sign, digits that begin with `0` only if
nothing else stands before the point, and perhaps a point and digits that do not end in `0`. -/
structure Numeral (places : ℕ) where
  negative : Bool
  whole : List Char
  fraction : List Char
  whole_ne_nil : whole ≠ []
  isDigit_whole : ∀ c ∈ whole, c.isDigit = true
  head?_whole_ne : 1 < whole.length → whole.head? ≠ some '0'
  isDigit_fraction : ∀ c ∈ fraction, c.isDigit = true
  length_fraction_le : fraction.length ≤ places
  getLast?_fraction_ne : fraction.getLast? ≠ some '0'

namespace Numeral

/-- A point stands only where digits follow it. -/
def text {places : ℕ} (n : Numeral places) : String :=
  String.ofList ((if n.negative then ['-'] else []) ++ n.whole ++
    if n.fraction = [] then [] else '.' :: n.fraction)

/-- The numeral of a decimal. -/
def ofDecimal {places : ℕ} (negative : Bool) (d : Decimal) (h : (-d.exponent).toNat ≤ places) :
    Numeral places where
  negative := negative
  whole := d.split.1
  fraction := Decimal.dropTrailing '0' d.split.2
  whole_ne_nil := (Decimal.split_whole d).1
  isDigit_whole := (Decimal.split_whole d).2.1
  head?_whole_ne := (Decimal.split_whole d).2.2
  isDigit_fraction _ hc :=
    Decimal.isDigit_of_mem_split_fraction ((List.rdropWhile_prefix _ _).mem hc)
  length_fraction_le :=
    ((List.rdropWhile_prefix _ _).length_le.trans (Decimal.length_split_fraction_le d)).trans h
  getLast?_fraction_ne := Decimal.getLast?_dropTrailing_ne _ _

/-- The numeral of a decimal is written as the decimal is shown. -/
theorem toList_text_ofDecimal {places : ℕ} (negative : Bool) {d : Decimal}
    (h : (-d.exponent).toNat ≤ places) :
    (ofDecimal negative d h).text.toList = (if negative then ['-'] else []) ++ d.shown := by
  rw [text, String.toList_ofList, Decimal.shown, ← List.append_assoc]
  congr 1
  show (if Decimal.dropTrailing '0' d.split.2 = [] then [] else _) = _
  split_ifs with h
  · rw [Decimal.shownFraction_of_eq_nil h]
  · rw [Decimal.shownFraction_of_ne_nil h]
    rfl

end Numeral

/-- The text of millionths is a numeral. -/
theorem exists_text_eq (count : ℤ) :
    ∃ n : Numeral 6, n.text = String.ofList (millionthsText count) := by
  refine ⟨.ofDecimal (count < 0) ⟨count.natAbs, -6⟩ le_rfl, ?_⟩
  rw [← String.toList_inj, Numeral.toList_text_ofDecimal, String.toList_ofList, millionthsText]
  simp only [decide_eq_true_eq]

/-- Something is written, and no sign before a zero. -/
theorem millionthsText_ne (count : ℤ) :
    millionthsText count ≠ [] ∧ millionthsText count ≠ ['-'] ∧
      millionthsText count ≠ ['-', '0'] := by
  obtain ⟨c, more, hcons, hc, -⟩ := (Decimal.mk count.natAbs (-6)).exists_cons_shown
  have hminus : c ≠ '-' := by
    rintro rfl
    exact absurd hc (by decide)
  rw [millionthsText]
  split_ifs with hneg
  · have hzero : (Decimal.mk count.natAbs (-6)).shown ≠ ['0'] := by
      rw [Ne, Decimal.shown_eq_zero_iff rfl]
      exact Int.natAbs_ne_zero.2 hneg.ne
    rw [hcons] at hzero ⊢
    simpa using hzero
  · rw [hcons]
    simp [hminus]

/-! ### The contract -/

/-- What the text of a number says about the number. -/
structure WritesMillionths (value : ℚ) (text : String) : Prop where
  /-- The text is a numeral with six places at most. -/
  canonical : ∃ n : Numeral 6, n.text = text
  /-- Something is written, and no sign before a zero. -/
  proper : text ≠ "" ∧ text ≠ "-" ∧ text ≠ "-0"
  /-- The text is read as the nearest millionth, half a millionth away at most. -/
  nearest : ∃ n : ℤ, valueOf? text = some ((n : ℚ) / 10 ^ 6) ∧ IsNearest (value * 10 ^ 6) n ∧
    |(n : ℚ) / 10 ^ 6 - value| ≤ 5 / 10 ^ 7 ∧
      ∀ m : ℤ, |(n : ℚ) / 10 ^ 6 - value| ≤ |(m : ℚ) / 10 ^ 6 - value|

/-- Distances can be measured in millionths. -/
theorem abs_div_sub (m : ℤ) (value : ℚ) :
    |(m : ℚ) / 10 ^ 6 - value| = |(m : ℚ) - value * 10 ^ 6| / 10 ^ 6 := by
  have hunit : (0 : ℚ) < 10 ^ 6 := by norm_num
  rw [← abs_of_pos hunit, ← abs_div, abs_of_pos hunit, sub_div, mul_div_cancel_right₀ _ hunit.ne']

/-- The text tells how many millionths there are. -/
theorem millionthsText_injective : Function.Injective millionthsText := by
  intro n m h
  have hvalue := valueOf?_millionthsText n
  rw [h, valueOf?_millionthsText, Option.some.injEq, div_left_inj' (by norm_num)] at hvalue
  exact_mod_cast hvalue.symm

/-- The text of the nearest millionth says all that is asked for. -/
theorem writesMillionths_ofList {value : ℚ} {n : ℤ} (h : IsNearest (value * 10 ^ 6) n) :
    WritesMillionths value (String.ofList (millionthsText n)) where
  canonical := exists_text_eq n
  proper := by
    obtain ⟨hempty, hminus, hzero⟩ := millionthsText_ne n
    simp only [Ne, ← String.toList_inj, String.toList_ofList]
    exact ⟨hempty, hminus, hzero⟩
  nearest := by
    refine ⟨n, valueOf?_millionthsText n, h, ?_, fun m ↦ ?_⟩
    · have hclose := h.close
      rw [abs_div_sub, div_le_iff₀ (by norm_num)]
      linarith
    · rw [abs_div_sub, abs_div_sub]
      exact div_le_div_of_nonneg_right (h.abs_sub_le_abs_sub m) (by norm_num)

section

variable {x y : Float} {s t : Bool} {p q : ℚ}

/-- The text of a finite double is that of its millionths. -/
theorem numeral_eq (hx : denote x = .finite s p) :
    numeral x = String.ofList (millionthsText (millionths s p)) := by
  rw [← toList_numeral hx, String.ofList_toList]

/-- Two doubles have one text exactly if they are rounded to one millionth. -/
theorem numeral_eq_numeral_iff (hx : denote x = .finite s p) (hy : denote y = .finite t q) :
    numeral x = numeral y ↔ millionths s p = millionths t q := by
  rw [← String.toList_inj, toList_numeral hx, toList_numeral hy, millionthsText_injective.eq_iff]

/-- The text of a finite number is the canonical one of the nearest millionth, and it is that of
another number in no case but that this is rounded to the same millionth. -/
theorem writesMillionths_numeral (hx : denote x = .finite s p) (hy : denote y = .finite t q) :
    WritesMillionths (withSign s p) (numeral x) ∧
      (numeral x = numeral y ↔
        ∃ n : ℤ, IsNearest (withSign s p * 10 ^ 6) n ∧ IsNearest (withSign t q * 10 ^ 6) n) := by
  have hnearx := isNearest_millionths s (Binary64.magnitude_nonneg hx)
  have hneary := isNearest_millionths t (Binary64.magnitude_nonneg hy)
  refine ⟨?_, ?_⟩
  · rw [numeral_eq hx]
    exact writesMillionths_ofList hnearx
  · rw [numeral_eq_numeral_iff hx hy]
    constructor
    · intro heq
      exact ⟨_, hnearx, heq ▸ hneary⟩
    · rintro ⟨n, hn, hm⟩
      rw [hnearx.unique hn, hneary.unique hm]

/-- A number just below zero has the text of zero. -/
theorem writesMillionths_belowZero :
    denote (-0.0000001 : Float) = .finite true (Binary64.toRat (Binary64.magnitude 0.0000001)) ∧
      denote (0.0 : Float) = .finite false 0 ∧ numeral (-0.0000001 : Float) = "0" ∧
        WritesMillionths (withSign true (Binary64.toRat (Binary64.magnitude 0.0000001)))
          (numeral (-0.0000001 : Float)) ∧
        (numeral (-0.0000001 : Float) = numeral (0.0 : Float) ↔ ∃ n : ℤ,
          IsNearest (withSign true (Binary64.toRat (Binary64.magnitude 0.0000001)) * 10 ^ 6) n ∧
            IsNearest (withSign false 0 * 10 ^ 6) n) := by
  have hx : denote (-0.0000001 : Float) =
      .finite true (Binary64.toRat (Binary64.magnitude 0.0000001)) := by decide +kernel
  have hy : denote (0.0 : Float) = .finite false 0 := by decide +kernel
  exact ⟨hx, hy, by decide +kernel, writesMillionths_numeral hx hy⟩

end

end Splice
