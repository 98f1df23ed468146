import Mathlib.Data.List.DropRight
import Splice.Proofs.Number.Order
import Splice.Proofs.Number.Places

/-!
# Numerals

The text of a number in a filter is what is left of a text with six places when the zeros at its end
are dropped, and then the point at its end. A text with six places has a point, so the zeros before
it are safe (`dropTrailing_positional`); all that is left to look at is whether the sign of a number
that was rounded to zero stands alone with this zero.

So the text depends on nothing but how many millionths the number was rounded to
(`toList_numeral`), and it is read as so many millionths (`valueOf?_millionthsText`).
-/

namespace Splice

open Scalar (denote fixed numeral)

namespace Decimal

/-! ### Characters at the end -/

variable {c : Char} {text : List Char}

theorem dropTrailing_eq (c : Char) (text : List Char) :
    dropTrailing c text = text.rdropWhile (· == c) := rfl

/-- What is left does not end in the character. -/
theorem getLast?_dropTrailing_ne (c : Char) (text : List Char) :
    (dropTrailing c text).getLast? ≠ some c := by
  intro hlast
  obtain ⟨hne, hc⟩ := List.mem_getLast?_eq_getLast hlast
  exact List.rdropWhile_last_not (· == c) text hne (beq_iff_eq.2 hc.symm)

/-- Nothing is dropped where the character does not stand at the end. -/
theorem dropTrailing_eq_self (h : text.getLast? ≠ some c) : dropTrailing c text = text := by
  rw [dropTrailing_eq, List.rdropWhile_eq_self_iff]
  intro hne hc
  exact h (by rw [List.getLast?_eq_some_getLast hne, beq_iff_eq.1 hc])

/-- Nothing but the character was dropped. -/
theorem exists_replicate_dropTrailing (c : Char) (text : List Char) :
    ∃ count, dropTrailing c text ++ List.replicate count c = text := by
  have hcut : ∀ d ∈ text.rtakeWhile (· == c), d = c := fun d hd ↦
    beq_iff_eq.1 (List.mem_rtakeWhile_imp (p := (· == c)) hd)
  refine ⟨(text.rtakeWhile (· == c)).length, ?_⟩
  rw [← List.eq_replicate_of_mem hcut]
  exact List.rdropWhile_append_rtakeWhile

/-- What is dropped reaches to the front if nothing else stands at the end. -/
theorem dropTrailing_append (c : Char) (front text : List Char) :
    dropTrailing c (front ++ text) =
      if dropTrailing c text = [] then dropTrailing c front else front ++ dropTrailing c text := by
  simp only [dropTrailing, List.reverse_append, List.dropWhile_append, List.isEmpty_iff,
    List.reverse_eq_nil_iff]
  split_ifs <;> simp

/-- A point holds back the zeros before it. -/
theorem dropTrailing_point (front fraction : List Char) :
    dropTrailing '0' (front ++ '.' :: fraction) = front ++ '.' :: dropTrailing '0' fraction := by
  have hpoint : dropTrailing '0' ('.' :: fraction) = '.' :: dropTrailing '0' fraction := by
    rw [← List.singleton_append, dropTrailing_append]
    split_ifs with h
    · rw [h]
      rfl
    · rfl
  rw [dropTrailing_append, hpoint, if_neg (List.cons_ne_nil _ _)]

end Decimal

/-! ### The short form -/

/-- The fraction digits of a decimal as they are shown: none, or a point and digits that do not end
in `0`. -/
def Scalar.shownFraction (fraction : List Char) : List Char :=
  match Decimal.dropTrailing '0' fraction with
  | [] => []
  | digits => '.' :: digits

namespace Decimal

open Scalar (shownFraction)

/-- A fraction of zeros is not shown, and neither is its point. -/
theorem shownFraction_of_eq_nil {fraction : List Char} (h : dropTrailing '0' fraction = []) :
    shownFraction fraction = [] := by
  rw [shownFraction, h]

/-- Any other fraction is shown behind a point. -/
theorem shownFraction_of_ne_nil {fraction : List Char} (h : dropTrailing '0' fraction ≠ []) :
    shownFraction fraction = '.' :: dropTrailing '0' fraction := by
  rw [shownFraction]
  split
  · contradiction
  · rfl

/-- Every digit in its place, but the zeros at the end of the fraction. -/
def shown (d : Decimal) : List Char := d.split.1 ++ shownFraction d.split.2

/-- A decimal with places is shown without the zeros at its end, whatever stands before it. -/
theorem dropTrailing_positional {d : Decimal} (h : d.exponent < 0) (front : List Char) :
    dropTrailing '.' (dropTrailing '0' (front ++ d.positional)) = front ++ d.shown := by
  obtain ⟨hne, hwhole, -⟩ := split_whole d
  have hdigit {text : List Char} (htext : ∀ c ∈ text, c.isDigit = true) :
      text.getLast? ≠ some '.' := fun hlast ↦
    absurd (htext '.' (List.mem_of_getLast? hlast)) (by decide)
  rw [positional_eq h, ← List.append_assoc, dropTrailing_point, shown]
  by_cases hfraction : dropTrailing '0' d.split.2 = []
  · -- the point is dropped, and a digit stands before it
    rw [shownFraction_of_eq_nil hfraction, hfraction, dropTrailing_append, if_pos (by decide),
      List.append_nil]
    refine dropTrailing_eq_self ?_
    rw [List.getLast?_append_of_ne_nil _ hne]
    exact hdigit hwhole
  · have hmore : ∀ c ∈ dropTrailing '0' d.split.2, c.isDigit = true := fun c hc ↦
      isDigit_of_mem_split_fraction ((List.rdropWhile_prefix _ _).mem hc)
    rw [shownFraction_of_ne_nil hfraction, ← List.append_assoc]
    refine dropTrailing_eq_self ?_
    rw [List.append_cons, List.getLast?_append_of_ne_nil _ hfraction]
    exact hdigit hmore

/-! ### Reading the short form -/

/-- Digits without a point are read as a whole number. -/
theorem magnitudeOf?_whole {whole : List Char} (hne : whole ≠ [])
    (hwhole : ∀ c ∈ whole, c.isDigit = true) :
    magnitudeOf? whole = some ⟨natOfDigits whole, 0⟩ := by
  have hdigits : whole.takeWhile Char.isDigit = whole := List.takeWhile_eq_self_iff.2 hwhole
  have hrest : whole.dropWhile Char.isDigit = [] := List.dropWhile_eq_nil_iff.2 hwhole
  rw [magnitudeOf?, hdigits, hrest]
  simp [hne, exponentOf?]

/-- Zeros at the end multiply by powers of ten. -/
theorem natOfDigits_append_zeros (digits : List Char) (count : ℕ) :
    natOfDigits (digits ++ List.replicate count '0') = natOfDigits digits * 10 ^ count := by
  show Nat.ofDigitChars 10 (digits ++ _) 0 = Nat.ofDigitChars 10 digits 0 * 10 ^ count
  rw [Nat.ofDigitChars_append, Nat.ofDigitChars_replicate_zero, Nat.mul_comm]

/-- The short form is read as the decimal that it was made from. -/
theorem value_shown {d : Decimal} (h : d.exponent < 0) :
    (magnitudeOf? d.shown).map value = some d.value := by
  obtain ⟨hne, hwhole, -⟩ := split_whole d
  obtain ⟨count, hzeros⟩ := exists_replicate_dropTrailing '0' d.split.2
  have hread : magnitudeOf? d.shown =
      some ⟨natOfDigits (d.split.1 ++ dropTrailing '0' d.split.2),
        -(dropTrailing '0' d.split.2).length⟩ := by
    rw [shown]
    by_cases hfraction : dropTrailing '0' d.split.2 = []
    · rw [shownFraction_of_eq_nil hfraction, hfraction, List.append_nil,
        magnitudeOf?_whole hne hwhole]
      rfl
    · have hmore : ∀ c ∈ dropTrailing '0' d.split.2, c.isDigit = true := fun c hc ↦
        isDigit_of_mem_split_fraction ((List.rdropWhile_prefix _ _).mem hc)
      rw [shownFraction_of_ne_nil hfraction, magnitudeOf?_point hne hwhole hmore]
  generalize dropTrailing '0' d.split.2 = kept at hzeros hread
  -- the zeros that were dropped are places that the exponent lacks
  have hcoefficient : d.coefficient = natOfDigits (d.split.1 ++ kept) * 10 ^ count := by
    rw [← natOfDigits_append_zeros, List.append_assoc, hzeros, split_append h, natOfDigits_padded]
  have hexponent : d.exponent = -(kept.length : ℤ) - count := by
    have hlength := length_split_fraction h
    rw [← hzeros, List.length_append, List.length_replicate] at hlength
    omega
  rw [hread, Option.map_some, value, value, hcoefficient, hexponent]
  push_cast
  rw [mul_assoc, ← zpow_natCast (10 : ℚ) count, ← zpow_add₀ (by norm_num)]
  congr 3
  ring

/-- What is shown of a decimal is a digit and more digits, perhaps around a point. -/
theorem exists_cons_shown (d : Decimal) :
    ∃ c more, d.shown = c :: more ∧ c.isDigit = true ∧
      ∀ b ∈ more, b.isDigit = true ∨ b = '.' := by
  obtain ⟨hne, hwhole, -⟩ := split_whole d
  obtain ⟨c, cs, hcons⟩ := List.exists_cons_of_ne_nil hne
  rw [hcons] at hwhole
  refine ⟨c, cs ++ shownFraction d.split.2, by rw [shown, hcons, List.cons_append],
    hwhole c List.mem_cons_self, fun b hb ↦ ?_⟩
  rcases List.mem_append.1 hb with hb | hb
  · exact .inl (hwhole b (List.mem_cons_of_mem _ hb))
  · rw [shownFraction] at hb
    split at hb
    · cases hb
    · rcases List.mem_cons.1 hb with rfl | hb
      · exact .inr rfl
      · exact .inl (isDigit_of_mem_split_fraction ((List.rdropWhile_prefix _ _).mem hb))

/-- Only zero is shown as a zero. -/
theorem shown_eq_zero_iff {d : Decimal} (h : d.exponent = -6) :
    d.shown = ['0'] ↔ d.coefficient = 0 := by
  constructor
  · intro hshown
    have hvalue := value_shown (d := d) (by omega)
    rw [hshown] at hvalue
    have hzero : (magnitudeOf? ['0']).map value = some 0 := by
      rw [magnitudeOf?_whole (by simp) (by simp), Option.map_some, value]
      norm_num [natOfDigits]
    rw [hzero, Option.some.injEq, value, h] at hvalue
    simpa using hvalue.symm
  · intro hzero
    obtain ⟨coefficient, exponent⟩ := d
    obtain rfl : coefficient = 0 := hzero
    obtain rfl : exponent = -6 := h
    decide

end Decimal

/-! ### Signs -/

/-- The rational that a text consists of. -/
def valueOf? (text : String) : Option ℚ :=
  let (negative, rest) := splitSign text.toList
  (magnitudeOf? rest).map fun magnitude ↦ withSign negative magnitude.value

/-- How many millionths a text with six places shows. -/
def millionths (negative : Bool) (magnitude : ℚ) : ℤ :=
  let count := (Decimal.places 6 magnitude.num.natAbs magnitude.den).coefficient
  if negative then -count else count

/-- The text of so many millionths. -/
def millionthsText (count : ℤ) : List Char :=
  (if count < 0 then ['-'] else []) ++ (Decimal.mk count.natAbs (-6)).shown

/-- What is left of six places, if it is more than a sign or a zero with a sign. -/
theorem toList_short {d : Decimal} (h : d.exponent = -6) (negative : Bool) :
    let text := Decimal.dropTrailing '.' (Decimal.dropTrailing '0'
      ((if negative then ['-'] else []) ++ d.positional))
    (if text = [] ∨ text = ['-'] ∨ text = ['-', '0'] then "0" else String.ofList text).toList =
      millionthsText (if negative then -d.coefficient else d.coefficient) := by
  intro text
  have htext : text = (if negative then ['-'] else []) ++ d.shown :=
    Decimal.dropTrailing_positional (by omega) _
  have hmk : Decimal.mk d.coefficient (-6) = d := by rw [← h]
  obtain ⟨c, more, hcons, hc, -⟩ := d.exists_cons_shown
  have hminus : c ≠ '-' := by
    rintro rfl
    exact absurd hc (by decide)
  rw [htext, millionthsText]
  cases negative with
  | false =>
    have hproper : ¬ (d.shown = [] ∨ d.shown = ['-'] ∨ d.shown = ['-', '0']) := by
      simp [hcons, hminus]
    simp [hproper, hmk]
  | true =>
    have hshown : d.shown ≠ [] := by simp [hcons]
    by_cases hzero : d.coefficient = 0
    · -- a sign does not stand before a zero
      rw [(Decimal.shown_eq_zero_iff h).2 hzero, hzero]
      decide
    · have hone : d.shown ≠ ['0'] := (Decimal.shown_eq_zero_iff h).not.2 hzero
      simp [hshown, hone, hmk, Nat.pos_of_ne_zero hzero]

section

variable {α : Type} [Scalar α] {x : α} {negative : Bool} {magnitude : ℚ}

/-- A text with places is a sign and the digits of the rounded magnitude. -/
theorem toList_fixed (count : ℕ) (hx : denote x = .finite negative magnitude) :
    (fixed count x).toList = (if negative then ['-'] else []) ++
      (Decimal.places count magnitude.num.natAbs magnitude.den).positional := by
  rw [fixed, hx]
  cases negative <;> exact String.toList_ofList

/-- The text of a number is that of the millionths that it was rounded to. -/
theorem toList_numeral (hx : denote x = .finite negative magnitude) :
    (numeral x).toList = millionthsText (millionths negative magnitude) := by
  rw [numeral, toList_fixed 6 hx, millionths]
  exact toList_short rfl negative

end

theorem splitSign_of_isDigit {c : Char} (h : c.isDigit = true) (more : List Char) :
    splitSign (c :: more) = (false, c :: more) := by
  rw [splitSign.eq_def]
  split
  · rename_i heq
    obtain ⟨rfl, -⟩ := List.cons.inj heq
    exact absurd h (by decide)
  · rename_i heq
    obtain ⟨rfl, -⟩ := List.cons.inj heq
    exact absurd h (by decide)
  · rfl

/-- The text of millionths is read as so many millionths. -/
theorem valueOf?_millionthsText (count : ℤ) :
    valueOf? (String.ofList (millionthsText count)) = some ((count : ℚ) / 10 ^ 6) := by
  have hplaces : (Decimal.mk count.natAbs (-6)).exponent < 0 := by
    show (-6 : ℤ) < 0
    decide
  obtain ⟨c, more, hcons, hc, -⟩ := (Decimal.mk count.natAbs (-6)).exists_cons_shown
  obtain ⟨d, hd, hvalue⟩ := Option.map_eq_some_iff.1 (Decimal.value_shown hplaces)
  -- a sign stands only before a count below zero, and the digits behind it never begin with one
  have hsplit : splitSign (millionthsText count) = (decide (count < 0), c :: more) := by
    rw [millionthsText, hcons]
    split_ifs with h
    · rw [decide_eq_true h]
      rfl
    · rw [decide_eq_false h, List.nil_append, splitSign_of_isDigit hc]
  have habs : (count.natAbs : ℚ) = |(count : ℚ)| := by
    rw [Nat.cast_natAbs, Int.cast_abs]
  have hunit : ((10 : ℚ) ^ (-6 : ℤ)) = 1 / 10 ^ 6 := by norm_num
  have hread : valueOf? (String.ofList (millionthsText count)) =
      some (withSign (decide (count < 0)) (count.natAbs * (10 : ℚ) ^ (-6 : ℤ))) := by
    rw [valueOf?, String.toList_ofList, hsplit]
    show (magnitudeOf? (c :: more)).map _ = _
    rw [← hcons, hd, Option.map_some, hvalue, Decimal.value]
  rw [hread, habs, hunit, mul_one_div, withSign]
  by_cases h : count < 0
  · have hneg : (count : ℚ) < 0 := by exact_mod_cast h
    rw [if_pos (decide_eq_true h), abs_of_neg hneg, neg_div, neg_neg]
  · have hnonneg : (0 : ℚ) ≤ count := by exact_mod_cast not_lt.1 h
    rw [if_neg (by simpa using h), abs_of_nonneg hnonneg]

end Splice
