import Mathlib.Data.List.Basic
import Mathlib.Tactic.SplitIfs
import Splice.Json.Record
import Splice.Json.Token
import Splice.Proofs.Number.Digits

/-!
# Numbers of a document

The literals that are written are well-formed (`Literal.wellFormed_ofInt`,
`Literal.wellFormed_ofMagnitude`), and a well-formed literal is read off the front of a text as it
was written, if what follows could not belong to it (`Scan.next?_number`). An integer that fits a
word is read back as that integer.
-/

namespace Splice

/-! ### Well-formed literals -/

/-- A literal whose text is a number of JSON. -/
structure Literal.WellFormed (l : Literal) : Prop where
  whole_ne_nil : l.whole ≠ []
  whole : ∀ c ∈ l.whole, c.isDigit = true
  head?_ne : 1 < l.whole.length → l.whole.head? ≠ some '0'
  fraction : ∀ c ∈ l.fraction, c.isDigit = true
  exponent_ne_nil : ∀ power ∈ l.exponent, power.2 ≠ []
  exponent : ∀ power ∈ l.exponent, ∀ c ∈ power.2, c.isDigit = true

namespace Literal

open Decimal (digitsOf isDigit_of_mem_digitsOf digitsOf_ne_nil)

/-- The literal of an integer is a number of JSON. -/
theorem wellFormed_ofInt (n : Int) : (ofInt n).WellFormed where
  whole_ne_nil := digitsOf_ne_nil _
  whole _ := isDigit_of_mem_digitsOf
  head?_ne := Decimal.head?_digitsOf_of_length
  fraction := List.forall_mem_nil _
  exponent_ne_nil := nofun
  exponent := nofun

/-- So is that of a decimal, in plain notation and with an exponent. -/
theorem wellFormed_ofMagnitude (negative : Bool) (d : Decimal) :
    (ofMagnitude negative d).WellFormed := by
  rw [ofMagnitude]
  split_ifs
  · obtain ⟨hne, hdigits, hhead⟩ := Decimal.split_whole d
    refine ⟨hne, hdigits, hhead, ?_, nofun, nofun⟩
    show ∀ c ∈ if d.split.2.isEmpty then ['0'] else d.split.2, c.isDigit = true
    split_ifs
    · simp
    · exact fun _ ↦ Decimal.isDigit_of_mem_split_fraction
  · have hdigits : ∀ c ∈ digitsOf d.coefficient, c.isDigit = true :=
      fun _ ↦ isDigit_of_mem_digitsOf
    refine ⟨?_, fun c hc ↦ hdigits c (List.mem_of_mem_take hc), fun hlong ↦ ?_,
      fun c hc ↦ hdigits c (List.mem_of_mem_drop hc), ?_, ?_⟩
    · rw [Ne, ← List.length_eq_zero_iff, List.length_take]
      have := List.length_pos_iff.2 (digitsOf_ne_nil d.coefficient)
      omega
    · rw [List.length_take] at hlong
      omega
    · rintro power ⟨⟩
      exact digitsOf_ne_nil _
    · rintro power ⟨⟩ c
      exact isDigit_of_mem_digitsOf

/-- A finite scalar has a well-formed literal. -/
theorem wellFormed_of_ofScalar? {α : Type} [Scalar α] {x : α} {l : Literal}
    (h : ofScalar? x = some l) : l.WellFormed := by
  rw [ofScalar?] at h
  split at h
  · rw [← Option.some.inj h]
    exact wellFormed_ofMagnitude _ _
  · cases h

/-! ### Texts -/

/-- The text of a fraction. -/
def fractionText (fraction : List Char) : List Char :=
  if fraction.isEmpty then [] else '.' :: fraction

/-- The text of an exponent. -/
def powerText : Option (Bool × List Char) → List Char
  | none => []
  | some (negative, digits) => 'e' :: (if negative then '-' else '+') :: digits

/-- The text of a literal is made of its sign, its whole part, its fraction and its exponent. -/
theorem text_eq (l : Literal) : l.text = (if l.negative then ['-'] else []) ++
    (l.whole ++ (fractionText l.fraction ++ powerText l.exponent)) := by
  rw [text, fractionText]
  rcases l.exponent with - | ⟨negative, digits⟩ <;> simp [powerText]

end Literal

/-! ### Scanning -/

namespace Json.Scan

open Literal (fractionText powerText)

/-- A text that does not go on with a number. -/
def Delimits (rest : List Char) : Prop :=
  ∀ c ∈ rest.head?, c.isDigit = false ∧ c ≠ '.' ∧ c ≠ 'e' ∧ c ≠ 'E'

/-- Digits are read up to what is no digit. -/
theorem digits_append {front rest : List Char} (hfront : ∀ c ∈ front, c.isDigit = true)
    (hrest : ∀ c ∈ rest.head?, c.isDigit = false) : digits (front ++ rest) = (front, rest) := by
  rw [digits, List.takeWhile_append_of_pos hfront, List.dropWhile_append_of_pos hfront]
  cases rest with
  | nil => rw [List.takeWhile_nil, List.dropWhile_nil, List.append_nil]
  | cons c rest => simp [hrest c rfl]

/-- An exponent is read back, if what follows does not go on with it. -/
theorem exponent?_powerText {exponent : Option (Bool × List Char)} {rest : List Char}
    (hne : ∀ power ∈ exponent, power.2 ≠ [])
    (hdigits : ∀ power ∈ exponent, ∀ c ∈ power.2, c.isDigit = true) (hrest : Delimits rest) :
    exponent? (powerText exponent ++ rest) = some (exponent, rest) := by
  rcases exponent with - | ⟨negative, power⟩
  · cases rest with
    | nil => rfl
    | cons c rest =>
      obtain ⟨-, -, he, hE⟩ := hrest c rfl
      rw [powerText, List.nil_append, exponent?, if_neg (not_or.2 ⟨he, hE⟩)]
  · have hscan : digits (power ++ rest) = (power, rest) :=
      digits_append (hdigits _ rfl) fun c hc ↦ (hrest c hc).1
    have hpower : power.isEmpty = false := List.isEmpty_eq_false_iff.2 (hne _ rfl)
    cases negative <;> simp [powerText, exponent?, splitSign, hscan, hpower]

/-- What follows a fraction is no part of it. -/
theorem fraction?_fractionText {fraction more : List Char}
    (hdigits : ∀ c ∈ fraction, c.isDigit = true)
    (hmore : ∀ c ∈ more.head?, c.isDigit = false ∧ c ≠ '.') :
    fraction? (fractionText fraction ++ more) = some (fraction, more) := by
  cases fraction with
  | nil =>
    show fraction? more = _
    rw [fraction?.eq_def]
    split
    · exact absurd rfl (hmore '.' rfl).2
    · rfl
  | cons c fraction =>
    show fraction? ('.' :: (c :: fraction ++ more)) = _
    rw [fraction?, digits_append hdigits fun c hc ↦ (hmore c hc).1]
    rfl

/-- A literal is read back from its text behind the sign. -/
theorem unsigned?_text {l : Literal} {rest : List Char} (hl : l.WellFormed)
    (hrest : Delimits rest) :
    unsigned? l.negative
        (l.whole ++ (fractionText l.fraction ++ (powerText l.exponent ++ rest))) =
      some (l, rest) := by
  -- each part has to end where the next one begins
  have hpower : ∀ c ∈ (powerText l.exponent ++ rest).head?, c.isDigit = false ∧ c ≠ '.' := by
    rcases l.exponent with - | ⟨negative, power⟩
    · exact fun c hc ↦ ⟨(hrest c hc).1, (hrest c hc).2.1⟩
    · rintro c ⟨⟩
      decide
  have hfraction : ∀ c ∈ (fractionText l.fraction ++ (powerText l.exponent ++ rest)).head?,
      c.isDigit = false := by
    cases l.fraction with
    | nil => exact fun c hc ↦ (hpower c hc).1
    | cons d fraction =>
      rintro c ⟨⟩
      decide
  have hwhole : ¬ (l.whole.isEmpty || l.whole.length > 1 && l.whole.head? == some '0') = true := by
    have := hl.head?_ne
    have := hl.whole_ne_nil
    simp_all
  rw [unsigned?, digits_append hl.whole hfraction]
  simp only [if_neg hwhole]
  rw [fraction?_fractionText hl.fraction hpower, Option.bind_some,
    exponent?_powerText hl.exponent_ne_nil hl.exponent hrest]
  rfl

/-- A well-formed literal is the next token, with its sign or without one. -/
theorem next?_number {l : Literal} {rest : List Char} (hl : l.WellFormed)
    (hrest : Delimits rest) : next? (l.text ++ rest) = some (.number l, rest) := by
  have hscan := unsigned?_text hl hrest
  rw [Literal.text_eq, List.append_assoc, List.append_assoc, List.append_assoc]
  cases hnegative : l.negative with
  | true =>
    rw [hnegative] at hscan
    rw [if_pos rfl, List.singleton_append, next?, hscan]
    rfl
  | false =>
    rw [hnegative] at hscan
    obtain ⟨c, whole, hwhole⟩ := List.exists_cons_of_ne_nil hl.whole_ne_nil
    have hc : c.isDigit = true := hl.whole c (hwhole ▸ List.mem_cons_self)
    rw [hwhole] at hscan ⊢
    rw [if_neg Bool.false_ne_true, List.nil_append, List.cons_append, next?.eq_def]
    split <;> simp_all

end Json.Scan

/-! ### Integers -/

namespace Json

variable {α : Type} [Scalar α]

/-- An integer that fits a word is kept as an integer. -/
theorem number?_ofInt {n : Int} (h : n.natAbs ≤ Word.half64) :
    (Literal.ofInt n).number? (α := α) = some (if n < 0 then .negative n.natAbs
      else .natural n.natAbs) := by
  have hpos : n < 0 → n.natAbs ≠ 0 := by omega
  have hlt : n.natAbs < Word.count64 := by
    rw [Word.count64]
    rw [Word.half64] at h
    omega
  by_cases hn : n < 0 <;>
    simp [Literal.number?, Literal.ofInt, Decimal.natOfDigits_digitsOf, hn, h, hlt, hpos]

/-- An integer within bounds that fit a word is read back. -/
theorem intWithin?_ofInt {low high n : Int} (hlow : -Word.half64 ≤ low) (hhigh : high ≤ Word.half64)
    (h : low ≤ n ∧ n ≤ high) : intWithin? α low high (ofInt n) = some n := by
  rw [ofInt, intWithin?, number?_ofInt (by omega)]
  by_cases hn : n < 0
  · have hcast : -(n.natAbs : Int) = n := by omega
    rw [if_pos hn]
    show (if low ≤ -(n.natAbs : Int) then some (-(n.natAbs : Int)) else none) = some n
    rw [hcast, if_pos h.1]
  · have hcast : (n.natAbs : Int) = n := by omega
    rw [if_neg hn]
    show (if (n.natAbs : Int) ≤ high then some (n.natAbs : Int) else none) = some n
    rw [hcast, if_pos h.2]

/-- An integer of 32 bits is read back. -/
theorem int32?_ofInt {n : Int} (h : -(Word.half32 : Int) ≤ n ∧ n ≤ Word.half32 - 1) :
    int32? α (ofInt n) = some n :=
  intWithin?_ofInt (by decide) (by decide) h

theorem nat32?_ofNat {n : Nat} (h : n < Word.count32) : nat32? α (ofNat n) = some n := by
  rw [nat32?, ofNat, intWithin?_ofInt (by decide) (by decide) (by omega)]
  rfl

end Json

end Splice
