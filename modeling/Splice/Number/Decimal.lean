/-!
# Decimals

A decimal is a natural coefficient times a power of ten; its sign travels beside it, so that a
negative zero can be told from a positive one. This module holds the digits of a decimal, their
layout around a point, and rounding of a quotient to a fixed number of places.

* `Decimal.positional` writes every digit in its place; `Decimal.split` is what stands before and
  after the point.
* `Decimal.leading` is the exponent that a layout with one digit before the point shows.
* `Decimal.places` rounds a quotient to a number of places; a tie goes to the even neighbour.
-/

namespace Splice

/-- The decimal `coefficient · 10 ^ exponent`. -/
structure Decimal where
  coefficient : Nat
  exponent : Int
deriving DecidableEq, Repr

namespace Decimal

/-! ### Digits -/

/-- The decimal digits of a natural number, most significant first. -/
def digitsOf (n : Nat) : List Char := Nat.toDigits 10 n

/-- Digits padded with zeros on the left to at least `width`. -/
def padded (width : Nat) (n : Nat) : List Char :=
  let digits := digitsOf n
  List.replicate (width - digits.length) '0' ++ digits

/-- The text without a character wherever it stands at the end. -/
def dropTrailing (c : Char) (text : List Char) : List Char :=
  (text.reverse.dropWhile (· == c)).reverse

/-- The exponent of the first digit: `d.ddd · 10 ^ leading`. -/
def leading (d : Decimal) : Int := d.exponent + (digitsOf d.coefficient).length - 1

/-! ### Layouts -/

/-- The digits before and after the point, when every digit stands in its place. -/
def split (d : Decimal) : List Char × List Char :=
  if d.exponent ≥ 0 then
    (digitsOf (d.coefficient * Nat.pow 10 d.exponent.toNat), [])
  else
    let places := (-d.exponent).toNat
    let digits := padded (places + 1) d.coefficient
    (digits.take (digits.length - places), digits.drop (digits.length - places))

/-- Every digit in its place, with a point only where digits follow it. -/
def positional (d : Decimal) : List Char :=
  match d.split with
  | (whole, []) => whole
  | (whole, fraction) => whole ++ '.' :: fraction

/-! ### Fixed places -/

/-- The natural number nearest to `num / den`; a tie goes to the even neighbour. -/
def roundQuotient (num den : Nat) : Nat :=
  let quotient := num / den
  let twice := 2 * (num % den)
  if twice < den then quotient
  else if den < twice then quotient + 1
  else if quotient % 2 = 0 then quotient else quotient + 1

/-- The quotient `num / den` in units of `10 ^ (-count)`, rounded. -/
def places (count num den : Nat) : Decimal :=
  ⟨roundQuotient (num * Nat.pow 10 count) den, -count⟩

end Decimal

end Splice
