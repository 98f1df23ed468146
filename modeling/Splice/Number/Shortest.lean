import Splice.Number.Decimal

/-!
# Shortest decimals

The shortest decimal that stands for a binary fraction `m · 2 ^ q`: of all decimals inside the
interval of reals that round to it, one with the fewest digits, and of those the nearest. Each
count of digits gives a decimal grid, and if a point of a grid lies in the interval then so does
one of the two neighbours of the value on that grid; so only these two are tried. When both are
equally near, `Tie` decides.
-/

namespace Splice

/-- What is chosen between two decimals that are equally near. -/
inductive Tie where
  | toEven
  | upward
deriving DecidableEq

/-- A positive binary fraction `mantissa · 2 ^ power`, with the shape of its rounding interval.
`narrowBelow` says that the neighbour below is only half as far away as the one above. -/
structure BinaryFraction where
  mantissa : Nat
  power : Int
  narrowBelow : Bool

namespace BinaryFraction

/-- The fraction, in quarters of its last place, as a quotient of natural numbers scaled by the
common power of two: numerator factor and denominator. -/
def scale (b : BinaryFraction) : Nat × Nat :=
  if b.power ≥ 2 then (Nat.pow 2 (b.power - 2).toNat, 1)
  else (1, Nat.pow 2 (2 - b.power).toNat)

/-- Whether `candidate · 10 ^ exponent` rounds to the fraction. The ends of the interval count
exactly when the mantissa is even. -/
def roundsTo (b : BinaryFraction) (candidate : Nat) (exponent : Int) : Bool :=
  let (factor, den) := b.scale
  let low := (4 * b.mantissa - (if b.narrowBelow then 1 else 2)) * factor
  let high := (4 * b.mantissa + 2) * factor
  let (num, unit) := if exponent ≥ 0 then (candidate * Nat.pow 10 exponent.toNat * den, 1)
    else (candidate * den, Nat.pow 10 (-exponent).toNat)
  if b.mantissa % 2 = 0 then low * unit ≤ num && num ≤ high * unit
  else low * unit < num && num < high * unit

/-- The best decimal on the grid of step `10 ^ exponent`, if one of the two neighbours of the value
rounds to it. -/
def onGrid (tie : Tie) (b : BinaryFraction) (exponent : Int) : Option Decimal :=
  let (factor, den) := b.scale
  let (num, unit) :=
    if exponent ≥ 0 then (4 * b.mantissa * factor, den * Nat.pow 10 exponent.toNat)
    else (4 * b.mantissa * factor * Nat.pow 10 (-exponent).toNat, den)
  let below := num / unit
  let lower := b.roundsTo below exponent
  let upper := b.roundsTo (below + 1) exponent
  let twice := 2 * (num % unit)
  let nearLower := twice < unit || (twice == unit && tie == .toEven && below % 2 == 0)
  if lower && (nearLower || !upper) then some ⟨below, exponent⟩
  else if upper then some ⟨below + 1, exponent⟩
  else none

/-- The exponent of the first decimal digit, up to one too large. -/
def leadingBound (b : BinaryFraction) : Int :=
  let bits : Int := (Nat.log2 b.mantissa : Int) + 1 + b.power
  -- a number below `2 ^ bits` is below `10 ^ (bits · 0.30103 + 1)`
  (bits * 30103) / 100000 + 1

/-- Removes the factors of ten from the coefficient, at most `fuel` of them. -/
def stripTens : Nat → Decimal → Decimal
  | 0, d => d
  | fuel + 1, d =>
    if d.coefficient ≠ 0 ∧ d.coefficient % 10 = 0 then
      stripTens fuel ⟨d.coefficient / 10, d.exponent + 1⟩
    else d

/-- The shortest decimal that rounds to the fraction, without trailing zeros. -/
def shortest (tie : Tie) (b : BinaryFraction) : Decimal :=
  let top := b.leadingBound
  match (List.range 20).findSome? fun (count : Nat) ↦ b.onGrid tie (top - count) with
  | some d => stripTens 20 d
  | none => ⟨b.mantissa, b.power⟩

end BinaryFraction

end Splice
