import Splice.Number.Shortest
import Splice.Number.Word

/-!
# Scalars

Every quantity of a timeline (seconds, percentages, fractions, levels) is a scalar. The library is
generic in the type of scalars: doubles run it, and exact numbers serve to reason about it.

The class `Scalar` asks for arithmetic, an order, and for each scalar what it denotes: a rational,
an infinity, or no number. Everything that leaves the world of scalars (whole numbers, text) is
defined here from what the scalar denotes, so it means the same for every type of scalars.

## Comparisons with a value that is no number

The order is false on such a value in both directions. `Scalar.max` and `Scalar.min` yield to the
other argument, and `Scalar.clamp` passes the value on.
-/

namespace Splice

/-- What a scalar denotes: no number, an infinity, or a rational given by sign and magnitude. -/
inductive Denotation where
  | nan
  | infinite (negative : Bool)
  | finite (negative : Bool) (magnitude : Rat)
deriving DecidableEq

namespace Denotation

/-- The whole number that remains when the fraction is dropped, held within `[low, high]`. No
number gives `0`. -/
def truncateWithin (low high : Int) : Denotation → Int
  | nan => 0
  | infinite negative => if negative then low else high
  | finite negative magnitude =>
    let whole := if negative then -magnitude.floor else magnitude.floor
    max low (min high whole)

/-- Whether a rational is denoted. -/
def isFinite : Denotation → Bool
  | finite .. => true
  | _ => false

/-- Whether no number is denoted. -/
def isNaN : Denotation → Bool
  | nan => true
  | _ => false

/-- Writes a denotation: the words for what is not finite, `write` for a finite magnitude, and a
minus sign before what is negative. -/
def write (write : Rat → List Char) : Denotation → String
  | nan => "NaN"
  | infinite negative => if negative then "-inf" else "inf"
  | finite negative magnitude =>
    String.ofList (if negative then '-' :: write magnitude else write magnitude)

end Denotation

/-- A type of scalars. -/
class Scalar (α : Type) extends Add α, Sub α, Mul α, Div α, Neg α, LT α, LE α, BEq α,
    OfScientific α where
  /-- The order can be decided. -/
  decideLT : DecidableLT α
  /-- The order can be decided. -/
  decideLE : DecidableLE α
  /-- The scalar nearest to an integer. -/
  ofInt : Int → α
  /-- The magnitude. -/
  abs : α → α
  /-- The greatest integer not above. -/
  floor : α → α
  /-- The nearest integer; a half goes away from zero. -/
  round : α → α
  /-- What the scalar denotes. -/
  denote : α → Denotation
  /-- A total order that agrees with `<` and has a place for every scalar. -/
  precedes : α → α → Bool
  /-- The shortest decimal that stands for the magnitude of a finite scalar. -/
  shortest : Tie → α → Decimal
  /-- The scalar nearest to a decimal with a sign. -/
  ofDecimal : Bool → Decimal → α
  /-- The scalar for an infinity or for no number, where the type has one. -/
  ofDenotation? : Denotation → Option α

attribute [reducible, instance] Scalar.decideLT Scalar.decideLE

namespace Scalar

variable {α : Type} [Scalar α]

/-! ### Classification -/

/-- Whether the scalar denotes a rational. -/
def isFinite (x : α) : Bool := (denote x).isFinite

/-- Whether the scalar denotes no number. -/
def isNaN (x : α) : Bool := (denote x).isNaN

/-- The scalar for a natural number. -/
def ofNat (n : Nat) : α := ofInt n

/-! ### Bounds -/

/-- The greater of two scalars; of equal ones, such as the two zeros, the second. -/
def max (x y : α) : α :=
  if isNaN x then y else if isNaN y then x else if y < x then x else y

/-- The lesser of two scalars; of equal ones, such as the two zeros, the second. -/
def min (x y : α) : α :=
  if isNaN x then y else if isNaN y then x else if x < y then x else y

/-- The scalar held within `[low, high]`. -/
def clamp (low high x : α) : α := if x < low then low else if high < x then high else x

/-- The value if it is present and finite, else the default. -/
def finiteElse (fallback : α) (value : Option α) : α := (value.filter isFinite).getD fallback

/-! ### Whole numbers -/

/-- Truncation to a signed word of 64 bits; out of range the nearest end. -/
def toInt64 (x : α) : Int := (denote x).truncateWithin (-Word.half64) (Word.half64 - 1)

/-- Truncation to a signed word of 32 bits; out of range the nearest end. -/
def toInt32 (x : α) : Int := (denote x).truncateWithin (-Word.half32) (Word.half32 - 1)

/-- Truncation to an unsigned word of 64 bits; out of range the nearest end. -/
def toNat64 (x : α) : Nat := ((denote x).truncateWithin 0 (Word.count64 - 1)).toNat

/-- Truncation to an unsigned word of 32 bits; out of range the nearest end. -/
def toNat32 (x : α) : Nat := ((denote x).truncateWithin 0 (Word.count32 - 1)).toNat

/-- Truncation to a byte; out of range the nearest end. -/
def toByte (x : α) : Nat := ((denote x).truncateWithin 0 255).toNat

/-! ### Text -/

/-- The scalar with exactly `count` places. -/
def fixed (count : Nat) (x : α) : String :=
  (denote x).write fun magnitude ↦
    (Decimal.places count magnitude.num.natAbs magnitude.den).positional

/-- The scalar with the fewest digits that stand for it, every digit in its place. -/
def plain (x : α) : String := (denote x).write fun _ ↦ (shortest .upward x).positional

/-- The scalar as a number of a filter: at most six places, no trailing zeros, no sign on zero. -/
def numeral (x : α) : String :=
  let text := Decimal.dropTrailing '.' (Decimal.dropTrailing '0' (fixed 6 x).toList)
  if text = [] ∨ text = ['-'] ∨ text = ['-', '0'] then "0" else String.ofList text

end Scalar

end Splice
