import Splice.Number.Reading

/-!
# Numbers of a document

A number of a document is kept as it was written: sign, digits, fraction and exponent. What it
means depends on who reads it.

* `Literal.number?` reads it. Without a point and an exponent it is a whole number, if it fits a
  word of 64 bits. Any other number is read through a significand of 64 bits: the digits that no
  longer fit only count as powers of ten before the point, and are dropped after it; then the
  significand is scaled by powers of ten in the arithmetic of the scalars. A number that this
  scaling takes beyond the finite scalars has no reading.
* `Literal.ofScalar` writes the shortest decimal of a scalar, always with a point or an exponent, so
  that a scalar is never read back as a whole number.
-/

namespace Splice

/-- A number as it stands in a document. The exponent has the sign "negative" and digits. -/
structure Literal where
  negative : Bool
  whole : List Char
  fraction : List Char
  exponent : Option (Bool × List Char)
deriving DecidableEq, Repr

/-- What a literal is read as. -/
inductive Number (α : Type) where
  | natural (value : Nat)
  | negative (value : Nat)
  | real (value : α)

namespace Literal

/-! ### Text -/

/-- The characters of a literal. -/
def text (l : Literal) : List Char :=
  let power := match l.exponent with
    | none => []
    | some (negative, digits) => 'e' :: (if negative then '-' else '+') :: digits
  let fraction := if l.fraction.isEmpty then [] else '.' :: l.fraction
  (if l.negative then ['-'] else []) ++ l.whole ++ fraction ++ power

/-- The literal of an integer. -/
def ofInt (n : Int) : Literal := ⟨n < 0, Decimal.digitsOf n.natAbs, [], none⟩

/-- The layout of a magnitude: every digit in its place from five places below the point to sixteen
digits before it, else one digit before the point and a signed exponent. -/
def ofMagnitude (negative : Bool) (d : Decimal) : Literal :=
  if -5 ≤ d.leading && d.leading < 16 then
    let (whole, fraction) := d.split
    ⟨negative, whole, if fraction.isEmpty then ['0'] else fraction, none⟩
  else
    let digits := Decimal.digitsOf d.coefficient
    ⟨negative, digits.take 1, digits.drop 1,
      some (d.leading < 0, Decimal.digitsOf d.leading.natAbs)⟩

/-- The literal of a scalar, if it is finite. -/
def ofScalar? {α : Type} [Scalar α] (x : α) : Option Literal :=
  match Scalar.denote x with
  | .finite negative _ => some (ofMagnitude negative (Scalar.shortest .toEven x))
  | _ => none

/-! ### Reading -/

/-- Appends digits to a significand as long as it fits a word of 64 bits; what is left did not. -/
def absorb (significand : Nat) : List Char → Nat × List Char
  | [] => (significand, [])
  | digit :: rest =>
    let next := 10 * significand + (digit.toNat - '0'.toNat)
    if next < Word.count64 then absorb next rest else (significand, digit :: rest)

/-- The power of ten as a scalar. -/
def powerOfTen {α : Type} [Scalar α] (n : Nat) : α := OfScientific.ofScientific 1 false n

/-- Divides by ten to the power `shrink`, at most `308` powers at a time, until zero is reached. -/
def shrink {α : Type} [Scalar α] (x : α) (power : Nat) : α :=
  if h : power ≤ 308 then x / powerOfTen power
  else if x == 0.0 then x
  else shrink (x / powerOfTen 308) (power - 308)
termination_by power
decreasing_by omega

/-- The significand times a power of ten, if that is finite. -/
def scaled? {α : Type} [Scalar α] (significand : Nat) (power : Int) : Option α :=
  let x : α := Scalar.ofNat significand
  if power < 0 then some (shrink x (-power).toNat)
  else if power ≤ 308 then
    let y := x * powerOfTen power.toNat
    if Scalar.isFinite y then some y else none
  else if significand = 0 then some x
  else none

/-- The magnitude of a literal that is not a whole number, if it is finite. -/
def magnitude? {α : Type} [Scalar α] (l : Literal) : Option α :=
  let (before, uncounted) := absorb 0 l.whole
  let (significand, dropped) := absorb before l.fraction
  let power : Int := uncounted.length - (l.fraction.length - dropped.length : Nat)
  match l.exponent with
  | none => scaled? significand power
  | some (negative, digits) =>
    let exponent := natOfDigits digits
    if exponent < Word.half32 then
      scaled? significand (if negative then power - exponent else power + exponent)
    else if significand = 0 || negative then some 0.0
    else none

/-- The reading of a literal, if its value is finite. -/
def number? {α : Type} [Scalar α] (l : Literal) : Option (Number α) :=
  let real := (magnitude? l).map fun x ↦ Number.real (if l.negative then -x else x)
  if l.fraction.isEmpty && l.exponent.isNone then
    let n := natOfDigits l.whole
    if l.negative then
      if n ≠ 0 ∧ n ≤ Word.half64 then some (.negative n) else real
    else if n < Word.count64 then some (.natural n) else real
  else real

end Literal

/-- The scalar that a number stands for. -/
def Number.toScalar {α : Type} [Scalar α] : Number α → α
  | .natural n => Scalar.ofNat n
  | .negative n => Scalar.ofInt (-n)
  | .real x => x

end Splice
