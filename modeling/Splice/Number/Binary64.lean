import Splice.Number.Scalar

/-!
# Doubles

The scalars that run the library: IEEE doubles. A double is read through its three fields (sign,
exponent, fraction), which give the rational that it denotes and the binary fraction whose shortest
decimal is written.
-/

namespace Splice

namespace Binary64

/-- The sign bit. -/
def isNegative (x : Float) : Bool := x.toBits.toNat ≥ Word.half64

/-- The bits below the sign. -/
def payload (x : Float) : Nat := x.toBits.toNat % Word.half64

/-- The number of values of the fraction field, which has 52 bits. -/
def fractionCount : Nat := 4503599627370496

/-- The exponent field. -/
def exponentField (x : Float) : Nat := payload x / fractionCount

/-- The fraction field. -/
def fractionField (x : Float) : Nat := payload x % fractionCount

/-- The magnitude of a finite double as a binary fraction. -/
def magnitude (x : Float) : BinaryFraction :=
  let exponent := exponentField x
  let fraction := fractionField x
  if exponent = 0 then ⟨fraction, -1074, false⟩
  else ⟨fractionCount + fraction, (exponent : Int) - 1075, fraction = 0 && exponent > 1⟩

/-- The rational that a binary fraction denotes. -/
def toRat (b : BinaryFraction) : Rat :=
  if b.power ≥ 0 then ((b.mantissa * Nat.pow 2 b.power.toNat : Nat) : Rat)
  else mkRat b.mantissa (Nat.pow 2 (-b.power).toNat)

/-- What a double denotes. -/
def denote (x : Float) : Denotation :=
  if exponentField x = 2047 then
    if fractionField x = 0 then .infinite (isNegative x) else .nan
  else .finite (isNegative x) (toRat (magnitude x))

/-- The place of a double in the total order: negative zero stands just below zero, and a value
that is no number beyond the infinity of its sign. -/
def place (x : Float) : Int :=
  if isNegative x then -(payload x : Int) - 1 else payload x

/-- The shortest decimal of a finite magnitude. -/
def shortest (tie : Tie) (x : Float) : Decimal :=
  if payload x = 0 then ⟨0, 0⟩ else (magnitude x).shortest tie

/-- The whole double nearest to a natural number, with a sign. -/
def whole (negative : Bool) (n : Nat) : Float :=
  if negative then -Float.ofNat n else Float.ofNat n

/-- The nearest integer; a half goes away from zero. The sign stays, also on zero. -/
def round (x : Float) : Float :=
  match denote x with
  | .finite negative magnitude => whole negative (magnitude + 1 / 2).floor.toNat
  | _ => x

/-- The greatest integer not above. The sign stays, also on zero. -/
def floor (x : Float) : Float :=
  match denote x with
  | .finite negative magnitude =>
    whole negative (if negative then magnitude.ceil else magnitude.floor).toNat
  | _ => x

/-- A positive infinity. -/
def infinity : Float := 1.0 / 0.0

/-- The double nearest to a decimal. Beyond the range of doubles lies an infinity, below it zero. -/
def ofMagnitude (d : Decimal) : Float :=
  if d.coefficient = 0 then 0.0
  else if d.leading > 400 then infinity
  else if d.leading < -400 then 0.0
  else if d.exponent ≥ 0 then Float.ofScientific d.coefficient false d.exponent.toNat
  else Float.ofScientific d.coefficient true (-d.exponent).toNat

end Binary64

instance : Scalar Float where
  beq x y := x == y
  decideLT := inferInstance
  decideLE := inferInstance
  ofInt := Float.ofInt
  abs := Float.abs
  floor := Binary64.floor
  round := Binary64.round
  denote := Binary64.denote
  precedes x y := Binary64.place x ≤ Binary64.place y
  shortest := Binary64.shortest
  ofDecimal negative d := if negative then -(Binary64.ofMagnitude d) else Binary64.ofMagnitude d
  ofDenotation?
    | .nan => some (0.0 / 0.0)
    | .infinite negative => some (if negative then -Binary64.infinity else Binary64.infinity)
    | .finite .. => none

end Splice
