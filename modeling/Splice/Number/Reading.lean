import Splice.Number.Scalar

/-!
# Reading decimals

A number as people write it: an optional sign, digits with an optional point on any side of them,
an optional exponent; or one of the words for an infinity or for no number, in any letter case.
Nothing may stand before or after it.
-/

namespace Splice

/-- The natural number written by decimal digits. -/
def natOfDigits (digits : List Char) : Nat :=
  digits.foldl (fun n c ↦ 10 * n + (c.toNat - '0'.toNat)) 0

/-- An optional sign, and the text after it. -/
def splitSign : List Char → Bool × List Char
  | '-' :: rest => (true, rest)
  | '+' :: rest => (false, rest)
  | text => (false, text)

/-- The exponent that a text consists of: nothing, or `e`, an optional sign and digits. -/
def exponentOf? : List Char → Option Int
  | [] => some 0
  | mark :: rest =>
    if mark = 'e' ∨ mark = 'E' then
      let (negative, digits) := splitSign rest
      if digits.isEmpty || !digits.all Char.isDigit then none
      else some (if negative then -(natOfDigits digits : Int) else natOfDigits digits)
    else none

/-- The magnitude that a text without a sign consists of. -/
def magnitudeOf? (text : List Char) : Option Decimal :=
  let whole := text.takeWhile Char.isDigit
  let (fraction, rest) := match text.dropWhile Char.isDigit with
    | '.' :: rest => (rest.takeWhile Char.isDigit, rest.dropWhile Char.isDigit)
    | rest => ([], rest)
  if whole.isEmpty && fraction.isEmpty then none
  else (exponentOf? rest).map fun exponent ↦
    ⟨natOfDigits (whole ++ fraction), exponent - fraction.length⟩

/-- The denotation that a word without a sign stands for. -/
def specialOf? (negative : Bool) (text : List Char) : Option Denotation :=
  let word := String.ofList (text.map Char.toLower)
  if word == "inf" || word == "infinity" then some (.infinite negative)
  else if word == "nan" then some .nan
  else none

/-- The scalar that a text consists of. -/
def Scalar.read? {α : Type} [Scalar α] (text : String) : Option α :=
  let (negative, rest) := splitSign text.toList
  match magnitudeOf? rest with
  | some magnitude => some (Scalar.ofDecimal negative magnitude)
  | none => (specialOf? negative rest).bind Scalar.ofDenotation?

end Splice
