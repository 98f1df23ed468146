import Splice.Number.Reading
import Splice.Text.Blank
import Splice.Text.Quoted

/-!
# Colors

The colors that authors write: hexadecimal digits, the functional forms `rgb` and `rgba`, or a basic
name. Letter case and blanks around a part do not matter.
-/

namespace Splice

open Scalar (numeral)

/-- An opaque color; each part is a byte. -/
structure Rgb where
  red : Nat
  green : Nat
  blue : Nat
deriving DecidableEq, Repr

/-- A color with an opacity; each part is a byte. -/
structure Rgba where
  red : Nat
  green : Nat
  blue : Nat
  alpha : Nat
deriving DecidableEq, Repr

namespace Rgb

/-! ### Notations -/

/-- The basic names. -/
def names : List (String × Rgb) :=
  [("black", ⟨0, 0, 0⟩), ("white", ⟨255, 255, 255⟩), ("red", ⟨255, 0, 0⟩),
    ("green", ⟨0, 128, 0⟩), ("lime", ⟨0, 255, 0⟩), ("blue", ⟨0, 0, 255⟩),
    ("yellow", ⟨255, 255, 0⟩), ("orange", ⟨255, 165, 0⟩), ("purple", ⟨128, 0, 128⟩),
    ("gray", ⟨128, 128, 128⟩), ("grey", ⟨128, 128, 128⟩)]

/-- The value of a hexadecimal digit. -/
def hexDigit? (c : Char) : Option Nat :=
  if c.isDigit then some (c.toNat - '0'.toNat)
  else if 'a' ≤ c ∧ c ≤ 'f' then some (c.toNat - 'a'.toNat + 10)
  else if 'A' ≤ c ∧ c ≤ 'F' then some (c.toNat - 'A'.toNat + 10)
  else none

/-- The color of three or six hexadecimal digits; one digit stands for two. -/
def ofHex? (text : List Char) : Option Rgb := do
  match ← text.mapM hexDigit? with
  | [r, g, b] => some ⟨17 * r, 17 * g, 17 * b⟩
  | [r, r', g, g', b, b'] => some ⟨16 * r + r', 16 * g + g', 16 * b + b'⟩
  | _ => none

/-- The six hexadecimal digits of a color. -/
def hex (c : Rgb) : List Char := byte c.red ++ byte c.green ++ byte c.blue
where
  /-- The two digits of a byte. -/
  byte (n : Nat) : List Char := if n < 16 then '0' :: Text.hexDigits n else Text.hexDigits n

/-- A number as a part of a color: rounded, and held within a byte. -/
def ofComponent {α : Type} [Scalar α] (x : α) : Nat :=
  Scalar.toByte (Scalar.clamp 0.0 255.0 (Scalar.round x))

end Rgb

/-! ### Reading colors -/

/-- The text between a prefix and a closing bracket. -/
def callArguments? (function text : List Char) : Option (List (List Char)) :=
  let opening := function ++ ['(']
  let rest := text.drop opening.length
  if opening.isPrefixOf text && rest.getLast? == some ')' then
    some ((Text.pieces (· == ',') rest.dropLast).map Text.trimChars)
  else none

variable {α : Type} [Scalar α]

/-- The color of the first three arguments of a functional form. -/
def Rgb.ofArguments? (α : Type) [Scalar α] : List (List Char) → Option Rgb
  | red :: green :: blue :: _ => do
    let part (text : List Char) := (Scalar.read? (α := α) (String.ofList text)).map ofComponent
    return ⟨← part red, ← part green, ← part blue⟩
  | _ => none

/-- The color that a text stands for, with the opacity that it brings along. -/
def Rgb.read? (text : String) : Option (Rgb × Option α) :=
  let key := Text.asciiLower (Text.trimChars text.toList)
  match callArguments? "rgba".toList key with
  | some arguments => do
    let color ← Rgb.ofArguments? α arguments
    let alpha : α ← Scalar.read? (String.ofList (← arguments[3]?))
    return (color, some (Scalar.clamp 0.0 1.0 alpha))
  | none =>
    match callArguments? "rgb".toList key with
    | some arguments => (Rgb.ofArguments? α arguments).map (·, none)
    | none =>
      let digits := match key with
        | '#' :: rest => rest
        | _ => key
      ((Rgb.ofHex? digits).or (Rgb.names.lookup (String.ofList key))).map (·, none)

/-! ### Colors in effect -/

/-- A color as a filter reads it, with an opacity that the color may override. A text that is no
color is passed on; a blank one is black. -/
def filterColor (text : String) (alpha : α) : String :=
  let alpha := Scalar.clamp 0.0 1.0 alpha
  if Text.isBlankText text then "black@" ++ numeral alpha
  else match Rgb.read? text with
    | some (color, own?) =>
      "0x" ++ String.ofList color.hex ++ "@" ++ numeral (own?.getD alpha)
    | none => Text.trim text ++ "@" ++ numeral alpha

/-- The fill of a shape without a color. -/
def Rgb.standardFill : Rgb := ⟨143, 140, 174⟩

/-- The fill of a shape. -/
def fillColor (text? : Option String) (alpha : α) : Rgba :=
  let color := ((text?.bind (Rgb.read? (α := α))).map Prod.fst).getD Rgb.standardFill
  ⟨color.red, color.green, color.blue, Scalar.toByte (Scalar.clamp 0.0 1.0 alpha * 255.0)⟩

end Splice
