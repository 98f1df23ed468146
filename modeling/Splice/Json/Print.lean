import Splice.Json.Basic
import Splice.Text.Quoted

/-!
# JSON texts

A document is written in two layouts: on one line without spaces, or indented by two spaces with
every item and member on a line of its own. In both, a string escapes the quote, the backslash and
the control characters, and every other character stands for itself.
-/

namespace Splice.Json

/-! ### Strings -/

/-- The two lowercase hexadecimal digits of a number below 256. -/
def hexPair (n : Nat) : List Char :=
  let digits := Text.hexDigits n
  List.replicate (2 - digits.length) '0' ++ digits

/-- A character inside a string. -/
def escapeChar (c : Char) : List Char :=
  if c = '"' then ['\\', '"']
  else if c = '\\' then ['\\', '\\']
  else if c = '\x08' then ['\\', 'b']
  else if c = '\x0c' then ['\\', 'f']
  else if c = '\n' then ['\\', 'n']
  else if c = '\r' then ['\\', 'r']
  else if c = '\t' then ['\\', 't']
  else if c.toNat < 0x20 then ['\\', 'u', '0', '0'] ++ hexPair c.toNat
  else [c]

/-- A string between its quotes. -/
def stringText (value : String) : List Char :=
  '"' :: value.toList.flatMap escapeChar ++ ['"']

/-- The text of `null`. -/
def nullText : List Char := ['n', 'u', 'l', 'l']

/-- The text of a truth value. -/
def boolText (value : Bool) : List Char :=
  if value then ['t', 'r', 'u', 'e'] else ['f', 'a', 'l', 's', 'e']

/-- The text of a string without a text: half of a surrogate pair. -/
def unreadableText : List Char := ['"', '\\', 'u', 'd', '8', '0', '0', '"']

/-! ### One line -/

mutual

/-- The value on one line. -/
def compact : Json → List Char
  | null => nullText
  | bool value => boolText value
  | number literal => literal.text
  | string value => stringText value
  | array items => '[' :: compactItems items ++ [']']
  | object members => '\x7b' :: compactMembers members ++ ['\x7d']
  | unreadable => unreadableText

/-- Items with commas between them. -/
def compactItems : List Json → List Char
  | [] => []
  | [item] => compact item
  | item :: rest => compact item ++ ',' :: compactItems rest

/-- Members with commas between them. -/
def compactMembers : List (String × Json) → List Char
  | [] => []
  | [(name, value)] => stringText name ++ ':' :: compact value
  | (name, value) :: rest => stringText name ++ ':' :: compact value ++ ',' :: compactMembers rest

end

/-! ### Indented -/

/-- A new line at a level of indentation. -/
def newline (level : Nat) : List Char := '\n' :: List.replicate (2 * level) ' '

mutual

/-- The value with its items and members on lines of their own, one level deeper than `level`. -/
def indented (level : Nat) : Json → List Char
  | null => nullText
  | bool value => boolText value
  | number literal => literal.text
  | string value => stringText value
  | array [] => ['[', ']']
  | array items => '[' :: indentedItems (level + 1) items ++ newline level ++ [']']
  | object [] => ['\x7b', '\x7d']
  | object members => '\x7b' :: indentedMembers (level + 1) members ++ newline level ++ ['\x7d']
  | unreadable => unreadableText

/-- Items on lines of their own. -/
def indentedItems (level : Nat) : List Json → List Char
  | [] => []
  | [item] => newline level ++ indented level item
  | item :: rest => newline level ++ indented level item ++ ',' :: indentedItems level rest

/-- Members on lines of their own. -/
def indentedMembers (level : Nat) : List (String × Json) → List Char
  | [] => []
  | [(name, value)] => newline level ++ stringText name ++ ':' :: ' ' :: indented level value
  | (name, value) :: rest =>
    newline level ++ stringText name ++ ':' :: ' ' :: indented level value ++
      ',' :: indentedMembers level rest

end

/-- The document on one line. -/
def line (value : Json) : String := String.ofList value.compact

/-- The document indented by two spaces. -/
def pretty (value : Json) : String := String.ofList (value.indented 0)

end Splice.Json
