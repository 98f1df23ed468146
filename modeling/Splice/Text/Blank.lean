/-!
# Blanks

The characters that Unicode counts as white space, and what follows from them: trimming a text and
cutting it into words.
-/

namespace Splice.Text

/-- White space: the ASCII controls tab to carriage return, the next-line control, and the
separators. -/
def isBlank (c : Char) : Bool :=
  let code := c.toNat
  (0x9 ≤ code && code ≤ 0xD) || code == 0x20 || code == 0x85 || code == 0xA0 || code == 0x1680 ||
    (0x2000 ≤ code && code ≤ 0x200A) || code == 0x2028 || code == 0x2029 || code == 0x202F ||
    code == 0x205F || code == 0x3000

/-- The text without the blanks at its ends. -/
def trimChars (text : List Char) : List Char :=
  ((text.dropWhile isBlank).reverse.dropWhile isBlank).reverse

/-- The text without the blanks at its ends. -/
def trim (text : String) : String := String.ofList (trimChars text.toList)

/-- Whether the text has no character but blanks. -/
def isBlankText (text : String) : Bool := text.toList.all isBlank

/-- The pieces between the characters that satisfy `cut`, the empty ones too. -/
def pieces (cut : Char → Bool) : List Char → List (List Char)
  | [] => [[]]
  | c :: rest =>
    if cut c then [] :: pieces cut rest
    else match pieces cut rest with
      | [] => [[c]]
      | piece :: more => (c :: piece) :: more

/-- The maximal runs of characters that are not blank. -/
def words (text : List Char) : List (List Char) :=
  (pieces isBlank text).filter (!·.isEmpty)

/-- The text in ASCII lowercase. -/
def asciiLower (text : List Char) : List Char := text.map Char.toLower

/-- The text without blanks at its ends, in ASCII lowercase: how a name is compared. -/
def nameKey (text : String) : String :=
  String.ofList (asciiLower (trimChars text.toList))

end Splice.Text
