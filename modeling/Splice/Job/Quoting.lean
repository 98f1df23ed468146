/-!
# Quoting for filters

How text gets into the arguments of a filter: an expression stands between single quotes, and the
characters of an author's text that mean something there have a backslash in front.
-/

namespace Splice.Quoting

/-- The text between single quotes. -/
def quote (text : String) : String := "'" ++ text ++ "'"

/-- The text with a replacement for every occurrence of a character. -/
def replaceChar (c : Char) (replacement text : List Char) : List Char :=
  text.flatMap fun d ↦ if d = c then replacement else [d]

/-- The characters that get a backslash, in the order in which they get it. -/
def escapedChars : List Char := ['\\', ':', '\'', '%']

/-- The characters of a text, escaped. -/
def escapeChars (text : List Char) : List Char :=
  escapedChars.foldl (fun text c ↦ replaceChar c ['\\', c] text) text

/-- The text with a backslash before each character that would mean something. -/
def escape (text : String) : String := String.ofList (escapeChars text.toList)

end Splice.Quoting
