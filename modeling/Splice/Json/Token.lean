import Splice.Json.Basic

/-!
# JSON tokens

The tokens of a JSON text. Each token is read off the front of the text and leaves a shorter rest
(`Scan.length_of_next?`), so the whole text is cut by recursion on its length.

A string is first read as a list of codes, where a code in the surrogate range comes from an escape
only; `joinUnits?` then joins the pairs. A control character inside a string, an unknown escape and
a number with a superfluous zero are no tokens.
-/

namespace Splice

/-- A token of a JSON text. A string whose surrogates do not pair has no text. -/
inductive Json.Token where
  | openArray
  | closeArray
  | openObject
  | closeObject
  | comma
  | colon
  | null
  | bool (value : Bool)
  | number (literal : Literal)
  | string (value : Option String)

namespace Json.Scan

/-! ### Strings -/

/-- The value of a hexadecimal digit. -/
def hexValue? (c : Char) : Option Nat :=
  if c.isDigit then some (c.toNat - '0'.toNat)
  else if 'a' ≤ c ∧ c ≤ 'f' then some (c.toNat - 'a'.toNat + 10)
  else if 'A' ≤ c ∧ c ≤ 'F' then some (c.toNat - 'A'.toNat + 10)
  else none

/-- The code written by four hexadecimal digits. -/
def hexCode? (a b c d : Char) : Option Nat := do
  let a ← hexValue? a
  let b ← hexValue? b
  let c ← hexValue? c
  let d ← hexValue? d
  return ((a * 16 + b) * 16 + c) * 16 + d

/-- The character that a one-letter escape stands for. -/
def escaped? (c : Char) : Option Char :=
  if c = '"' ∨ c = '\\' ∨ c = '/' then some c
  else if c = 'b' then some '\x08'
  else if c = 'f' then some '\x0c'
  else if c = 'n' then some '\n'
  else if c = 'r' then some '\r'
  else if c = 't' then some '\t'
  else none

/-- The codes of a string after its opening quote, and what follows its closing quote. -/
def codes? : List Char → Option (List Nat × List Char)
  | [] => none
  | '"' :: rest => some ([], rest)
  | '\\' :: 'u' :: a :: b :: c :: d :: rest => do
    let code ← hexCode? a b c d
    let (codes, rest) ← codes? rest
    return (code :: codes, rest)
  | '\\' :: c :: rest => do
    let c ← escaped? c
    let (codes, rest) ← codes? rest
    return (c.toNat :: codes, rest)
  | c :: rest =>
    if c.toNat < 0x20 ∨ c = '\\' then none
    else do
      let (codes, rest) ← codes? rest
      return (c.toNat :: codes, rest)

/-- Whether a code is the first half of a surrogate pair. -/
def isLeading (code : Nat) : Bool := 0xD800 ≤ code && code < 0xDC00

/-- Whether a code is the second half of a surrogate pair. -/
def isTrailing (code : Nat) : Bool := 0xDC00 ≤ code && code < 0xE000

/-- The characters of a list of codes, if every surrogate has its partner. -/
def joinUnits? : List Nat → Option (List Char)
  | [] => some []
  | [code] => if isLeading code || isTrailing code then none else some [Char.ofNat code]
  | code :: next :: rest =>
    if isLeading code then
      if isTrailing next then
        (joinUnits? rest).map
          (Char.ofNat (0x10000 + (code - 0xD800) * 0x400 + (next - 0xDC00)) :: ·)
      else none
    else if isTrailing code then none
    else (joinUnits? (next :: rest)).map (Char.ofNat code :: ·)

/-! ### Numbers -/

/-- The digits at the front of a text, and the rest. -/
def digits (text : List Char) : List Char × List Char :=
  (text.takeWhile Char.isDigit, text.dropWhile Char.isDigit)

/-- The fraction at the front of a text: a point and at least one digit, or nothing. -/
def fraction? : List Char → Option (List Char × List Char)
  | '.' :: rest => if (digits rest).1.isEmpty then none else some (digits rest)
  | text => some ([], text)

/-- The exponent at the front of a text, or nothing. -/
def exponent? : List Char → Option (Option (Bool × List Char) × List Char)
  | [] => some (none, [])
  | mark :: rest =>
    if mark = 'e' ∨ mark = 'E' then
      let (negative, unsigned) := splitSign rest
      let (power, rest) := digits unsigned
      if power.isEmpty then none else some (some (negative, power), rest)
    else some (none, mark :: rest)

/-- A number without its sign at the front of a text. -/
def unsigned? (negative : Bool) (text : List Char) : Option (Literal × List Char) :=
  let (whole, rest) := digits text
  if whole.isEmpty || (whole.length > 1 && whole.head? == some '0') then none
  else (fraction? rest).bind fun (fraction, rest) ↦
    (exponent? rest).map fun (exponent, rest) ↦ (⟨negative, whole, fraction, exponent⟩, rest)

/-! ### Tokens -/

/-- Whether the character may stand between tokens. -/
def isSpace (c : Char) : Bool := c == ' ' || c == '\n' || c == '\t' || c == '\r'

/-- What follows a fixed word at the front of a text. -/
def afterWord? (word : String) (text : List Char) : Option (List Char) :=
  if word.toList.isPrefixOf text then some (text.drop word.length) else none

/-- The first token of a text that does not start with a space, and what follows it. -/
def next? : List Char → Option (Token × List Char)
  | [] => none
  | '[' :: rest => some (.openArray, rest)
  | ']' :: rest => some (.closeArray, rest)
  | '\x7b' :: rest => some (.openObject, rest)
  | '\x7d' :: rest => some (.closeObject, rest)
  | ',' :: rest => some (.comma, rest)
  | ':' :: rest => some (.colon, rest)
  | 'n' :: rest => (afterWord? "ull" rest).map fun rest ↦ (.null, rest)
  | 't' :: rest => (afterWord? "rue" rest).map fun rest ↦ (.bool true, rest)
  | 'f' :: rest => (afterWord? "alse" rest).map fun rest ↦ (.bool false, rest)
  | '"' :: rest => (codes? rest).map fun (codes, rest) ↦
      (.string ((joinUnits? codes).map String.ofList), rest)
  | '-' :: rest => (unsigned? true rest).map fun (literal, rest) ↦ (.number literal, rest)
  | c :: rest => (unsigned? false (c :: rest)).map fun (literal, rest) ↦ (.number literal, rest)

/-! ### Progress -/

/-- A string ends behind its closing quote, so it takes at least that. -/
theorem length_of_codes? {text : List Char} {codes : List Nat} {rest : List Char}
    (h : codes? text = some (codes, rest)) : rest.length < text.length := by
  fun_induction codes? text generalizing codes rest <;>
    simp_all [Option.bind_eq_some_iff] <;> grind

theorem length_dropWhile_le (p : Char → Bool) (text : List Char) :
    (text.dropWhile p).length ≤ text.length :=
  (List.dropWhile_sublist _).length_le

theorem length_digits_le (text : List Char) : (digits text).2.length ≤ text.length :=
  length_dropWhile_le _ _

/-- If there are digits at the front, they are taken. -/
theorem length_digits_lt {text : List Char} (h : (digits text).1 ≠ []) :
    (digits text).2.length < text.length := by
  cases text with
  | nil => simp [digits] at h
  | cons c rest =>
    have := length_dropWhile_le Char.isDigit rest
    by_cases hc : c.isDigit
    · simp [digits, hc]
      omega
    · simp [digits, hc] at h

/-- A fraction takes some of the text or nothing. -/
theorem length_of_fraction? {text fraction rest : List Char}
    (h : fraction? text = some (fraction, rest)) : rest.length ≤ text.length := by
  unfold fraction? at h
  split at h
  · rename_i tail
    have := length_digits_le tail
    grind
  · grind

theorem length_splitSign_le (text : List Char) : (splitSign text).2.length ≤ text.length := by
  unfold splitSign
  split <;> simp

/-- So does an exponent. -/
theorem length_of_exponent? {text rest : List Char} {power : Option (Bool × List Char)}
    (h : exponent? text = some (power, rest)) : rest.length ≤ text.length := by
  unfold exponent? at h
  split at h
  · grind
  · rename_i mark tail
    have := length_splitSign_le tail
    have := length_digits_le (splitSign tail).2
    grind

/-- A number takes at least one digit. -/
theorem length_of_unsigned? {negative : Bool} {text rest : List Char} {literal : Literal}
    (h : unsigned? negative text = some (literal, rest)) : rest.length < text.length := by
  unfold unsigned? at h
  simp only [Bool.or_eq_true, List.isEmpty_iff] at h
  split at h
  · simp at h
  · rename_i hwhole
    have hdigits : (digits text).2.length < text.length :=
      length_digits_lt fun hempty ↦ hwhole (Or.inl hempty)
    obtain ⟨⟨fraction, rest₁⟩, hfraction, h⟩ := Option.bind_eq_some_iff.1 h
    obtain ⟨⟨exponent, rest₂⟩, hexponent, h⟩ := Option.map_eq_some_iff.1 h
    have hshorter : rest₁.length ≤ (digits text).2.length := length_of_fraction? hfraction
    have hshortest : rest₂.length ≤ rest₁.length := length_of_exponent? hexponent
    simp only [Prod.mk.injEq] at h
    obtain ⟨-, rfl⟩ := h
    omega

theorem length_of_afterWord? {word : String} {text rest : List Char}
    (h : afterWord? word text = some rest) : rest.length ≤ text.length := by
  unfold afterWord? at h
  split at h <;> simp_all
  rw [← h]
  simp

/-- Every token takes at least one character. -/
theorem length_of_next? {text rest : List Char} {token : Token}
    (h : next? text = some (token, rest)) : rest.length < text.length := by
  unfold next? at h
  split at h
  case h_1 => simp at h
  -- words, strings and numbers go on after their first character; every other token is one
  -- character
  case h_8 | h_9 | h_10 =>
    obtain ⟨tail, htail, h⟩ := Option.map_eq_some_iff.1 h
    have := length_of_afterWord? htail
    simp only [Prod.mk.injEq] at h
    obtain ⟨-, rfl⟩ := h
    exact Nat.lt_succ_of_le this
  case h_11 =>
    obtain ⟨⟨codes, tail⟩, htail, h⟩ := Option.map_eq_some_iff.1 h
    have := length_of_codes? htail
    simp only [Prod.mk.injEq] at h
    obtain ⟨-, rfl⟩ := h
    exact Nat.lt_succ_of_lt this
  case h_12 =>
    obtain ⟨⟨literal, tail⟩, htail, h⟩ := Option.map_eq_some_iff.1 h
    have := length_of_unsigned? htail
    simp only [Prod.mk.injEq] at h
    obtain ⟨-, rfl⟩ := h
    exact Nat.lt_succ_of_lt this
  case h_13 =>
    obtain ⟨⟨literal, tail⟩, htail, h⟩ := Option.map_eq_some_iff.1 h
    have := length_of_unsigned? htail
    simp only [Prod.mk.injEq] at h
    obtain ⟨-, rfl⟩ := h
    exact this
  all_goals
    simp only [Option.some.injEq, Prod.mk.injEq] at h
    obtain ⟨-, rfl⟩ := h
    exact Nat.lt_succ_self _

/-- The tokens of a text. -/
def tokens? (text : List Char) : Option (List Token) :=
  match _hnext : next? (text.dropWhile isSpace) with
  | none => if text.all isSpace then some [] else none
  | some (token, rest) => (tokens? rest).map (token :: ·)
termination_by text.length
decreasing_by
  have := length_of_next? _hnext
  have := length_dropWhile_le isSpace text
  omega

end Json.Scan

end Splice
