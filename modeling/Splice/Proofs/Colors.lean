import Splice.Color
import Splice.Proofs.Text.Trim
import Splice.Proofs.Timeline.Formulas
import Splice.Proofs.Timeline.PixelBoxes

/-!
# Colors of filters

A color of a filter is a base and an opacity, and what a text comes to as one is `ComesToColor`.

* A color that is understood has bytes for its parts (`Rgb.of_ofKey?`): numbers are held within a
  byte, and a pair of hexadecimal digits is less than 256. So its base has six digits, and these are
  read as the same color (`Rgb.ofHex?_hex`, `Rgb.read?_hash`).
* The steps of reading that can fail (slices of bytes, conversions, bounds that are out of order)
  are written with a failure in `Rgb.checkedRead?`. None of them does: a text is cut into digits
  only after all its characters are found to be digits, which are one byte each (`Text.slice?_eq`).
* The opacity is between zero and one, unless the text brings along what is no number. That is held
  within no bounds and written as it is (`isFraction_filterOpacity_iff`, `filterColor_nan`).

All characters that matter here are ASCII, so what is said of one of them is checked for all
(`Text.forall_ascii`).
-/

namespace Splice

open Scalar (numeral isFinite isNaN)

/-! ### Fractions -/

namespace Scalar

variable {α : Type} [Scalar α]

/-- A finite number from zero to one. -/
def IsFraction (x : α) : Prop := isFinite x = true ∧ 0.0 ≤ x ∧ x ≤ 1.0

variable [LawfulScalar α] {low high x : α}

/-- Holding a value within bounds neither makes it no number nor cures it. -/
theorem isNaN_clamp (hlow : isNaN low = false) (hhigh : isNaN high = false) :
    isNaN (clamp low high x) = isNaN x := by
  rw [clamp]
  split_ifs with hbelow habove
  · obtain ⟨p, hp, -⟩ := (LawfulScalar.lt_iff _ _).1 hbelow
    rw [hlow, Scalar.isNaN, Denotation.isNaN_eq_false_iff.2 ⟨p, hp⟩]
  · rw [hhigh, isNaN_of_lt habove]
  · rfl

/-- Everything but what is no number is held within the bounds. -/
theorem clamp_bounds (h : low ≤ high) (hx : isNaN x = false) :
    low ≤ clamp low high x ∧ clamp low high x ≤ high := by
  obtain ⟨p, hp, q, hq, -⟩ := (LawfulScalar.le_iff _ _).1 h
  have hlow : isNaN low = false := Denotation.isNaN_eq_false_iff.2 ⟨p, hp⟩
  have hhigh : isNaN high = false := Denotation.isNaN_eq_false_iff.2 ⟨q, hq⟩
  rw [clamp]
  split_ifs with hbelow habove
  · exact ⟨le_refl hlow, h⟩
  · exact ⟨h, le_refl hhigh⟩
  · exact ⟨le_of_not_lt hx hlow hbelow, le_of_not_lt hhigh hx habove⟩

theorem isNaN_zero : isNaN (0.0 : α) = false := by
  rw [Scalar.isNaN, LawfulScalar.denote_zero]
  rfl

theorem isNaN_one : isNaN (1.0 : α) = false := by
  rw [Scalar.isNaN, LawfulScalar.denote_one]
  rfl

theorem zero_le_one : (0.0 : α) ≤ 1.0 := by
  rw [LawfulScalar.le_iff, LawfulScalar.denote_zero, LawfulScalar.denote_one]
  exact ⟨_, rfl, _, rfl, by simp [withSign]⟩

/-- What lies between zero and one is finite. -/
theorem isFinite_of_bounds (hlow : (0.0 : α) ≤ x) (hhigh : x ≤ 1.0) : isFinite x = true := by
  rw [LawfulScalar.le_iff, LawfulScalar.denote_zero] at hlow
  rw [LawfulScalar.le_iff, LawfulScalar.denote_one] at hhigh
  rw [Scalar.isFinite]
  -- an infinity is beyond one of the bounds
  cases hx : denote x with
  | nan => simp [hx, Denotation.place?] at hlow
  | infinite negative =>
    cases negative with
    | true => simp [hx, Denotation.place?, withSign] at hlow
    | false =>
      obtain ⟨p, hp, q, hq, hpq⟩ := hhigh
      rw [hx] at hp
      cases hp
      cases hq
      exact absurd (WithBot.coe_le_coe.1 hpq) (WithTop.coe_lt_top (1 : ℚ)).not_ge
  | finite => rfl

/-- What is held between zero and one is a fraction, unless it is no number. -/
theorem isFraction_clamp_iff : IsFraction (clamp 0.0 1.0 x) ↔ isNaN x = false := by
  constructor
  · exact fun h ↦ (isNaN_clamp isNaN_zero isNaN_one).symm.trans (isNaN_of_isFinite h.1)
  · intro h
    obtain ⟨hlow, hhigh⟩ := clamp_bounds zero_le_one h
    exact ⟨isFinite_of_bounds hlow hhigh, hlow, hhigh⟩

omit [LawfulScalar α] in
/-- A part of a color is a byte, whatever number it is made from. -/
theorem toByte_lt (x : α) : toByte x < 256 := by
  rw [toByte]
  cases denote x with
  | nan => decide
  | infinite negative => cases negative <;> decide
  | finite negative magnitude =>
    show Int.toNat (Max.max 0 (Min.min 255 _)) < 256
    omega

end Scalar

/-! ### Slices -/

namespace Text

/-- How many bytes a text has. -/
def size (text : List Char) : ℕ := (text.map Char.utf8Size).sum

/-- What is left after the first bytes of a text; a failure within a character and behind the
end. -/
def dropBytes? : ℕ → List Char → Option (List Char)
  | 0, text => some text
  | _ + 1, [] => none
  | count + 1, c :: rest =>
    if c.utf8Size ≤ count + 1 then dropBytes? (count + 1 - c.utf8Size) rest else none

/-- The first bytes of a text; a failure within a character and behind the end. -/
def takeBytes? : ℕ → List Char → Option (List Char)
  | 0, _ => some []
  | _ + 1, [] => none
  | count + 1, c :: rest =>
    if c.utf8Size ≤ count + 1 then (takeBytes? (count + 1 - c.utf8Size) rest).map (c :: ·)
    else none

/-- The bytes of a text from a place on; a failure where one end is no place between characters. -/
def slice? (first count : ℕ) (text : List Char) : Option (List Char) :=
  (dropBytes? first text).bind (takeBytes? count)

section Bytes

variable {text : List Char}

theorem size_eq_length (h : ∀ c ∈ text, c.utf8Size = 1) : size text = text.length := by
  rw [size, List.map_congr_left h, List.map_const', List.sum_replicate_nat, mul_one]

/-- Where every character is one byte, dropping bytes drops as many characters. -/
theorem dropBytes?_eq (h : ∀ c ∈ text, c.utf8Size = 1) {count : ℕ} (hcount : count ≤ text.length) :
    dropBytes? count text = some (text.drop count) := by
  induction text generalizing count with
  | nil =>
    obtain rfl := Nat.le_zero.1 hcount
    rfl
  | cons c rest ih =>
    obtain ⟨hc, hrest⟩ := List.forall_mem_cons.1 h
    cases count with
    | zero => rfl
    | succ count =>
      rw [dropBytes?, hc, if_pos (by omega), List.drop_succ_cons]
      exact ih hrest (Nat.le_of_succ_le_succ hcount)

/-- And taking bytes takes as many characters. -/
theorem takeBytes?_eq (h : ∀ c ∈ text, c.utf8Size = 1) {count : ℕ} (hcount : count ≤ text.length) :
    takeBytes? count text = some (text.take count) := by
  induction text generalizing count with
  | nil =>
    obtain rfl := Nat.le_zero.1 hcount
    rfl
  | cons c rest ih =>
    obtain ⟨hc, hrest⟩ := List.forall_mem_cons.1 h
    cases count with
    | zero => rfl
    | succ count =>
      rw [takeBytes?, hc, if_pos (by omega), List.take_succ_cons, Nat.add_sub_cancel,
        ih hrest (Nat.le_of_succ_le_succ hcount)]
      rfl

/-- Where every character is one byte, bytes are counted as characters. -/
theorem slice?_eq (h : ∀ c ∈ text, c.utf8Size = 1) {first count : ℕ}
    (hlength : first + count ≤ text.length) :
    slice? first count text = some ((text.drop first).take count) := by
  rw [slice?, dropBytes?_eq h (by omega), Option.bind_some]
  exact takeBytes?_eq (fun c hc ↦ h c (List.mem_of_mem_drop hc)) (by rw [List.length_drop]; omega)

end Bytes

/-! ### Letter case -/

/-- What holds of all characters of ASCII can be checked. -/
theorem forall_ascii {P : Char → Prop} (h : ∀ n < 128, P (Char.ofNat n)) {c : Char}
    (hc : c.toNat < 128) : P c := by
  simpa using h c.toNat hc

/-- Lowering a letter neither makes nor removes a blank. -/
theorem isBlank_toLower (c : Char) : isBlank c.toLower = isBlank c := by
  by_cases hc : c.toNat < 128
  · exact forall_ascii (P := fun c ↦ isBlank c.toLower = isBlank c) (by decide) hc
  · rw [Char.toLower_eq_of_not_isUpper]
    simp only [Char.isUpper, UInt32.le_iff_toNat_le, decide_eq_true_eq]
    rw [Char.toNat] at hc
    rintro ⟨-, hupper⟩
    exact hc (hupper.trans_lt (by decide))

/-- So it does not matter whether a text is trimmed or lowered first. -/
theorem asciiLower_trimChars (text : List Char) :
    asciiLower (trimChars text) = trimChars (asciiLower text) := by
  have hblank : isBlank ∘ Char.toLower = isBlank := funext isBlank_toLower
  simp only [trimChars, asciiLower, List.dropWhile_map, ← List.map_reverse, hblank]

end Text

namespace Rgb

/-! ### Hexadecimal digits -/

section Digits

variable {c : Char} {n : ℕ}

/-- Hexadecimal digits are characters of ASCII. -/
theorem toNat_lt_of_hexDigit? (h : hexDigit? c = some n) : c.toNat < 128 := by
  have hle {d : Char} (hd : c ≤ d) (hlt : d.toNat < 128) : c.toNat < 128 :=
    lt_of_le_of_lt (UInt32.le_iff_toNat_le.1 hd) hlt
  rw [hexDigit?] at h
  split_ifs at h with hdigit hsmall hcapital
  · exact hle (d := '9') (by simp_all [Char.isDigit, Char.le_def]) (by decide)
  · exact hle hsmall.2 (by decide)
  · exact hle hcapital.2 (by decide)

theorem hexDigit?_lt (h : hexDigit? c = some n) : n < 16 :=
  Text.forall_ascii (P := fun c ↦ ∀ n ∈ hexDigit? c, n < 16) (by decide)
    (toNat_lt_of_hexDigit? h) n h

theorem utf8Size_of_hexDigit? (h : hexDigit? c = some n) : c.utf8Size = 1 :=
  Text.forall_ascii (P := fun c ↦ c.utf8Size = 1) (by decide) (toNat_lt_of_hexDigit? h)

/-- Whether a character is a hexadecimal digit without a capital letter. -/
def isLowerHex (c : Char) : Bool := c.isDigit || ('a' ≤ c && c ≤ 'f')

/-- A byte is written as two digits. -/
theorem byte_eq (h : n < 256) :
    hex.byte n = [Nat.digitChar (n / 16), Nat.digitChar (n % 16)] := by
  have hhigh : n / 16 < 16 := by omega
  rw [hex.byte, Text.hexDigits]
  split_ifs with hn
  · rw [Nat.toDigits_of_lt_base hn, Nat.div_eq_of_lt hn, Nat.mod_eq_of_lt hn]
    rfl
  · have hsplit : n = 16 * (n / 16) + n % 16 := (Nat.div_add_mod n 16).symm
    conv_lhs => rw [hsplit]
    rw [← Nat.toDigits_append_toDigits (by decide) (by omega) (Nat.mod_lt n (by decide)),
      Nat.toDigits_of_lt_base hhigh, Nat.toDigits_of_lt_base (Nat.mod_lt n (by decide))]
    rfl

/-- A digit is written in lower case, and is read as its value. -/
theorem hexDigit?_digitChar (h : n < 16) :
    hexDigit? (Nat.digitChar n) = some n ∧ isLowerHex (Nat.digitChar n) = true := by
  have hall : ∀ n < 16,
      hexDigit? (Nat.digitChar n) = some n ∧ isLowerHex (Nat.digitChar n) = true := by
    decide
  exact hall n h

theorem hexDigit?_toLower (h : hexDigit? c = some n) : hexDigit? c.toLower = some n :=
  (Text.forall_ascii (P := fun c ↦ hexDigit? c.toLower = hexDigit? c) (by decide)
    (toNat_lt_of_hexDigit? h)).trans h

theorem isBlank_of_hexDigit? (h : hexDigit? c = some n) : Text.isBlank c = false :=
  Text.forall_ascii (P := fun c ↦ ∀ n ∈ hexDigit? c, Text.isBlank c = false) (by decide)
    (toNat_lt_of_hexDigit? h) n h

end Digits

/-! ### Colors in digits -/

/-- Whether the parts of a color are bytes. -/
def IsBytes (c : Rgb) : Prop := c.red < 256 ∧ c.green < 256 ∧ c.blue < 256

instance (c : Rgb) : Decidable c.IsBytes := inferInstanceAs (Decidable (_ ∧ _))

/-- A text of hexadecimal digits with the values of the digits. -/
def HasValues (text : List Char) (values : List ℕ) : Prop :=
  List.Forall₂ (fun c n ↦ hexDigit? c = some n) text values

section Hex

variable {color : Rgb} {text : List Char} {values : List ℕ}

/-- A text is read digit by digit. -/
theorem mapM_hexDigit?_eq_some_iff :
    text.mapM hexDigit? = some values ↔ HasValues text values := by
  induction text generalizing values with
  | nil => simp [HasValues, eq_comm]
  | cons c rest ih =>
    rw [List.mapM_cons, HasValues, List.forall₂_cons_left_iff]
    simp only [Option.bind_eq_bind, Option.bind_eq_some_iff, ih]
    constructor
    · rintro ⟨n, hn, ns, hns, heq⟩
      exact ⟨n, ns, hn, hns, (Option.some.inj heq).symm⟩
    · rintro ⟨n, ns, hn, hns, rfl⟩
      exact ⟨n, hn, ns, hns, rfl⟩

theorem HasValues.exists_of_mem (h : HasValues text values) :
    ∀ c ∈ text, ∃ n, hexDigit? c = some n := by
  induction h with
  | nil => simp
  | cons hc _ ih => exact List.forall_mem_cons.2 ⟨⟨_, hc⟩, ih⟩

theorem HasValues.lt_of_mem (h : HasValues text values) : ∀ n ∈ values, n < 16 := by
  induction h with
  | nil => simp
  | cons hc _ ih => exact List.forall_mem_cons.2 ⟨hexDigit?_lt hc, ih⟩

/-- The color of the values of three or six digits. -/
def ofValues? : List ℕ → Option Rgb
  | [r, g, b] => some ⟨17 * r, 17 * g, 17 * b⟩
  | [r, r', g, g', b, b'] => some ⟨16 * r + r', 16 * g + g', 16 * b + b'⟩
  | _ => none

/-- A text consists of digits exactly if each of them has a value. -/
theorem all_hexDigit?_iff :
    (text.all fun c ↦ (hexDigit? c).isSome) = true ↔ ∃ values, HasValues text values := by
  rw [List.all_eq_true]
  constructor
  · intro h
    induction text with
    | nil => exact ⟨[], .nil⟩
    | cons c rest ih =>
      obtain ⟨hc, hrest⟩ := List.forall_mem_cons.1 h
      obtain ⟨n, hn⟩ := Option.isSome_iff_exists.1 hc
      obtain ⟨ns, hns⟩ := ih hrest
      exact ⟨n :: ns, .cons hn hns⟩
  · rintro ⟨values, hvalues⟩ c hc
    exact Option.isSome_iff_exists.2 (hvalues.exists_of_mem c hc)

/-- Doubled digits have doubled values. -/
theorem HasValues.double (h : HasValues text values) :
    HasValues (text.flatMap fun c ↦ [c, c]) (values.flatMap fun n ↦ [n, n]) := by
  induction h with
  | nil => exact .nil
  | cons hc _ ih => exact .cons hc (.cons hc ih)

theorem HasValues.asciiLower (h : HasValues text values) :
    HasValues (Text.asciiLower text) values :=
  List.forall₂_map_left_iff.2 (h.imp fun _ _ ↦ hexDigit?_toLower)

theorem ofHex?_of_hasValues (h : HasValues text values) : ofHex? text = ofValues? values := by
  rw [ofHex?, mapM_hexDigit?_eq_some_iff.2 h]
  rfl

/-- What is read as a color in digits consists of digits. -/
theorem exists_hasValues (h : ofHex? text = some color) : ∃ values, HasValues text values := by
  rw [ofHex?, Option.bind_eq_bind, Option.bind_eq_some_iff] at h
  obtain ⟨values, hvalues, -⟩ := h
  exact ⟨values, mapM_hexDigit?_eq_some_iff.1 hvalues⟩

theorem hasValues_map_digitChar (h : ∀ n ∈ values, n < 16) :
    HasValues (values.map Nat.digitChar) values := by
  induction values with
  | nil => exact .nil
  | cons n rest ih =>
    obtain ⟨hn, hrest⟩ := List.forall_mem_cons.1 h
    exact .cons (hexDigit?_digitChar hn).1 (ih hrest)

/-- Three digits are a color, or six. -/
theorem isSome_ofValues?_iff :
    (ofValues? values).isSome = true ↔ values.length = 3 ∨ values.length = 6 := by
  constructor
  · intro h
    rw [ofValues?.eq_def] at h
    split at h
    · exact .inl rfl
    · exact .inr rfl
    · cases h
  · rintro (h | h)
    · obtain ⟨r, g, b, rfl⟩ := List.length_eq_three.1 h
      rfl
    · match values, h with
      | [r, r', g, g', b, b'], _ => rfl

theorem isSome_ofHex?_iff (h : HasValues text values) :
    (ofHex? text).isSome = true ↔ text.length = 3 ∨ text.length = 6 := by
  rw [ofHex?_of_hasValues h, isSome_ofValues?_iff, h.length_eq]

/-- Three digits stand for six, each for two. -/
theorem ofHex?_double (h : HasValues text values) (hlength : text.length = 3) :
    ofHex? (text.flatMap fun c ↦ [c, c]) = ofHex? text := by
  obtain ⟨x, y, z, rfl⟩ := List.length_eq_three.1 (h.length_eq.symm.trans hlength)
  rw [ofHex?_of_hasValues h.double, ofHex?_of_hasValues h]
  show ofValues? [x, x, y, y, z, z] = _
  rw [ofValues?, ofValues?, Option.some_inj, Rgb.mk.injEq]
  omega

/-- The digits of a color. -/
def nibbles (c : Rgb) : List ℕ :=
  [c.red / 16, c.red % 16, c.green / 16, c.green % 16, c.blue / 16, c.blue % 16]

theorem nibbles_lt (h : color.IsBytes) : ∀ n ∈ color.nibbles, n < 16 := by
  obtain ⟨hred, hgreen, hblue⟩ := h
  simp only [nibbles, List.forall_mem_cons, List.not_mem_nil, false_imp_iff, implies_true, and_true]
  omega

theorem hex_eq (h : color.IsBytes) : color.hex = color.nibbles.map Nat.digitChar := by
  rw [hex, byte_eq h.1, byte_eq h.2.1, byte_eq h.2.2]
  rfl

/-- The six digits of a color are read as the color. -/
theorem ofHex?_hex (h : color.IsBytes) : ofHex? color.hex = some color := by
  rw [hex_eq h, ofHex?_of_hasValues (hasValues_map_digitChar (nibbles_lt h))]
  simp only [nibbles, ofValues?, Nat.div_add_mod]

theorem isBytes_of_ofValues? (hvalues : ∀ n ∈ values, n < 16) (h : ofValues? values = some color) :
    color.IsBytes := by
  rw [ofValues?.eq_def] at h
  split at h
  case h_3 => cases h
  all_goals
    cases h
    simp only [List.forall_mem_cons] at hvalues
    refine ⟨?_, ?_, ?_⟩ <;> dsimp only <;> omega

/-- The parts of a color in digits are bytes. -/
theorem isBytes_of_ofHex? (h : ofHex? text = some color) : color.IsBytes := by
  obtain ⟨values, hvalues⟩ := exists_hasValues h
  rw [ofHex?_of_hasValues hvalues] at h
  exact isBytes_of_ofValues? hvalues.lt_of_mem h

end Hex

/-! ### What is read -/

section Read

variable {α : Type} [Scalar α]

/-- The text without a hash at its start. -/
def afterHash (text : List Char) : List Char :=
  match text with
  | '#' :: rest => rest
  | _ => text

/-- The color that a text without blanks at its ends and without capital letters stands for. -/
def ofKey? (α : Type) [Scalar α] (key : List Char) : Option (Rgb × Option α) :=
  match callArguments? "rgba".toList key with
  | some arguments => do
    let color ← Rgb.ofArguments? α arguments
    let alpha : α ← Scalar.read? (String.ofList (← arguments[3]?))
    return (color, some (Scalar.clamp 0.0 1.0 alpha))
  | none =>
    match callArguments? "rgb".toList key with
    | some arguments => (Rgb.ofArguments? α arguments).map (·, none)
    | none =>
      ((Rgb.ofHex? (afterHash key)).or (Rgb.names.lookup (String.ofList key))).map (·, none)

theorem read?_eq (text : String) :
    read? text = ofKey? α (Text.asciiLower (Text.trimChars text.toList)) := rfl

/-- Letter case does not matter. -/
theorem read?_eq_of_asciiLower {text other : String}
    (h : Text.asciiLower other.toList = Text.asciiLower text.toList) :
    read? (α := α) other = read? text := by
  rw [read?_eq, read?_eq, Text.asciiLower_trimChars, Text.asciiLower_trimChars, h]

/-- What starts with a hash is no call of a function. -/
theorem callArguments?_hash {function : List Char} (h : '#' ∉ function) (text : List Char) :
    callArguments? function ('#' :: text) = none := by
  have hprefix : (function ++ ['(']).isPrefixOf ('#' :: text) = false := by
    cases function with
    | nil => rfl
    | cons c rest =>
      have hc : c ≠ '#' := (List.ne_of_not_mem_cons h).symm
      simp [List.isPrefixOf, hc]
  rw [callArguments?, hprefix, Bool.false_and]
  rfl

/-- What stands after a hash is looked up as digits, and then as a name. -/
theorem ofKey?_hash (digits : List Char) :
    ofKey? α ('#' :: digits) =
      ((ofHex? digits).or (names.lookup (String.ofList ('#' :: digits)))).map (·, none) := by
  rw [ofKey?, callArguments?_hash (by decide), callArguments?_hash (by decide)]
  rfl

/-- Digits after a hash are read as the color of the digits. -/
theorem read?_hash {digits : List Char} {color : Rgb} (h : ofHex? digits = some color) :
    read? (String.ofList ('#' :: digits)) = some (color, (none : Option α)) := by
  obtain ⟨values, hvalues⟩ := exists_hasValues h
  have hplain : ∀ c ∈ '#' :: digits, Text.isBlank c = false := by
    refine List.forall_mem_cons.2 ⟨by decide, fun c hc ↦ ?_⟩
    obtain ⟨n, hn⟩ := hvalues.exists_of_mem c hc
    exact isBlank_of_hexDigit? hn
  have htrim : Text.trimChars ('#' :: digits) = '#' :: digits :=
    Text.trimChars_eq_self_iff.2 ⟨fun c hc ↦ hplain c (List.mem_of_head? hc),
      fun c hc ↦ hplain c (List.mem_of_getLast? hc)⟩
  have hlower : Text.asciiLower ('#' :: digits) = '#' :: Text.asciiLower digits := rfl
  rw [read?_eq, String.toList_ofList, htrim, hlower, ofKey?_hash,
    ofHex?_of_hasValues hvalues.asciiLower, ← ofHex?_of_hasValues hvalues, h]
  rfl

/-- The part of a color that a text gives. -/
def part? (α : Type) [Scalar α] (text : List Char) : Option ℕ :=
  (Scalar.read? (α := α) (String.ofList text)).map ofComponent

theorem ofArguments?_cons (red green blue : List Char) (rest : List (List Char)) :
    ofArguments? α (red :: green :: blue :: rest) =
      (part? α red).bind fun r ↦ (part? α green).bind fun g ↦ (part? α blue).bind fun b ↦
        some ⟨r, g, b⟩ := rfl

/-- The parts of a color in numbers are bytes, since numbers are held within a byte. -/
theorem isBytes_of_ofArguments? {arguments : List (List Char)} {color : Rgb}
    (h : ofArguments? α arguments = some color) : color.IsBytes := by
  rw [ofArguments?.eq_def] at h
  split at h
  case h_2 => cases h
  simp only [Option.bind_eq_bind, Option.bind_eq_some_iff, Option.map_eq_some_iff] at h
  obtain ⟨-, ⟨r, -, rfl⟩, -, ⟨g, -, rfl⟩, -, ⟨b, -, rfl⟩, heq⟩ := h
  cases heq
  exact ⟨Scalar.toByte_lt _, Scalar.toByte_lt _, Scalar.toByte_lt _⟩

/-- What is read has bytes for its parts, and an opacity that is held between zero and one. -/
theorem of_ofKey? {key : List Char} {color : Rgb} {own? : Option α}
    (h : ofKey? α key = some (color, own?)) :
    color.IsBytes ∧ ∀ own ∈ own?, ∃ x, own = Scalar.clamp 0.0 1.0 x := by
  rw [ofKey?] at h
  split at h
  · simp only [Option.bind_eq_bind, Option.bind_eq_some_iff] at h
    obtain ⟨color', hcolor, last, -, x, -, heq⟩ := h
    cases heq
    exact ⟨isBytes_of_ofArguments? hcolor, fun own hown ↦ ⟨x, (Option.some.inj hown).symm⟩⟩
  · split at h
    · obtain ⟨color', hcolor, heq⟩ := Option.map_eq_some_iff.1 h
      cases heq
      exact ⟨isBytes_of_ofArguments? hcolor, by simp⟩
    · obtain ⟨color', hcolor, heq⟩ := Option.map_eq_some_iff.1 h
      cases heq
      refine ⟨?_, by simp⟩
      rcases Option.or_eq_some_iff.1 hcolor with hhex | ⟨-, hname⟩
      · exact isBytes_of_ofHex? hhex
      · have hnames : ∀ entry ∈ names, entry.2.IsBytes := by decide
        obtain ⟨before, after, hsplit, -⟩ := List.lookup_eq_some_iff.1 hname
        exact hnames (_, color) (hsplit ▸ List.mem_append_right _ List.mem_cons_self)

end Read

/-! ### Steps that can fail -/

section Checked

/-- The first elements of a list; a failure if it has fewer. -/
def front? {β : Type} (count : ℕ) (list : List β) : Option (List β) :=
  if count ≤ list.length then some (list.take count) else none

/-- The byte that a text spells in hexadecimal digits, perhaps after a plus sign; a failure if it
spells none. -/
def byteOfHex? (text : List Char) : Option ℕ := do
  let digits := match text with
    | '+' :: c :: rest => c :: rest
    | _ => text
  let values ← digits.mapM hexDigit?
  let n := values.foldl (16 * · + ·) 0
  if values ≠ [] ∧ n < 256 then some n else none

/-- The color of six hexadecimal digits, with a failure where a slice or a conversion fails. -/
def ofSix? (digits : List Char) : Option Rgb := do
  let red ← byteOfHex? (← Text.slice? 0 2 digits)
  let green ← byteOfHex? (← Text.slice? 2 2 digits)
  let blue ← byteOfHex? (← Text.slice? 4 2 digits)
  return ⟨red, green, blue⟩

/-- `ofHex?`, with a failure where one of its steps fails. -/
def checkedHex? (text : List Char) : Option (Option Rgb) :=
  if text.all fun c ↦ (hexDigit? c).isSome then
    match Text.size text with
    | 3 => (ofSix? (text.flatMap fun c ↦ [c, c])).map some
    | 6 => (ofSix? text).map some
    | _ => some none
  else some none

/-- A number as a part of a color, with a failure where its bounds are out of order. -/
def checkedPart? (text : List Char) : Option (Option ℕ) :=
  match Scalar.read? (α := Float) (String.ofList text) with
  | none => some none
  | some x => (Scalar.clamp? 0.0 255.0 (Scalar.round x)).map fun part ↦ some (Scalar.toByte part)

/-- A number as an opacity, with a failure where its bounds are out of order. -/
def checkedOpacity? (text : List Char) : Option (Option Float) :=
  match Scalar.read? (String.ofList text) with
  | none => some none
  | some x => (Scalar.clamp? 0.0 1.0 x).map some

/-- The color of three numbers, with a failure where one of the steps fails. -/
def checkedParts? : List (List Char) → Option (Option Rgb)
  | [red, green, blue] => do
    let some red ← checkedPart? red | return none
    let some green ← checkedPart? green | return none
    let some blue ← checkedPart? blue | return none
    return some ⟨red, green, blue⟩
  | _ => none

/-- `ofKey?`, with a failure where one of its steps fails. -/
def checkedKey? (key : List Char) : Option (Option (Rgb × Option Float)) :=
  match callArguments? "rgba".toList key with
  | some arguments =>
    if 4 ≤ arguments.length then do
      let some color ← checkedParts? (← front? 3 arguments) | return none
      return (← checkedOpacity? (← arguments[3]?)).map fun own ↦ (color, some own)
    else some none
  | none =>
    match callArguments? "rgb".toList key with
    | some arguments =>
      if 3 ≤ arguments.length then do
        return (← checkedParts? (← front? 3 arguments)).map (·, none)
      else some none
    | none => do
      return ((← checkedHex? (afterHash key)).or (names.lookup (String.ofList key))).map (·, none)

/-- `read?`, with a failure where one of its steps fails. -/
def checkedRead? (text : String) : Option (Option (Rgb × Option Float)) :=
  checkedKey? (Text.asciiLower (Text.trimChars text.toList))

/-- Two digits spell a byte. -/
theorem byteOfHex?_eq {c d : Char} {m n : ℕ} (hc : hexDigit? c = some m)
    (hd : hexDigit? d = some n) : byteOfHex? [c, d] = some (16 * m + n) := by
  have hplus : c ≠ '+' := fun h ↦ absurd (h ▸ hc) (by simp +decide [hexDigit?])
  have hvalues : [c, d].mapM hexDigit? = some [m, n] :=
    mapM_hexDigit?_eq_some_iff.2 (.cons hc (.cons hd .nil))
  have hbyte : 16 * (16 * 0 + m) + n < 256 := by
    have := hexDigit?_lt hc
    have := hexDigit?_lt hd
    omega
  rw [byteOfHex?, hvalues]
  · show (if _ then some _ else none) = _
    rw [if_pos ⟨List.cons_ne_nil _ _, hbyte⟩]
    simp
  · exact fun e rest h ↦ hplus (List.cons.inj h).1

theorem HasValues.utf8Size_eq {text : List Char} {values : List ℕ} (h : HasValues text values) :
    ∀ c ∈ text, c.utf8Size = 1 := fun c hc ↦ by
  obtain ⟨n, hn⟩ := h.exists_of_mem c hc
  exact utf8Size_of_hexDigit? hn

/-- On six digits none of the slices and conversions fails. -/
theorem ofSix?_eq {text : List Char} {values : List ℕ} (h : HasValues text values)
    (hlength : text.length = 6) : ofSix? text = ofHex? text := by
  have hslice (first : ℕ) (hfirst : first + 2 ≤ text.length) :=
    Text.slice?_eq h.utf8Size_eq hfirst
  rw [ofSix?, hslice 0 (by omega), hslice 2 (by omega), hslice 4 (by omega),
    ofHex?_of_hasValues h]
  match text, hlength with
  | [r, r', g, g', b, b'], _ =>
    rcases h with _ | ⟨hr, _ | ⟨hr', _ | ⟨hg, _ | ⟨hg', _ | ⟨hb, _ | ⟨hb', _ | _⟩⟩⟩⟩⟩⟩
    show (byteOfHex? [r, r']).bind (fun red ↦ (byteOfHex? [g, g']).bind fun green ↦
      (byteOfHex? [b, b']).bind fun blue ↦ some (Rgb.mk red green blue)) = _
    rw [byteOfHex?_eq hr hr', byteOfHex?_eq hg hg', byteOfHex?_eq hb hb']
    rfl

/-- Nor does any step on a text of any other kind. -/
theorem checkedHex?_eq (text : List Char) : checkedHex? text = some (ofHex? text) := by
  rw [checkedHex?]
  split_ifs with hall
  · obtain ⟨values, hvalues⟩ := all_hexDigit?_iff.1 hall
    have hsome := isSome_ofHex?_iff hvalues
    rw [Text.size_eq_length hvalues.utf8Size_eq]
    split
    case h_1 hlength =>
      obtain ⟨color, hcolor⟩ := Option.isSome_iff_exists.1 (hsome.2 (.inl hlength))
      rw [ofSix?_eq hvalues.double (by simp [hlength]), ofHex?_double hvalues hlength, hcolor]
      rfl
    case h_2 hlength =>
      obtain ⟨color, hcolor⟩ := Option.isSome_iff_exists.1 (hsome.2 (.inr hlength))
      rw [ofSix?_eq hvalues hlength, hcolor]
      rfl
    case h_3 hthree hsix =>
      rw [Option.not_isSome_iff_eq_none.1 fun h ↦ (hsome.1 h).elim hthree hsix]
  · -- what is no digit makes a text none in both
    cases hcolor : ofHex? text with
    | none => rfl
    | some color => exact absurd (all_hexDigit?_iff.2 (exists_hasValues hcolor)) hall

/-- The bounds of a part are in order. -/
theorem checkedPart?_eq (text : List Char) : checkedPart? text = some (part? Float text) := by
  have hbounds : (0.0 : Float) ≤ 255.0 := by decide +kernel
  rw [checkedPart?, part?]
  split
  case h_1 hread => rw [hread]; rfl
  case h_2 x hread => rw [hread, Scalar.clamp?, if_pos hbounds]; rfl

/-- So are those of an opacity. -/
theorem checkedOpacity?_eq (text : List Char) : checkedOpacity? text =
    some ((Scalar.read? (String.ofList text)).map (Scalar.clamp 0.0 1.0)) := by
  have hbounds : (0.0 : Float) ≤ 1.0 := Scalar.zero_le_one
  rw [checkedOpacity?]
  split
  case h_1 hread => rw [hread]; rfl
  case h_2 x hread => rw [hread, Scalar.clamp?, if_pos hbounds]; rfl

/-- No step fails on three numbers, whatever else follows them. -/
theorem checkedParts?_eq (red green blue : List Char) (rest : List (List Char)) :
    checkedParts? [red, green, blue] =
      some (ofArguments? Float (red :: green :: blue :: rest)) := by
  rw [checkedParts?, checkedPart?_eq, checkedPart?_eq, checkedPart?_eq, ofArguments?_cons]
  cases part? Float red with
  | none => rfl
  | some r =>
    cases part? Float green with
    | none => rfl
    | some g => cases part? Float blue <;> rfl

/-- None of the steps fails on any text. -/
theorem checkedKey?_eq (key : List Char) : checkedKey? key = some (ofKey? Float key) := by
  rw [checkedKey?, ofKey?]
  -- the cases are those of the calls, and a slice is cut only where there are enough arguments
  split
  case h_1 arguments hrgba =>
    match arguments with
    | red :: green :: blue :: last :: rest =>
      show (checkedParts? [red, green, blue]).bind _ = _
      rw [checkedParts?_eq red green blue (last :: rest), Option.bind_some]
      cases ofArguments? Float (red :: green :: blue :: last :: rest) with
      | none => rfl
      | some color =>
        show (checkedOpacity? last).bind _ = some ((Scalar.read? (String.ofList last)).bind _)
        rw [checkedOpacity?_eq, Option.bind_some]
        cases Scalar.read? (α := Float) (String.ofList last) <;> rfl
    | [red, green, blue] =>
      -- a color without an opacity is none in both
      show some none = some ((ofArguments? Float [red, green, blue]).bind fun _ ↦ none)
      rw [Option.bind_fun_none]
    | [_, _] => rfl
    | [_] => rfl
    | [] => rfl
  case h_2 hrgba =>
    split
    case h_1 arguments hrgb =>
      match arguments with
      | red :: green :: blue :: rest =>
        show (checkedParts? [red, green, blue]).bind _ = _
        rw [checkedParts?_eq red green blue rest]
        rfl
      | [_, _] => rfl
      | [_] => rfl
      | [] => rfl
    case h_2 hrgb =>
      rw [checkedHex?_eq]
      rfl

end Checked

end Rgb

/-! ### Colors of filters -/

section Filter

open Rgb

section Generic

variable {α : Type} [Scalar α]

/-- What stands before the opacity in a color of a filter. -/
def filterBase (α : Type) [Scalar α] (text : String) : String :=
  if Text.isBlankText text then "black"
  else match read? (α := α) text with
    | some (color, _) => "0x" ++ String.ofList color.hex
    | none => Text.trim text

/-- The opacity that a color brings along. -/
def ownOpacity? (α : Type) [Scalar α] (text : String) : Option α := (read? text).bind Prod.snd

/-- The opacity in a color of a filter: the one that the color brings along, or else the given one,
held between zero and one. -/
def filterOpacity (text : String) (alpha : α) : α :=
  (ownOpacity? α text).getD (Scalar.clamp 0.0 1.0 alpha)

/-- Blanks are not understood as a color. -/
theorem read?_of_isBlankText {text : String} (h : Text.isBlankText text = true) :
    read? (α := α) text = none := by
  have htrim : Text.trimChars text.toList = [] :=
    Text.trimChars_eq_nil_iff.2 (List.all_eq_true.1 h)
  rw [read?_eq, htrim]
  rfl

/-- A color of a filter is its base and its opacity. -/
theorem filterColor_eq (text : String) (alpha : α) :
    filterColor text alpha = filterBase α text ++ "@" ++ numeral (filterOpacity text alpha) := by
  rw [filterColor, filterBase, filterOpacity, ownOpacity?]
  split_ifs with hblank
  · rw [read?_of_isBlankText hblank]
    rfl
  · cases read? (α := α) text <;> rfl

/-- The base of what is understood is its digits. -/
theorem filterBase_of_read? {text : String} {color : Rgb} {own? : Option α}
    (h : read? text = some (color, own?)) :
    filterBase α text = "0x" ++ String.ofList color.hex := by
  have hblank : ¬ Text.isBlankText text = true := fun hblank ↦ by
    rw [read?_of_isBlankText hblank] at h
    cases h
  rw [filterBase, if_neg hblank, h]

/-- The opacity is a fraction, unless the text brings along what is no number. -/
theorem isFraction_filterOpacity_iff [LawfulScalar α] (text : String) {alpha : α}
    (h : isNaN alpha = false) : Scalar.IsFraction (filterOpacity text alpha) ↔
      ∀ own ∈ ownOpacity? α text, isNaN own = false := by
  rw [filterOpacity]
  cases hown : ownOpacity? α text with
  | none => exact Scalar.isFraction_clamp_iff.trans (iff_of_true h (by simp))
  | some own =>
    obtain ⟨⟨color, _⟩, hread, rfl⟩ := Option.bind_eq_some_iff.1 hown
    obtain ⟨x, rfl⟩ := (of_ofKey? hread).2 own rfl
    rw [Option.getD_some, Scalar.isFraction_clamp_iff]
    simp [Scalar.isNaN_clamp Scalar.isNaN_zero Scalar.isNaN_one]

end Generic

/-- What a text and an opacity come to as a color of a filter. -/
structure ComesToColor (text : String) (alpha : Float) : Prop where
  /-- No step of the reading fails. -/
  checkedRead?_eq : checkedRead? text = some (read? text)
  /-- The color is a base and an opacity. -/
  filterColor_eq : filterColor text alpha =
    filterBase Float text ++ "@" ++ numeral (filterOpacity text alpha)
  /-- The opacity is a number from zero to one, unless the text brings along what is no number. -/
  isFraction_iff : Scalar.IsFraction (filterOpacity text alpha) ↔
    ∀ own ∈ ownOpacity? Float text, isNaN own = false
  /-- The base of what is understood is six digits, which are read as the same color. -/
  of_read? : ∀ color (own? : Option Float), read? text = some (color, own?) →
    filterBase Float text = "0x" ++ String.ofList color.hex ∧
      color.hex.length = 6 ∧ (∀ c ∈ color.hex, isLowerHex c = true) ∧
      read? (String.ofList ('#' :: color.hex)) = some (color, (none : Option Float))
  /-- Letter case does not matter. -/
  read?_of_asciiLower : ∀ other : String,
    Text.asciiLower other.toList = Text.asciiLower text.toList →
      read? (α := Float) other = read? text
  /-- Three digits are understood, and as the six with each of them twice. -/
  read?_double : ∀ digits other : List Char, text = String.ofList ('#' :: digits) →
    digits.length = 3 → (digits.all fun c ↦ (hexDigit? c).isSome) = true →
      Text.asciiLower other = Text.asciiLower (digits.flatMap fun c ↦ [c, c]) →
        (read? (α := Float) text).isSome = true ∧
          read? (α := Float) (String.ofList ('#' :: other)) = read? text

/-- Every text comes to a color, with any finite opacity. -/
theorem comesToColor (text : String) {alpha : Float} (h : isFinite alpha = true) :
    ComesToColor text alpha where
  checkedRead?_eq := checkedKey?_eq _
  filterColor_eq := filterColor_eq text alpha
  isFraction_iff := isFraction_filterOpacity_iff text (Scalar.isNaN_of_isFinite h)
  of_read? := by
    intro color own? hread
    have hbytes : color.IsBytes := (of_ofKey? hread).1
    refine ⟨filterBase_of_read? hread, ?_, ?_, read?_hash (ofHex?_hex hbytes)⟩
    · rw [hex_eq hbytes]
      rfl
    · rw [hex_eq hbytes]
      exact List.forall_mem_map.2 fun n hn ↦ (hexDigit?_digitChar (nibbles_lt hbytes n hn)).2
  read?_of_asciiLower := fun _ ↦ read?_eq_of_asciiLower
  read?_double := by
    rintro digits other rfl hlength hdigits hother
    obtain ⟨values, hvalues⟩ := all_hexDigit?_iff.1 hdigits
    obtain ⟨color, hcolor⟩ :=
      Option.isSome_iff_exists.1 ((isSome_ofHex?_iff hvalues).2 (.inl hlength))
    have hdouble := (ofHex?_double hvalues hlength).trans hcolor
    have hlower : Text.asciiLower (String.ofList ('#' :: other)).toList =
        Text.asciiLower (String.ofList ('#' :: digits.flatMap fun c ↦ [c, c])).toList := by
      rw [String.toList_ofList, String.toList_ofList]
      exact congrArg (Char.toLower '#' :: ·) hother
    rw [read?_eq_of_asciiLower hlower, read?_hash hcolor, read?_hash hdouble]
    exact ⟨rfl, rfl⟩

/-- Half black is understood. -/
theorem comesToColor_half : isFinite (1.0 : Float) = true ∧
    ComesToColor "rgba(0, 0, 0, 0.4)" (1.0 : Float) ∧
      filterColor "rgba(0, 0, 0, 0.4)" (1.0 : Float) = "0x000000@0.4" := by
  have hfinite : isFinite (1.0 : Float) = true := by decide +kernel
  exact ⟨hfinite, comesToColor "rgba(0, 0, 0, 0.4)" hfinite, by decide +kernel⟩

/-- The text of a finite number does not end in a letter. -/
theorem getLast?_numeral {x : Float} (h : isFinite x = true) :
    (numeral x).toList.getLast? ≠ some 'N' := by
  obtain ⟨negative, c, more, hc, hmore, htext⟩ := Formula.exists_toList_numeral h
  rw [htext]
  intro hlast
  have hmem : 'N' ∈ '-' :: c :: more := by
    have := List.mem_of_getLast? hlast
    split_ifs at this
    · exact this
    · exact List.mem_cons_of_mem _ this
  rcases List.mem_cons.1 hmem with h | hmem
  · exact absurd h (by decide)
  · rcases List.mem_cons.1 hmem with rfl | hmem
    · exact absurd hc (by decide)
    · exact absurd (hmore _ hmem) (by decide)

/-- An opacity that is no number is passed on, and what is written is no fraction. -/
theorem filterColor_nan :
    filterColor "rgba(0,0,0,nan)" (1.0 : Float) = "0x000000@NaN" ∧
      ∀ (base : String) (a : Float), Scalar.IsFraction a →
        filterColor "rgba(0,0,0,nan)" (1.0 : Float) ≠ base ++ "@" ++ numeral a := by
  have hcolor : filterColor "rgba(0,0,0,nan)" (1.0 : Float) = "0x000000@NaN" := by decide +kernel
  refine ⟨hcolor, fun base a ha heq ↦ getLast?_numeral ha.1 ?_⟩
  obtain ⟨_, c, more, -, -, htext⟩ := Formula.exists_toList_numeral ha.1
  have hnonempty : (numeral a).toList ≠ [] := by
    rw [htext]
    split_ifs <;> exact List.cons_ne_nil _ _
  rw [← List.getLast?_append_of_ne_nil (base ++ "@").toList hnonempty, ← String.toList_append,
    ← heq, hcolor]
  decide

end Filter

end Splice
