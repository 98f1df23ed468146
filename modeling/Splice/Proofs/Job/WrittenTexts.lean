import Splice.Color
import Splice.Job.Graph
import Splice.Number.Binary64
import Splice.Proofs.Job.Options
import Splice.Proofs.Text.Trim
import Splice.Proofs.Timeline.Formulas

/-!
# Reading the filter of a written text

Which texts and colors of an author leave the filter of a text as it is meant
(`Job.Text.forall_isSafe_meant_iff`). Everything else that stands in the filter comes from
numbers, and the text of a number, an expression or a condition has no quote, backslash or colon in
it, even if the number is not finite (`isPlainText_numeral`).

A text stands between quotes, where backslashes and colons do no harm, but the backslash that an
apostrophe gets does not keep it from closing them (`quote_mem_escape_iff`). A color that is
understood is written anew; any other one is passed on, without quotes (`isPlainText_filterColor`).
-/

namespace Splice

namespace Options

/-! ### Plain texts -/

section Plain

instance : DecidablePred IsPlainText := fun text ↦
  decidable_of_iff (text.toList.all isPlain = true) List.all_eq_true

@[simp] theorem isPlainText_append {text more : String} :
    IsPlainText (text ++ more) ↔ IsPlainText text ∧ IsPlainText more := by
  simp only [IsPlainText, String.toList_append, List.forall_mem_append]

theorem isPlainText_ofList {text : List Char} :
    IsPlainText (String.ofList text) ↔ ∀ c ∈ text, isPlain c = true := by
  rw [IsPlainText, String.toList_ofList]

/-- The characters of numbers are plain. -/
theorem isPlain_of_isLiteralChar {c : Char} (h : Formula.isLiteralChar c = true) :
    isPlain c = true := by
  rw [isPlain_iff]
  refine ⟨?_, ?_, ?_⟩ <;> rintro rfl <;> exact absurd h (by decide)

theorem isPlain_of_isDigit {c : Char} (h : c.isDigit = true) : isPlain c = true :=
  isPlain_of_isLiteralChar (by rw [Formula.isLiteralChar, h, Bool.true_or])

/-- A natural number is written in plain characters. -/
theorem isPlainText_toString (n : ℕ) : IsPlainText (toString n) := by
  show IsPlainText (String.ofList (Nat.toDigits 10 n))
  rw [isPlainText_ofList]
  exact fun c hc ↦ isPlain_of_isDigit (Nat.isDigit_of_mem_toDigits (by decide) (by decide) hc)

variable {α : Type} [Scalar α]

/-- The text of a number is plain, finite or not. -/
theorem isPlainText_numeral (x : α) : IsPlainText (Scalar.numeral x) := by
  cases hdenote : Scalar.denote x with
  | finite sign magnitude =>
    have hfinite : Scalar.isFinite x = true := by
      rw [Scalar.isFinite, hdenote]
      rfl
    obtain ⟨negative, c, more, hc, hmore, htext⟩ := Formula.exists_toList_numeral hfinite
    have hnumber : ∀ d ∈ c :: more, isPlain d = true :=
      List.forall_mem_cons.2
        ⟨isPlain_of_isDigit hc, fun d hd ↦ isPlain_of_isLiteralChar (hmore d hd)⟩
    rw [IsPlainText, htext]
    split_ifs
    · exact List.forall_mem_cons.2 ⟨by decide, hnumber⟩
    · exact hnumber
  | nan =>
    rw [Scalar.numeral, Scalar.fixed, hdenote]
    decide
  | infinite negative =>
    rw [Scalar.numeral, Scalar.fixed, hdenote]
    cases negative <;> decide

/-! ### Expressions -/

/-- A nest of conditions is plain if its time is. -/
theorem isPlainText_expressionFrom {time : Expression α} (h : IsPlainText time.text)
    (start : α × α) (rest : List (α × α)) :
    IsPlainText (Curve.expressionFrom time start rest).text := by
  induction rest generalizing start with
  | nil => exact isPlainText_numeral start.2
  | cons stop rest ih =>
    simp +decide [Curve.expressionFrom, Expression.text, h, ih, isPlainText_numeral]

/-- So is a time with an offset. -/
theorem isPlainText_shifted {symbol : String} (h : IsPlainText symbol) (offset : α) :
    IsPlainText (Curve.shifted symbol offset).text := by
  rw [Curve.shifted]
  split_ifs
  · exact h
  · simp +decide [Expression.text, h, isPlainText_numeral]

/-- The expression of a curve is plain. -/
theorem isPlainText_expression (c : Curve α) {symbol : String} (h : IsPlainText symbol)
    (offset : α) : IsPlainText (c.expression symbol offset).text := by
  rw [Curve.expression]
  split_ifs
  · exact isPlainText_numeral c.first.2
  · simp +decide [Expression.text, isPlainText_shifted h, isPlainText_expressionFrom,
      isPlainText_numeral]

/-- So is the condition on which a text is shown. -/
theorem isPlainText_enableCondition (start stop : α) :
    IsPlainText (enableCondition start stop) := by
  simp +decide [enableCondition, isPlainText_numeral]

/-! ### Escapes -/

/-- A pass that puts backslashes before a character leaves the quotes in the text. -/
theorem quote_mem_replaceChar_iff (c : Char) (text : List Char) :
    '\'' ∈ Quoting.replaceChar c ['\\', c] text ↔ '\'' ∈ text := by
  rw [Quoting.replaceChar, List.mem_flatMap]
  constructor
  · rintro ⟨d, hd, hmem⟩
    split_ifs at hmem with hdc
    · have hc : '\'' = c := by simpa using hmem
      rwa [hc, ← hdc]
    · rwa [List.mem_singleton.1 hmem]
  · intro hmem
    refine ⟨'\'', hmem, ?_⟩
    split_ifs with hc
    · exact List.mem_cons_of_mem _ (List.mem_singleton.2 hc)
    · exact List.mem_singleton_self _

/-- A backslash keeps no quote away. -/
theorem quote_mem_escape_iff (text : String) :
    '\'' ∈ (Quoting.escape text).toList ↔ '\'' ∈ text.toList := by
  rw [Quoting.escape, String.toList_ofList, Quoting.escapeChars]
  simp only [Quoting.escapedChars, List.foldl_cons, List.foldl_nil, quote_mem_replaceChar_iff]

/-! ### Colors -/

theorem isPlain_of_mem_hexDigits {n : ℕ} {c : Char} (h : c ∈ Text.hexDigits n) :
    isPlain c = true := by
  have hdigit : ∀ m < 16, isPlain (Nat.digitChar m) = true := by decide
  induction n using Nat.base_induction 16 (by decide) with
  | single m hm =>
    rw [Text.hexDigits, Nat.toDigits_of_lt_base hm] at h
    exact List.mem_singleton.1 h ▸ hdigit m hm
  | digit m k hk hm ih =>
    rw [Text.hexDigits, ← Nat.toDigits_append_toDigits (by decide) hm hk,
      Nat.toDigits_of_lt_base hk] at h
    rcases List.mem_append.1 h with h | h
    · exact ih h
    · exact List.mem_singleton.1 h ▸ hdigit k hk

/-- The digits of a color are plain. -/
theorem isPlain_of_mem_hex {color : Rgb} {c : Char} (h : c ∈ color.hex) : isPlain c = true := by
  have hbyte {n : ℕ} (h : c ∈ Rgb.hex.byte n) : isPlain c = true := by
    rw [Rgb.hex.byte] at h
    split_ifs at h
    · rcases List.mem_cons.1 h with rfl | h
      · decide
      · exact isPlain_of_mem_hexDigits h
    · exact isPlain_of_mem_hexDigits h
  rw [Rgb.hex, List.mem_append, List.mem_append] at h
  exact h.elim (fun h ↦ h.elim hbyte hbyte) hbyte

/-- Blanks are plain, so a text is if it is without the blanks at its ends. -/
theorem isPlainText_trim {text : String} : IsPlainText (Text.trim text) ↔ IsPlainText text := by
  have hblank {c : Char} (h : Text.isBlank c = true) : isPlain c = true := by
    rw [isPlain_iff]
    refine ⟨?_, ?_, ?_⟩ <;> rintro rfl <;> exact absurd h (by decide)
  rw [Text.trim, isPlainText_ofList, IsPlainText]
  constructor
  · intro h c hc
    cases hc' : Text.isBlank c with
    | true => exact hblank hc'
    | false => exact h c ((Text.mem_trimChars_iff hc').2 hc)
  · exact fun h c hc ↦ h c (Text.trimChars_sublist.mem hc)

/-- Only a color that was not understood can bring in characters that mean something. -/
theorem isPlainText_filterColor (color : String) (alpha : α) :
    IsPlainText (filterColor color alpha) ↔
      (Rgb.read? (α := α) color).isSome = true ∨ IsPlainText color := by
  have hplain : IsPlainText color ↔ IsPlainText (Text.trim color) := isPlainText_trim.symm
  rw [filterColor]
  split_ifs with hblank
  · refine iff_of_true ?_ (.inr ?_)
    · exact isPlainText_append.2 ⟨by decide, isPlainText_numeral _⟩
    · have hempty := Text.isEmpty_trim color
      rw [hblank, String.isEmpty_iff] at hempty
      rw [hplain, hempty]
      decide
  · cases hread : Rgb.read? (α := α) color with
    | none => simp +decide [isPlainText_trim, isPlainText_numeral]
    | some read =>
      have hhex : IsPlainText (String.ofList read.1.hex) :=
        isPlainText_ofList.2 fun _ ↦ isPlain_of_mem_hex
      simp +decide [hhex, isPlainText_numeral]

end Plain

end Options

/-! ### Written texts -/

namespace Job.Text

open Options

variable {α : Type} [Scalar α]

/-- The options of a written text, without the quotes. -/
def meant (j : Job.Text α) : List (String × String) :=
  [("text", Quoting.escape j.text), ("fontcolor", j.color), ("fontsize", toString j.fontSize),
    ("box", "1"), ("boxcolor", "black@0.35"), ("boxborderw", "10"),
    ("x", (j.x.expression "t" j.start).text), ("y", (j.y.expression "t" j.start).text)] ++
  listIf (!j.opacity.isFlat) ("alpha", (j.opacity.expression "t" j.start).text) ++
  [("enable", enableCondition j.start j.stop)]

theorem options_eq (j : Job.Text α) : j.options = j.meant.map written := by
  rw [options, meant]
  cases j.opacity.isFlat <;> rfl

/-- The filter of a text is written from what is meant, with quotes around some values. -/
theorem filter_eq (j : Job.Text α) : j.filter = filterText "drawtext" (j.meant.map written) := by
  rw [filter, options_eq]
  rfl

/-- The names of the options are plain and have no equals sign in them. -/
theorem isName_of_mem_meant {j : Job.Text α} :
    ∀ option ∈ j.meant, IsPlainText option.1 ∧ '=' ∉ option.1.toList := by
  rw [meant]
  cases j.opacity.isFlat <;> simp +decide [listIf]

/-- The text and the color are all that can be unsafe. -/
theorem forall_isSafe_meant_iff (j : Job.Text α) : (∀ option ∈ j.meant, IsSafe option) ↔
    '\'' ∉ j.text.toList ∧ IsPlainText j.color := by
  have htext : IsSafe ("text", Quoting.escape j.text) ↔ '\'' ∉ j.text.toList := by
    rw [isSafe_iff_of_quoted (by decide), quote_mem_escape_iff]
  have hcolor : IsSafe ("fontcolor", j.color) ↔ IsPlainText j.color :=
    isSafe_iff_of_bare (by decide)
  have hsize : IsSafe ("fontsize", toString j.fontSize) :=
    isSafe_of_isPlainText (isPlainText_toString _)
  have hcurve (name : String) (c : Curve α) : IsSafe (name, (c.expression "t" j.start).text) :=
    isSafe_of_isPlainText (isPlainText_expression c (by decide) j.start)
  have hbox : IsSafe ("box", "1") ∧ IsSafe ("boxcolor", "black@0.35") ∧
      IsSafe ("boxborderw", "10") := by
    refine ⟨?_, ?_, ?_⟩ <;> exact isSafe_of_isPlainText (by decide)
  have henable : IsSafe ("enable", enableCondition j.start j.stop) :=
    isSafe_of_isPlainText (isPlainText_enableCondition _ _)
  rw [meant]
  cases j.opacity.isFlat <;>
    simp only [listIf, List.forall_mem_append, List.forall_mem_cons, List.not_mem_nil, htext,
      hcolor, hsize, hcurve, hbox, henable, Bool.not_true, Bool.not_false, Bool.false_eq_true,
      if_true, if_false, false_implies, implies_true, and_true]

/-- The text in a color with an opacity. -/
def withColor (j : Job.Text α) (color : String) (alpha : α) : Job.Text α :=
  { j with color := filterColor color alpha }

/-- Whether the filter of a text is read as it is meant. -/
def IsReadAsMeant (j : Job.Text α) : Prop := filter? j.filter = some ("drawtext", j.meant)

instance (j : Job.Text α) : Decidable j.IsReadAsMeant :=
  inferInstanceAs (Decidable (filter? j.filter = some ("drawtext", j.meant)))

/-- The filter of a text in an author's color is read as it is meant exactly if the text has no
quote, and the color was understood or has nothing in it that means something. -/
theorem isReadAsMeant_withColor_iff (j : Job.Text α) (color : String) (alpha : α) :
    (j.withColor color alpha).IsReadAsMeant ↔
      '\'' ∉ j.text.toList ∧
        ((Rgb.read? (α := α) color).isSome = true ∨ IsPlainText color) := by
  rw [IsReadAsMeant, filter_eq, filter?_iff (by decide) isName_of_mem_meant (by simp [meant]),
    forall_isSafe_meant_iff, withColor, isPlainText_filterColor]

/-- A text with an apostrophe, in white. -/
def contraction : Job.Text Float where
  base := ⟨"base.mp4"⟩
  text := "it's"
  start := 0.0
  stop := 3.0
  x := .flat 10.0
  y := .flat 20.0
  opacity := .flat 1.0
  fontSize := 32
  color := filterColor "white" (1.0 : Float)
  encoding := ⟨30.0, none⟩
  output := ⟨"out.mp4"⟩

/-- The quote of the text ends the span that the text stands in, and every other option gets into
the text. -/
theorem not_isReadAsMeant_contraction :
    ¬ contraction.IsReadAsMeant ∧
      (filter? contraction.filter).map (fun read ↦ read.2.map Prod.fst) = some ["text"] := by
  decide +kernel

end Job.Text

end Splice
