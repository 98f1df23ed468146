import Mathlib.Data.List.Basic
import Mathlib.Tactic.SplitIfs
import Splice.Json.Parse
import Splice.Json.Print

/-!
# Strings of a document

A string is read back from its text, whatever its characters are: `Scan.codes?` undoes the escapes
(`codes?_escapeChar`), and since no character is half of a surrogate pair, `Scan.joinUnits?` takes
every code for a character of its own.
-/

namespace Splice.Json.Scan

/-! ### Escapes -/

/-- The two digits of a control character stand for it. -/
theorem hexCode?_hexPair : ∀ n < 0x20, ∃ a b, hexPair n = [a, b] ∧
    hexCode? '0' '0' a b = some n := by
  have hlength : ∀ n < 0x20, (hexPair n).length = 2 := by decide
  have hcode : ∀ n < 0x20,
      hexCode? '0' '0' ((hexPair n).getD 0 '0') ((hexPair n).getD 1 '0') = some n := by decide
  intro n hn
  obtain ⟨a, b, hpair⟩ := List.length_eq_two.1 (hlength n hn)
  refine ⟨a, b, hpair, ?_⟩
  have h := hcode n hn
  rwa [hpair] at h

/-- A character is read back from its escape. -/
theorem codes?_escapeChar (c : Char) (text : List Char) :
    codes? (escapeChar c ++ text) =
      (codes? text).map fun (codes, rest) ↦ (c.toNat :: codes, rest) := by
  have hmap (code : Nat) : (do
      let (codes, rest) ← codes? text
      return (code :: codes, rest)) =
      (codes? text).map fun (codes, rest) ↦ (code :: codes, rest) := by
    rcases codes? text with - | ⟨codes, rest⟩ <;> rfl
  -- one case for each kind of escape, in the order of the writer
  rw [escapeChar]
  split_ifs with hquote hbackslash hback hfeed hline hreturn htab hcontrol
  · subst hquote; exact hmap _
  · subst hbackslash; exact hmap _
  · subst hback; exact hmap _
  · subst hfeed; exact hmap _
  · subst hline; exact hmap _
  · subst hreturn; exact hmap _
  · subst htab; exact hmap _
  · obtain ⟨a, b, hpair, hcode⟩ := hexCode?_hexPair c.toNat hcontrol
    rw [hpair]
    show codes? ('\\' :: 'u' :: '0' :: '0' :: a :: b :: text) = _
    rw [codes?, hcode]
    exact hmap _
  · show codes? (c :: text) = _
    rw [codes?, if_neg (not_or.2 ⟨hcontrol, hbackslash⟩)]
    · exact hmap _
    · exact hquote
    · exact fun _ _ _ _ _ h _ ↦ hbackslash h
    · exact fun _ _ h _ ↦ hbackslash h

/-- The text of a string is read up to its closing quote. -/
theorem codes?_stringText (text : List Char) (rest : List Char) :
    codes? (text.flatMap escapeChar ++ '"' :: rest) = some (text.map Char.toNat, rest) := by
  induction text with
  | nil => rfl
  | cons c text ih => rw [List.flatMap_cons, List.append_assoc, codes?_escapeChar, ih]; rfl

/-! ### Surrogates -/

/-- No character is half of a surrogate pair. -/
theorem isLeading_toNat (c : Char) : isLeading c.toNat = false ∧ isTrailing c.toNat = false := by
  have hvalid : c.toNat < 0xD800 ∨ 0xDFFF < c.toNat ∧ c.toNat < 0x110000 := c.valid
  simp only [isLeading, isTrailing, Bool.and_eq_false_iff, decide_eq_false_iff_not]
  omega

/-- Characters that are no halves of pairs are joined to the text they came from. -/
theorem joinUnits?_map_toNat (text : List Char) :
    joinUnits? (text.map Char.toNat) = some text := by
  induction text with
  | nil => rfl
  | cons c text ih =>
    obtain ⟨hleading, htrailing⟩ := isLeading_toNat c
    cases text with
    | nil => simp [joinUnits?, hleading, htrailing]
    | cons d rest =>
      rw [List.map_cons] at ih
      simp [joinUnits?, hleading, htrailing, ih]

end Splice.Json.Scan
