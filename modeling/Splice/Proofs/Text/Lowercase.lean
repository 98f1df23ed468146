import Splice.Proofs.Text.Trim
import Splice.Text.Lowercase

/-!
# Lowercase forms

A capital sigma is written in lowercase in two ways, one inside of a word and one at its end, so a
text with capital sigmas has more than one lowercase form (`IsLowercase`). Which one is right
depends on the letters around; `lowercase` takes the first one everywhere. Nothing is lost for who
looks for a part without a sigma: if the two small letters are not told apart, all lowercase forms
of a text are the same (`IsLowercase.map_joined`), and such a part stands in all or in none of them
(`isInfix_map_joined_iff`).
-/

namespace Splice.Text

/-- A lowercase form of a text; a capital sigma has two. -/
inductive IsLowercase : List Char → List Char → Prop
  | nil : IsLowercase [] []
  | cons (c : Char) {text form : List Char} :
      IsLowercase text form → IsLowercase (c :: text) (lowercaseChar c ++ form)
  | final {text form : List Char} : IsLowercase text form → IsLowercase ('Σ' :: text) ('ς' :: form)

/-- The form that is computed is one of them. -/
theorem isLowercase_lowercase (text : List Char) : IsLowercase text (lowercase text) := by
  induction text with
  | nil => exact .nil
  | cons c rest ih => exact .cons c ih

/-! ### Sigmas -/

/-- A character, if the two small sigmas are not told apart. -/
def joined (c : Char) : Char := if c = 'ς' then 'σ' else c

variable {text form part : List Char}

/-- All forms are the same if the small sigmas are not told apart. -/
theorem IsLowercase.map_joined (h : IsLowercase text form) :
    form.map joined = (lowercase text).map joined := by
  induction h with
  | nil => rfl
  | cons c _ ih => rw [lowercase, List.flatMap_cons, List.map_append, List.map_append, ih]; rfl
  | final _ ih =>
    have hsigma : lowercaseChar 'Σ' = ['σ'] := by decide
    rw [lowercase, List.flatMap_cons, hsigma, List.map_cons, ih]
    rfl

/-- Parts in which no small sigma stands. -/
def HasNoSigma (part : List Char) : Prop := 'σ' ∉ part ∧ 'ς' ∉ part

instance (part : List Char) : Decidable (HasNoSigma part) := inferInstanceAs (Decidable (_ ∧ _))

/-- A part without a sigma stays as it is. -/
theorem HasNoSigma.map_joined (h : HasNoSigma part) : part.map joined = part := by
  have hsame : ∀ c ∈ part, joined c = id c := fun c hc ↦ by
    have hne : c ≠ 'ς' := fun heq ↦ h.2 (heq ▸ hc)
    exact if_neg hne
  rw [List.map_congr_left hsame, List.map_id]

/-- And no other text becomes this part. -/
theorem map_joined_eq_iff (h : HasNoSigma part) : text.map joined = part ↔ text = part := by
  refine ⟨fun hmap ↦ ?_, fun heq ↦ heq ▸ h.map_joined⟩
  subst hmap
  refine (HasNoSigma.map_joined ⟨fun hc ↦ ?_, fun hc ↦ ?_⟩).symm
  · exact h.1 (List.mem_map.2 ⟨'σ', hc, rfl⟩)
  · exact h.1 (List.mem_map.2 ⟨'ς', hc, rfl⟩)

/-- The same of a list of parts. -/
theorem map_map_joined_eq_iff {texts parts : List (List Char)}
    (h : ∀ part ∈ parts, HasNoSigma part) :
    texts.map (List.map joined) = parts ↔ texts = parts := by
  induction texts generalizing parts with
  | nil => rfl
  | cons text texts ih =>
    cases parts with
    | nil => simp
    | cons part parts =>
      obtain ⟨hpart, hparts⟩ := List.forall_mem_cons.1 h
      rw [List.map_cons, List.cons.injEq, List.cons.injEq, map_joined_eq_iff hpart, ih hparts]

/-- A part without a sigma stands in a text before and after the sigmas are joined. -/
theorem isInfix_map_joined_iff (h : HasNoSigma part) :
    part <:+: text.map joined ↔ part <:+: text := by
  rw [List.infix_map_iff]
  constructor
  · rintro ⟨inside, hinside, heq⟩
    rwa [(map_joined_eq_iff h).1 heq.symm] at hinside
  · exact fun hinside ↦ ⟨part, hinside, h.map_joined.symm⟩

/-! ### Blanks -/

/-- The code points of the blanks. -/
def blankCodes : List ℕ :=
  [0x9, 0xA, 0xB, 0xC, 0xD, 0x20, 0x85, 0xA0, 0x1680, 0x2000, 0x2001, 0x2002, 0x2003, 0x2004,
    0x2005, 0x2006, 0x2007, 0x2008, 0x2009, 0x200A, 0x2028, 0x2029, 0x202F, 0x205F, 0x3000]

/-- There are no other blanks than those listed. -/
theorem toNat_mem_blankCodes {c : Char} (h : isBlank c = true) : c.toNat ∈ blankCodes := by
  simp only [isBlank, Bool.or_eq_true, Bool.and_eq_true, decide_eq_true_eq, beq_iff_eq] at h
  simp only [blankCodes, List.mem_cons, List.not_mem_nil, or_false]
  omega

theorem lowercaseChar_of_isBlank {c : Char} (h : isBlank c = true) : lowercaseChar c = [c] := by
  have hplain : ∀ n ∈ blankCodes, lowercaseChar (Char.ofNat n) = [Char.ofNat n] := by decide
  have hc := hplain c.toNat (toNat_mem_blankCodes h)
  rwa [Char.ofNat_toNat] at hc

/-- Blanks are their own lowercase forms. -/
theorem lowercase_of_isBlank (h : ∀ c ∈ text, isBlank c = true) : lowercase text = text := by
  rw [lowercase, List.flatMap_congr fun c hc ↦ lowercaseChar_of_isBlank (h c hc),
    List.flatMap_singleton']

/-- Blanks at the ends are the same in lowercase. -/
theorem exists_lowercase_trimChars (text : List Char) : ∃ front back,
    (∀ c ∈ front, isBlank c = true) ∧ (∀ c ∈ back, isBlank c = true) ∧
      front ++ lowercase (trimChars text) ++ back = lowercase text := by
  obtain ⟨front, back, hfront, hback, htext⟩ := exists_trimChars text
  refine ⟨front, back, hfront, hback, ?_⟩
  conv_rhs => rw [← htext]
  rw [lowercase, lowercase, List.flatMap_append, List.flatMap_append, ← lowercase, ← lowercase,
    ← lowercase, lowercase_of_isBlank hfront, lowercase_of_isBlank hback]

end Splice.Text
