import Mathlib.Data.List.DropRight
import Splice.Text.Blank

/-!
# Trimmed texts

What trimming changes: nothing exactly in the texts that have no blank at either end (`IsTrimmed`),
and everything exactly in those that have nothing but blanks.
-/

namespace Splice.Text

/-- No blank stands at either end. -/
def IsTrimmed (text : String) : Prop :=
  (∀ c ∈ text.toList.head?, isBlank c = false) ∧ ∀ c ∈ text.toList.getLast?, isBlank c = false

theorem trimChars_eq (text : List Char) :
    trimChars text = (text.dropWhile isBlank).rdropWhile isBlank := rfl

/-- Nothing is left exactly of blanks. -/
theorem trimChars_eq_nil_iff {text : List Char} :
    trimChars text = [] ↔ ∀ c ∈ text, isBlank c = true := by
  rw [trimChars_eq, List.rdropWhile_eq_nil_iff, ← List.dropWhile_eq_nil_iff,
    List.dropWhile_idempotent, List.dropWhile_eq_nil_iff]

/-- Trimming only leaves characters out. -/
theorem trimChars_sublist {text : List Char} : (trimChars text).Sublist text :=
  (List.rdropWhile_prefix _ _).sublist.trans (List.dropWhile_sublist _)

theorem mem_dropWhile_iff {text : List Char} {c : Char} (h : isBlank c = false) :
    c ∈ text.dropWhile isBlank ↔ c ∈ text := by
  refine ⟨(List.dropWhile_sublist _).mem, fun hc ↦ ?_⟩
  rw [← List.takeWhile_append_dropWhile (p := isBlank) (l := text), List.mem_append] at hc
  exact hc.resolve_left fun hc ↦ by simp [List.mem_takeWhile_imp hc] at h

/-- What is cut off stands at the ends. -/
theorem exists_trimChars (text : List Char) : ∃ front back, (∀ c ∈ front, isBlank c = true) ∧
    (∀ c ∈ back, isBlank c = true) ∧ front ++ trimChars text ++ back = text := by
  refine ⟨text.takeWhile isBlank, (text.dropWhile isBlank).rtakeWhile isBlank,
    fun _ ↦ List.mem_takeWhile_imp, fun _ ↦ List.mem_rtakeWhile_imp, ?_⟩
  rw [trimChars_eq, List.append_assoc, List.rdropWhile_append_rtakeWhile,
    List.takeWhile_append_dropWhile]

/-- Only blanks are cut off. -/
theorem mem_trimChars_iff {text : List Char} {c : Char} (h : isBlank c = false) :
    c ∈ trimChars text ↔ c ∈ text := by
  rw [trimChars, List.mem_reverse, mem_dropWhile_iff h, List.mem_reverse, mem_dropWhile_iff h]

/-- Nothing is cut at the start if there is no blank. -/
theorem dropWhile_eq_self_iff {text : List Char} :
    text.dropWhile isBlank = text ↔ ∀ c ∈ text.head?, isBlank c = false := by
  rw [List.dropWhile_eq_self_iff]
  cases text <;> simp

/-- Nor at the end. -/
theorem rdropWhile_eq_self_iff {text : List Char} :
    text.rdropWhile isBlank = text ↔ ∀ c ∈ text.getLast?, isBlank c = false := by
  rw [← List.head?_reverse, ← dropWhile_eq_self_iff, List.rdropWhile, List.reverse_eq_iff]

/-- A text is left as it is if neither end is cut. -/
theorem trimChars_eq_self_iff {text : List Char} :
    trimChars text = text ↔
      (∀ c ∈ text.head?, isBlank c = false) ∧ ∀ c ∈ text.getLast?, isBlank c = false := by
  rw [← dropWhile_eq_self_iff, ← rdropWhile_eq_self_iff, trimChars_eq]
  constructor
  · intro h
    -- what is cut at the start cannot come back at the end
    have hstart : text.dropWhile isBlank = text := by
      refine (List.dropWhile_sublist _).antisymm ?_
      conv_lhs => rw [← h]
      exact (List.rdropWhile_prefix _ _).sublist
    exact ⟨hstart, by rwa [hstart] at h⟩
  · rintro ⟨hstart, hend⟩
    rw [hstart, hend]

/-- A trimmed text, and no other one, is left as it is. -/
theorem trim_eq_self_iff {text : String} : trim text = text ↔ IsTrimmed text := by
  rw [trim, ← String.toList_inj, String.toList_ofList, trimChars_eq_self_iff, IsTrimmed]

instance (text : String) : Decidable (IsTrimmed text) := decidable_of_iff _ trim_eq_self_iff

/-- Nothing is left to trim. -/
theorem isTrimmed_trim (text : String) : IsTrimmed (trim text) := by
  rw [IsTrimmed, trim, String.toList_ofList, trimChars_eq]
  constructor
  · -- what is cut at the end leaves the beginning as it is
    obtain ⟨blanks, hsplit⟩ := List.rdropWhile_prefix isBlank (text.toList.dropWhile isBlank)
    have hhead := List.head?_dropWhile_not isBlank text.toList
    intro c hc
    rwa [← hsplit, List.head?_append, Option.mem_def.1 hc] at hhead
  · intro c hc
    obtain ⟨hne, rfl⟩ := List.mem_getLast?_eq_getLast hc
    exact Bool.eq_false_iff.2 (List.rdropWhile_last_not isBlank _ hne)

/-- What is empty after trimming was blank before. -/
theorem isEmpty_trim (text : String) : (trim text).isEmpty = isBlankText text := by
  rw [Bool.eq_iff_iff, String.isEmpty_iff, ← String.toList_inj, trim, String.toList_ofList,
    isBlankText, List.all_eq_true]
  exact trimChars_eq_nil_iff

end Splice.Text
