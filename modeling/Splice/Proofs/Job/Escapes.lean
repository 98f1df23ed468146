import Splice.Proofs.Job.FileLists

/-!
# Escaped texts

A text is escaped in several passes, one for each character that would mean something, and each pass
goes over what the passes before it have put in. They do not get in each other's way since
backslashes are doubled first: a later pass looks for a character that is neither a backslash nor
one that was marked before, so it finds it only where the text itself has it (`replaceChar_marked`).
In another order the backslashes of an earlier pass would be doubled.

So the passes come to a single one (`escapeChars_eq`), which is undone by dropping each backslash
and taking the character behind it for itself (`unmarked_marked`).
-/

namespace Splice.Quoting

/-! ### Passes -/

/-- The text with a backslash before each of some characters. -/
def marked (special text : List Char) : List Char :=
  text.flatMap fun c ↦ if c ∈ special then ['\\', c] else [c]

variable {special : List Char}

theorem marked_cons (special : List Char) (c : Char) (text : List Char) :
    marked special (c :: text) =
      (if c ∈ special then ['\\', c] else [c]) ++ marked special text := rfl

/-- It does not matter in which order the characters are listed. -/
theorem marked_congr {other : List Char} (h : ∀ c, c ∈ special ↔ c ∈ other) (text : List Char) :
    marked special text = marked other text := by
  simp only [marked, h]

/-- The first pass marks the backslashes. -/
theorem replaceChar_backslash (text : List Char) :
    replaceChar '\\' ['\\', '\\'] text = marked ['\\'] text := by
  rw [replaceChar, marked]
  refine List.flatMap_congr fun c _ ↦ ?_
  simp only [List.mem_singleton]
  split_ifs with hc
  · rw [hc]
  · rfl

/-- A later pass marks one character more. -/
theorem replaceChar_marked {c : Char} (hc : c ∉ special) (hslash : '\\' ∈ special)
    (text : List Char) :
    replaceChar c ['\\', c] (marked special text) = marked (c :: special) text := by
  have hbackslash : '\\' ≠ c := fun heq ↦ hc (heq ▸ hslash)
  rw [replaceChar, marked, List.flatMap_assoc, marked]
  refine List.flatMap_congr fun d _ ↦ ?_
  by_cases hd : d ∈ special
  · -- the mark and the character behind it are left alone
    have hne : d ≠ c := fun heq ↦ hc (heq ▸ hd)
    rw [if_pos hd, if_pos (List.mem_cons_of_mem _ hd)]
    simp [hbackslash, hne]
  · rw [if_neg hd]
    by_cases hdc : d = c <;> simp [hd, hdc]

/-- All passes together mark all their characters. -/
theorem foldl_replaceChar_marked {todo : List Char} (hslash : '\\' ∈ special)
    (h : (todo ++ special).Nodup) (text : List Char) :
    todo.foldl (fun text c ↦ replaceChar c ['\\', c] text) (marked special text) =
      marked (todo ++ special) text := by
  induction todo generalizing special with
  | nil => rfl
  | cons c todo ih =>
    obtain ⟨hc, hrest⟩ := List.nodup_cons.1 h
    rw [List.foldl_cons, replaceChar_marked (fun hmem ↦ hc (List.mem_append_right _ hmem)) hslash,
      ih (List.mem_cons_of_mem _ hslash) (List.perm_middle.nodup_iff.2 h)]
    exact marked_congr (fun d ↦ List.perm_middle.mem_iff) text

/-- The passes come to a single one. -/
theorem escapeChars_eq (text : List Char) : escapeChars text = marked escapedChars text := by
  have hpasses : escapeChars text = [':', '\'', '%'].foldl
      (fun text c ↦ replaceChar c ['\\', c] text) (replaceChar '\\' ['\\', '\\'] text) := rfl
  rw [hpasses, replaceChar_backslash, foldl_replaceChar_marked (by decide) (by decide)]
  exact marked_congr (fun c ↦ List.Perm.mem_iff (by decide)) text

/-! ### Reading -/

/-- The text that is read where a backslash is dropped and the character behind it stands for
itself. -/
def unmarked : List Char → List Char
  | [] => []
  | ['\\'] => []
  | '\\' :: c :: rest => c :: unmarked rest
  | c :: rest => c :: unmarked rest

theorem unmarked_cons {c : Char} (h : c ≠ '\\') (rest : List Char) :
    unmarked (c :: rest) = c :: unmarked rest := by
  rw [unmarked.eq_def]
  split <;> simp_all

/-- What was marked is read as it was, if the backslashes of the text were marked too. -/
theorem unmarked_marked (hslash : '\\' ∈ special) (text : List Char) :
    unmarked (marked special text) = text := by
  induction text with
  | nil => rfl
  | cons c rest ih =>
    rw [marked_cons]
    split_ifs with hc
    · show c :: unmarked (marked special rest) = c :: rest
      rw [ih]
    · have hne : c ≠ '\\' := fun heq ↦ hc (heq ▸ hslash)
      rw [List.singleton_append, unmarked_cons hne, ih]

/-- The text that an escaped text is read as. -/
def unescape (text : String) : String := String.ofList (unmarked text.toList)

/-- An escaped text is read as the text. -/
theorem unescape_escape (text : String) : unescape (escape text) = text := by
  rw [unescape, escape, String.toList_ofList, escapeChars_eq, unmarked_marked (by decide),
    String.ofList_toList]

/-- An escaped text is the text with one backslash before each backslash, colon, quote and percent
sign. It is read as this text, so no other text is escaped to it. -/
theorem escape_isFaithful :
    (∀ text : String, (escape text).toList = text.toList.flatMap fun c ↦
        if c = '\\' ∨ c = ':' ∨ c = '\'' ∨ c = '%' then ['\\', c] else [c]) ∧
      (∀ text : String, unescape (escape text) = text) ∧ Function.Injective escape := by
  refine ⟨fun text ↦ ?_, unescape_escape, ?_⟩
  · rw [escape, String.toList_ofList, escapeChars_eq, marked]
    simp only [escapedChars, List.mem_cons, List.not_mem_nil, or_false]
  · exact Function.LeftInverse.injective unescape_escape

end Splice.Quoting
