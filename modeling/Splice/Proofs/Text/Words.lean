import Splice.Proofs.Text.Trim

/-!
# Words

The words of a text are the maximal runs of characters that no cut is made at. `IsRuns` says so one
run at a time, from the front of the text, and what a change of the text does to its words is shown
by induction on it: a text has exactly one list of runs, the one that is computed (`isRuns_iff`).

Words that are joined with one separator are found again (`isRuns_intercalate`), and a part without
a separator stands in the joined text only inside of a word (`isInfix_intercalate_iff`).
-/

namespace Splice.Text

/-- The pieces are those of the splitting function of the library. -/
theorem pieces_eq (cut : Char → Bool) (text : List Char) : pieces cut text = text.splitOnP cut := by
  induction text with
  | nil => rfl
  | cons c rest ih =>
    rw [pieces, ih, List.splitOnP_cons_eq_if_modifyHead]
    split_ifs
    · rfl
    · obtain ⟨piece, more, hpieces⟩ := List.exists_cons_of_ne_nil (List.splitOnP_ne_nil cut rest)
      rw [hpieces]
      rfl

/-- The runs of characters without a cut. -/
def runs (cut : Char → Bool) (text : List Char) : List (List Char) :=
  (pieces cut text).filter (!·.isEmpty)

theorem words_eq (text : List Char) : words text = runs isBlank text := rfl

/-- The maximal runs of characters without a cut, in their order. -/
inductive IsRuns (cut : Char → Bool) : List Char → List (List Char) → Prop
  | nil : IsRuns cut [] []
  | skip {c : Char} {text : List Char} {words : List (List Char)} : cut c = true →
      IsRuns cut text words → IsRuns cut (c :: text) words
  /-- A run ends where the text ends or before a cut. -/
  | run {run text : List Char} {words : List (List Char)} : run ≠ [] →
      (∀ c ∈ run, cut c = false) → (∀ c ∈ text.head?, cut c = true) →
      IsRuns cut text words → IsRuns cut (run ++ text) (run :: words)

section

variable {cut : Char → Bool} {text : List Char} {words : List (List Char)}

/-! ### Existence and uniqueness -/

theorem runs_cons_of_cut {c : Char} (hc : cut c = true) (text : List Char) :
    runs cut (c :: text) = runs cut text := by
  rw [runs, pieces, if_pos hc]
  rfl

/-- A run at the front of a text is the first of its runs. -/
theorem runs_append {run : List Char} (hne : run ≠ []) (hrun : ∀ c ∈ run, cut c = false)
    (hnext : ∀ c ∈ text.head?, cut c = true) : runs cut (run ++ text) = run :: runs cut text := by
  have hkept : (!run.isEmpty) = true := by simp [hne]
  cases text with
  | nil =>
    rw [List.append_nil, runs, pieces_eq, List.splitOnP_eq_singleton hrun, List.filter_cons,
      if_pos hkept]
    rfl
  | cons c rest =>
    have hc := hnext c rfl
    rw [runs_cons_of_cut hc, runs, pieces_eq, List.splitOnP_append_cons_of_forall_mem hrun c hc,
      List.filter_cons, if_pos hkept, ← pieces_eq]
    rfl

/-- The runs of a text are those that are computed. -/
theorem IsRuns.runs_eq (h : IsRuns cut text words) : runs cut text = words := by
  induction h with
  | nil => rfl
  | skip hc _ ih => rw [runs_cons_of_cut hc, ih]
  | run hne hrun hnext _ ih => rw [runs_append hne hrun hnext, ih]

/-- Every text has runs. -/
theorem exists_isRuns (cut : Char → Bool) (text : List Char) : ∃ words, IsRuns cut text words := by
  induction text with
  | nil => exact ⟨[], .nil⟩
  | cons c rest ih =>
    obtain ⟨words, h⟩ := ih
    cases hc : cut c with
    | true => exact ⟨words, .skip hc h⟩
    | false =>
      have hsingle : ∀ d ∈ [c], cut d = false := List.forall_mem_singleton.2 hc
      cases h with
      | nil => exact ⟨[[c]], .run (List.cons_ne_nil _ _) hsingle (by simp) .nil⟩
      | skip hd h =>
        exact ⟨[c] :: words, .run (List.cons_ne_nil _ _) hsingle (by simpa using hd) (.skip hd h)⟩
      | @run run text words hne hrun hnext h =>
        -- the character stands before the first run and makes it longer
        exact ⟨(c :: run) :: words,
          .run (List.cons_ne_nil _ _) (List.forall_mem_cons.2 ⟨hc, hrun⟩) hnext h⟩

/-- And it has no others. -/
theorem isRuns_iff : IsRuns cut text words ↔ words = runs cut text := by
  refine ⟨fun h ↦ h.runs_eq.symm, ?_⟩
  rintro rfl
  obtain ⟨words, h⟩ := exists_isRuns cut text
  rwa [h.runs_eq]

theorem isRuns_runs (cut : Char → Bool) (text : List Char) : IsRuns cut text (runs cut text) :=
  isRuns_iff.2 rfl

namespace IsRuns

/-- A run is not empty and has no cut. -/
theorem isRun_of_mem (h : IsRuns cut text words) {word : List Char} (hword : word ∈ words) :
    word ≠ [] ∧ ∀ c ∈ word, cut c = false := by
  induction h with
  | nil => cases hword
  | skip _ _ ih => exact ih hword
  | run hne hrun _ _ ih =>
    rcases List.mem_cons.1 hword with rfl | hword
    · exact ⟨hne, hrun⟩
    · exact ih hword

/-! ### Changes of the text -/

/-- The words of a text change with its characters, as long as the cuts stay. -/
theorem map {after : Char → Bool} {f : Char → Char} (hf : ∀ c, after (f c) = cut c)
    (h : IsRuns cut text words) : IsRuns after (text.map f) (words.map (List.map f)) := by
  induction h with
  | nil => exact .nil
  | skip hc _ ih => exact .skip ((hf _).trans hc) ih
  | run hne hrun hnext _ ih =>
    rw [List.map_append, List.map_cons]
    refine .run (List.map_eq_nil_iff.not.2 hne) ?_ ?_ ih
    · simpa [hf] using hrun
    · simpa [hf] using hnext

/-- A change of nothing but the cuts leaves the words as they are. -/
theorem map_cuts {after : Char → Bool} {f : Char → Char} (hf : ∀ c, after (f c) = cut c)
    (hsame : ∀ c, cut c = false → f c = c) (h : IsRuns cut text words) :
    IsRuns after (text.map f) words := by
  have hword : ∀ word ∈ words, word.map f = id word := fun word hword ↦ by
    rw [List.map_congr_left fun c hc ↦ hsame c ((h.isRun_of_mem hword).2 c hc), List.map_id']
    rfl
  have hmap := h.map hf
  rwa [List.map_congr_left hword, List.map_id] at hmap

/-- Cuts before a text do not change its words. -/
theorem append_left {front : List Char} (hfront : ∀ c ∈ front, cut c = true)
    (h : IsRuns cut text words) : IsRuns cut (front ++ text) words := by
  induction front with
  | nil => exact h
  | cons c front ih =>
    obtain ⟨hc, hfront⟩ := List.forall_mem_cons.1 hfront
    exact .skip hc (ih hfront)

/-- Cuts behind a text do not change its words. -/
theorem append_right {back : List Char} (hback : ∀ c ∈ back, cut c = true)
    (h : IsRuns cut text words) : IsRuns cut (text ++ back) words := by
  induction h with
  | nil =>
    rw [List.nil_append, ← List.append_nil back]
    exact append_left hback .nil
  | skip hc _ ih => exact .skip hc ih
  | @run run text words hne hrun hnext _ ih =>
    rw [List.append_assoc]
    refine .run hne hrun (fun c hc ↦ ?_) ih
    cases text with
    | nil => exact hback c (List.mem_of_head? hc)
    | cons d rest => exact hnext c hc

end IsRuns

/-! ### Joined words -/

/-- Words that are joined with a separator are found again. -/
theorem isRuns_intercalate {c : Char} (hc : cut c = true)
    (h : ∀ word ∈ words, word ≠ [] ∧ ∀ d ∈ word, cut d = false) :
    IsRuns cut ([c].intercalate words) words := by
  induction words with
  | nil => exact .nil
  | cons word rest ih =>
    obtain ⟨⟨hne, hword⟩, hrest⟩ := List.forall_mem_cons.1 h
    cases rest with
    | nil =>
      rw [List.intercalate_singleton]
      simpa using IsRuns.run hne hword (by simp) .nil
    | cons next rest =>
      rw [List.intercalate_cons_cons, List.append_assoc]
      exact .run hne hword (by simpa using hc) (.skip hc (ih hrest))

/-- A part without the separator does not reach across it. -/
theorem isInfix_append_cons_iff {c : Char} {part front back : List Char} (hpart : c ∉ part) :
    part <:+: front ++ c :: back ↔ part <:+: front ∨ part <:+: back := by
  have hstart {start : List Char} (hstarts : start <+: c :: back) (hc : c ∉ start) :
      start = [] := by
    rcases List.prefix_cons_iff.1 hstarts with hnil | ⟨more, rfl, -⟩
    · exact hnil
    · exact absurd List.mem_cons_self hc
  constructor
  · intro h
    -- a part across the boundary would begin with the separator behind it
    rcases List.infix_append_iff.1 h with h | h | ⟨l₁, l₂, rfl, h₁, h₂⟩
    · exact .inl h
    · rcases List.infix_cons_iff.1 h with h | h
      · rw [hstart h hpart]
        exact .inl List.nil_infix
      · exact .inr h
    · rw [hstart h₂ fun hmem ↦ hpart (List.mem_append_right _ hmem), List.append_nil]
      exact .inl h₁.isInfix
  · rintro (h | h)
    · exact List.infix_append_of_infix_left h
    · exact List.infix_append_of_infix_right (List.infix_cons h)

/-- A part without the separator stands inside of a word or nowhere. -/
theorem isInfix_intercalate_iff {c : Char} {part : List Char} (hne : part ≠ []) (hpart : c ∉ part) :
    part <:+: [c].intercalate words ↔ ∃ word ∈ words, part <:+: word := by
  induction words with
  | nil => simp [List.intercalate_nil, hne]
  | cons word rest ih =>
    cases rest with
    | nil => simp [List.intercalate_singleton]
    | cons next rest =>
      rw [List.exists_mem_cons_iff (part <:+: ·) word, List.intercalate_cons_cons, List.append_assoc,
        List.singleton_append, isInfix_append_cons_iff hpart, ih]

end

end Splice.Text
