import Splice.Plan.Transition
import Splice.Proofs.Text.Lowercase
import Splice.Proofs.Text.Words

/-!
# Names of transitions

A name is trimmed, put into lowercase, spread out, cut and joined again before it is compared. What
is compared then has the words of the name with one space between two of them (`key_eq`), and these
words are found in it again, so names are the same when their words are (`ofLowercase?_eq`). The
comparison with a part of a name looks into the joined text, but the part has no space in it and
stands inside of a word.

Trimming does not matter, since a blank is a separator and its own lowercase form. Neither does it
matter which lowercase form is taken: there is no sigma in what a name is compared with
(`ofName?_eq`).
-/

namespace Splice.TransitionStyle

open Text (IsLowercase IsRuns HasNoSigma isBlank joined lowercase trimChars)

/-- The characters between the words of a name. -/
def isSeparator (c : Char) : Bool := isBlank c || c == '_' || c == '-'

/-- The words of a name in lowercase. -/
def nameWords (lowered : List Char) : List (List Char) := Text.runs isSeparator lowered

variable {lowered : List Char}

/-! ### What is compared -/

/-- The test for a part of a text is the relation of the library. -/
theorem isInside_iff {part text : List Char} : isInside part text = true ↔ part <:+: text := by
  induction text with
  | nil => rw [isInside, List.isEmpty_iff, List.infix_nil]
  | cons c rest ih => rw [isInside, Bool.or_eq_true, List.isPrefixOf_iff_prefix, ih,
      List.infix_cons_iff]

theorem isRuns_nameWords (lowered : List Char) : IsRuns isSeparator lowered (nameWords lowered) :=
  Text.isRuns_runs _ _

/-- A word is not empty and has neither a blank nor another separator. -/
theorem isRun_of_mem_nameWords {word : List Char} (h : word ∈ nameWords lowered) :
    word ≠ [] ∧ ∀ c ∈ word, isSeparator c = false :=
  (isRuns_nameWords lowered).isRun_of_mem h

theorem isBlank_of_isSeparator {c : Char} (h : isSeparator c = false) : isBlank c = false := by
  simp only [isSeparator, Bool.or_eq_false_iff] at h
  exact h.1.1

/-- The separators are what is blank after they are replaced by spaces. -/
theorem isBlank_spaced (c : Char) :
    isBlank (if c = '_' ∨ c = '-' then ' ' else c) = isSeparator c := by
  split_ifs with h
  · rcases h with rfl | rfl <;> rfl
  · rw [not_or] at h
    rw [isSeparator, beq_eq_false_iff_ne.2 h.1, beq_eq_false_iff_ne.2 h.2, Bool.or_false,
      Bool.or_false]

/-- A name is compared by its words. -/
theorem key_eq (lowered : List Char) : key lowered = [' '].intercalate (nameWords lowered) := by
  have hspaced := (isRuns_nameWords lowered).map_cuts isBlank_spaced fun c hc ↦ if_neg fun hsep ↦ by
    rcases hsep with rfl | rfl <;> exact absurd hc (by decide)
  rw [key, Text.words_eq, hspaced.runs_eq]

/-- A name is compared as some words exactly if these are its words. -/
theorem key_eq_iff (lowered : List Char) (words : List (List Char))
    (h : ∀ word ∈ words, word ≠ [] ∧ ∀ c ∈ word, isBlank c = false) :
    key lowered = [' '].intercalate words ↔ nameWords lowered = words := by
  have hname : IsRuns isBlank (key lowered) (nameWords lowered) := by
    rw [key_eq]
    exact Text.isRuns_intercalate (by decide) fun word hword ↦
      (isRun_of_mem_nameWords hword).imp_right fun hrun c hc ↦ isBlank_of_isSeparator (hrun c hc)
  refine ⟨fun heq ↦ ?_, fun heq ↦ by rw [key_eq, heq]⟩
  rw [← hname.runs_eq, heq, (Text.isRuns_intercalate (by decide) h).runs_eq]

/-! ### Styles of words -/

/-- The names of the fade, by their words. -/
def fadeNames : List (List (List Char)) :=
  [["fade".toList], ["cross".toList, "fade".toList], ["crossfade".toList]]

/-- The words of the fade could be words of any name. -/
theorem isRun_of_mem_fadeNames {name : List (List Char)} (h : name ∈ fadeNames) :
    ∀ word ∈ name, word ≠ [] ∧ ∀ c ∈ word, isBlank c = false := by
  have hruns : ∀ name ∈ fadeNames, ∀ word ∈ name, word ≠ [] ∧ word.all (!isBlank ·) = true := by
    decide
  simpa only [List.all_eq_true, Bool.not_eq_true'] using hruns name h

/-- The style of a list of words. -/
def ofWords? (words : List (List Char)) : Option TransitionStyle :=
  if words ∈ fadeNames then some fade
  else if words.any (isInside "wipe".toList) then some wipeLeft
  else none

/-- The style of a lowercase name is that of its words. -/
theorem ofLowercase?_eq (lowered : List Char) :
    ofLowercase? lowered = ofWords? (nameWords lowered) := by
  have hfade : (key lowered = "fade".toList ∨ key lowered = "cross fade".toList ∨
      key lowered = "crossfade".toList) ↔ nameWords lowered ∈ fadeNames := by
    have hkey {name : List (List Char)} (h : name ∈ fadeNames) :
        nameWords lowered = name ↔ key lowered = [' '].intercalate name :=
      (key_eq_iff lowered name (isRun_of_mem_fadeNames h)).symm
    simp only [fadeNames, List.mem_cons, List.not_mem_nil, or_false] at hkey ⊢
    rw [hkey (.inl rfl), hkey (.inr (.inl rfl)), hkey (.inr (.inr rfl))]
    rfl
  have hwipe : isInside "wipe".toList (key lowered) =
      (nameWords lowered).any (isInside "wipe".toList) := by
    rw [Bool.eq_iff_iff, isInside_iff, key_eq, Text.isInfix_intercalate_iff (by decide) (by decide),
      List.any_eq_true]
    simp only [isInside_iff]
  rw [ofLowercase?, ofWords?, hwipe]
  simp only [hfade]

section

variable {words : List (List Char)}

/-- The fade has the names that are listed. -/
theorem ofWords?_eq_fade_iff : ofWords? words = some fade ↔ words ∈ fadeNames := by
  rw [ofWords?]
  split_ifs with hfade hwipe <;> simp [hfade]

/-- No name of the fade has a word with `wipe` in it. -/
theorem ofWords?_eq_wipeLeft_iff :
    ofWords? words = some wipeLeft ↔ ∃ word ∈ words, "wipe".toList <:+: word := by
  have hfades : ∀ words ∈ fadeNames, words.any (isInside "wipe".toList) = false := by decide
  have hany : (∃ word ∈ words, "wipe".toList <:+: word) ↔
      words.any (isInside "wipe".toList) = true := by
    simp only [List.any_eq_true, isInside_iff]
  rw [hany, ofWords?]
  split_ifs with hfade hwipe
  · rw [hfades words hfade]
    decide
  · exact iff_of_true rfl hwipe
  · exact iff_of_false (by decide) hwipe

/-- Words that are neither have no style. -/
theorem ofWords?_eq_none_iff : ofWords? words = none ↔
    words ∉ fadeNames ∧ ∀ word ∈ words, ¬ "wipe".toList <:+: word := by
  have hstyles (style? : Option TransitionStyle) :
      style? = none ↔ style? ≠ some fade ∧ style? ≠ some wipeLeft := by
    rcases style? with - | - | - <;> simp
  rw [hstyles, Ne, Ne, ofWords?_eq_fade_iff, ofWords?_eq_wipeLeft_iff]
  simp only [not_exists, not_and]

end

/-! ### Lowercase forms -/

/-- Joining the small sigmas changes the words one by one. -/
theorem nameWords_map_joined (lowered : List Char) :
    nameWords (lowered.map joined) = (nameWords lowered).map (List.map joined) := by
  refine ((isRuns_nameWords lowered).map fun c ↦ ?_).runs_eq
  rw [joined]
  split_ifs with h
  · rw [h]
    decide
  · rfl

/-- And it does not change the style, as there is no sigma in what is looked for. -/
theorem ofWords?_map_joined (words : List (List Char)) :
    ofWords? (words.map (List.map joined)) = ofWords? words := by
  have hfades : ∀ name ∈ fadeNames, ∀ word ∈ name, HasNoSigma word := by decide
  have hfade : words.map (List.map joined) ∈ fadeNames ↔ words ∈ fadeNames := by
    constructor
    · intro h
      have hwords := (Text.map_map_joined_eq_iff (hfades _ h)).1 rfl
      rwa [← hwords] at h
    · intro h
      rwa [(Text.map_map_joined_eq_iff (hfades words h)).2 rfl]
  have hwipe : (words.map (List.map joined)).any (isInside "wipe".toList) =
      words.any (isInside "wipe".toList) := by
    rw [List.any_map]
    congr 1
    funext word
    rw [Bool.eq_iff_iff, Function.comp, isInside_iff, isInside_iff,
      Text.isInfix_map_joined_iff (by decide)]
  rw [ofWords?, ofWords?, hwipe]
  simp only [hfade]

/-- The style is the same for all lowercase forms. -/
theorem ofLowercase?_eq_of_isLowercase {text form : List Char} (h : IsLowercase text form) :
    ofLowercase? form = ofLowercase? (lowercase text) := by
  rw [ofLowercase?_eq, ofLowercase?_eq, ← ofWords?_map_joined, ← nameWords_map_joined,
    h.map_joined, nameWords_map_joined, ofWords?_map_joined]

/-- Blanks at the ends do not change the words of a name. -/
theorem nameWords_trimChars (text : List Char) :
    nameWords (lowercase (trimChars text)) = nameWords (lowercase text) := by
  have hseparator {c : Char} (h : isBlank c = true) : isSeparator c = true := by
    rw [isSeparator, h]
    rfl
  obtain ⟨front, back, hfront, hback, htext⟩ := Text.exists_lowercase_trimChars text
  have hruns := ((isRuns_nameWords (lowercase (trimChars text))).append_left fun c hc ↦
    hseparator (hfront c hc)).append_right fun c hc ↦ hseparator (hback c hc)
  rw [htext] at hruns
  exact hruns.runs_eq.symm

/-- A name has the style of its words in any lowercase form. -/
theorem ofName?_eq {name : String} {form : List Char} (h : IsLowercase name.toList form) :
    ofName? name = ofWords? (nameWords form) := by
  rw [ofName?, ofLowercase?_eq, nameWords_trimChars, ← ofLowercase?_eq, ← ofLowercase?_eq,
    ofLowercase?_eq_of_isLowercase h]

/-! ### The contract -/

/-- How the style of a name follows from the words of a lowercase form of it. -/
structure FollowsWords (name : String) (form : List Char) : Prop where
  /-- The words are the maximal runs of characters between separators. -/
  words_iff : ∀ words, IsRuns isSeparator form words ↔ words = nameWords form
  /-- The fade has three names. -/
  fade_iff : ofName? name = some fade ↔ nameWords form ∈
    [["fade".toList], ["cross".toList, "fade".toList], ["crossfade".toList]]
  /-- The wipe is known by a part of a word. -/
  wipeLeft_iff : ofName? name = some wipeLeft ↔ ∃ word ∈ nameWords form, "wipe".toList <:+: word
  /-- No other name has a style. -/
  none_iff : ofName? name = none ↔ nameWords form ∉
      [["fade".toList], ["cross".toList, "fade".toList], ["crossfade".toList]] ∧
    ∀ word ∈ nameWords form, ¬ "wipe".toList <:+: word
  /-- A name with the same words has the same style. -/
  same : ∀ other otherForm, IsLowercase other.toList otherForm →
    nameWords otherForm = nameWords form → ofName? other = ofName? name
  /-- It does not matter in which form the trimmed name is compared. -/
  trimmed : ∀ trimmed, IsLowercase (trimChars name.toList) trimmed →
    ofLowercase? trimmed = ofName? name

/-- The style of a name is that of its words. -/
theorem followsWords {name : String} {form : List Char} (h : IsLowercase name.toList form) :
    FollowsWords name form where
  words_iff _ := Text.isRuns_iff
  fade_iff := by
    rw [ofName?_eq h]
    exact ofWords?_eq_fade_iff
  wipeLeft_iff := by rw [ofName?_eq h, ofWords?_eq_wipeLeft_iff]
  none_iff := by
    rw [ofName?_eq h]
    exact ofWords?_eq_none_iff
  same _ _ hother hwords := by rw [ofName?_eq hother, hwords, ofName?_eq h]
  trimmed _ htrimmed := by rw [ofLowercase?_eq_of_isLowercase htrimmed, ofName?]

/-- A name whose first word ends in a sigma. -/
theorem followsWords_finalSigma :
    IsLowercase "ΟΣ--Wipe".toList "ος--wipe".toList ∧
      nameWords "ος--wipe".toList = ["ος".toList, "wipe".toList] ∧
        FollowsWords "ΟΣ--Wipe" "ος--wipe".toList := by
  have hform : IsLowercase "ΟΣ--Wipe".toList "ος--wipe".toList :=
    .cons 'Ο' (.final (Text.isLowercase_lowercase "--Wipe".toList))
  exact ⟨hform, by decide, followsWords hform⟩

end Splice.TransitionStyle
