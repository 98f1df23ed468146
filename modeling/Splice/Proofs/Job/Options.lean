import Mathlib.Data.List.Basic
import Splice.Job.Quoting

/-!
# Reading the options of a filter

A filter reads its arguments character by character (`Reading.next`): outside of quotes a backslash
takes the next character for itself and a colon ends an option, and a quote opens a span in which
everything but a quote stands for itself. The writer puts quotes around the values of some options
(`written`). A value is safe if it has no quote where it stands between quotes, and no quote,
backslash or colon where it does not (`IsSafe`). A filter is read as it is meant exactly if all its
values are safe (`filter?_iff`).

That safe values are read as they are meant goes from option to option (`piecesFrom_of_isSafe`). The
other direction cannot, since a quote that closes a span early may be made up for by one that comes
later. It compares lengths instead: every quote of a text is missing from what is read of it
(`Reading.weight_run_le`), and quotes are all that the writer adds (`length_following`), so there is
no quote left for the values (`not_mem_spelled_of_read`). Without quotes each option stands on its
own, and the first character that means something shows (`forall_isPlain_of_read`).
-/

namespace Splice

namespace Options

/-! ### The reader -/

/-- How the next character of the arguments of a filter is read. -/
inductive Place where
  /-- For what it means. -/
  | plain
  /-- For itself, since a backslash stands before it. -/
  | escaped
  /-- For itself, unless it ends the quotes. -/
  | quoted
deriving DecidableEq

/-- The arguments of a filter as far as they are read. -/
structure Reading where
  /-- The pieces that have ended. -/
  ended : List (List Char)
  /-- The piece at hand. -/
  current : List Char
  place : Place

namespace Reading

/-- Reads one character. -/
def next (r : Reading) (c : Char) : Reading :=
  match r.place with
  | .plain =>
    if c = '\\' then { r with place := .escaped }
    else if c = '\'' then { r with place := .quoted }
    else if c = ':' then ⟨r.ended ++ [r.current], [], .plain⟩
    else { r with current := r.current ++ [c] }
  | .escaped => ⟨r.ended, r.current ++ [c], .plain⟩
  | .quoted =>
    if c = '\'' then { r with place := .plain } else { r with current := r.current ++ [c] }

/-- Reads a text. -/
def run (r : Reading) (text : List Char) : Reading := text.foldl next r

/-- The pieces, with the one at hand. -/
def pieces (r : Reading) : List (List Char) := r.ended ++ [r.current]

end Reading

/-- The pieces between the colons of a text, without the backslashes and quotes that keep other
characters from being read for what they mean. -/
def pieces (text : List Char) : List (List Char) := (Reading.run ⟨[], [], .plain⟩ text).pieces

/-- What stands before and after the first equals sign. -/
def assignment? (text : List Char) : Option (String × String) :=
  match text.dropWhile (· != '=') with
  | [] => none
  | _ :: value => some (String.ofList (text.takeWhile (· != '=')), String.ofList value)

/-- The name of a filter and its options, each with its name. -/
def filter? (text : String) : Option (String × List (String × String)) := do
  let (name, arguments) ← assignment? text.toList
  return (name, ← (pieces arguments.toList).mapM assignment?)

/-! ### What is read as it stands -/

/-- Whether a character means nothing outside of quotes. -/
def isPlain (c : Char) : Bool := c != '\\' && c != '\'' && c != ':'

/-- Text that is read from a plain place as the given characters of the piece at hand. -/
def Reads (text piece : List Char) : Prop :=
  ∀ ended current,
    Reading.run ⟨ended, current, .plain⟩ text = ⟨ended, current ++ piece, .plain⟩

section Reads

variable {text more piece other : List Char}

theorem Reading.run_append (r : Reading) (text more : List Char) :
    r.run (text ++ more) = (r.run text).run more := List.foldl_append

/-- Text that is read as it stands may be followed by more of it. -/
theorem Reads.append (h : Reads text piece) (hmore : Reads more other) :
    Reads (text ++ more) (piece ++ other) := by
  intro ended current
  rw [Reading.run_append, h, hmore, List.append_assoc]

theorem isPlain_iff {c : Char} : isPlain c = true ↔ c ≠ '\\' ∧ c ≠ '\'' ∧ c ≠ ':' := by
  simp [isPlain, and_assoc]

/-- Plain characters are read as they stand. -/
theorem Reads.plain (h : ∀ c ∈ text, isPlain c = true) : Reads text text := by
  induction text with
  | nil =>
    intro ended current
    rw [List.append_nil]
    rfl
  | cons c cs ih =>
    intro ended current
    obtain ⟨hbackslash, hquote, hcolon⟩ := isPlain_iff.1 (h c List.mem_cons_self)
    have hnext : Reading.next ⟨ended, current, .plain⟩ c = ⟨ended, current ++ [c], .plain⟩ := by
      rw [Reading.next, if_neg hbackslash, if_neg hquote, if_neg hcolon]
    show (Reading.next ⟨ended, current, .plain⟩ c).run cs = _
    rw [hnext, ih fun d hd ↦ h d (List.mem_cons_of_mem c hd), List.append_assoc]
    rfl

/-- Inside of quotes everything but a quote stands for itself. -/
theorem Reading.run_quoted (h : '\'' ∉ text) (ended : List (List Char)) (current : List Char) :
    Reading.run ⟨ended, current, .quoted⟩ text = ⟨ended, current ++ text, .quoted⟩ := by
  induction text generalizing current with
  | nil =>
    rw [List.append_nil]
    rfl
  | cons c cs ih =>
    obtain ⟨hc, hcs⟩ := not_or.1 (List.mem_cons.not.1 h)
    have hnext : Reading.next ⟨ended, current, .quoted⟩ c = ⟨ended, current ++ [c], .quoted⟩ :=
      if_neg (Ne.symm hc)
    show (Reading.next ⟨ended, current, .quoted⟩ c).run cs = _
    rw [hnext, ih hcs, List.append_assoc]
    rfl

/-- So is everything but a quote, with quotes around it. -/
theorem Reads.quoted (h : '\'' ∉ text) : Reads ('\'' :: text ++ ['\'']) text := by
  intro ended current
  show (Reading.run ⟨ended, current, .quoted⟩ (text ++ ['\''])) = _
  rw [Reading.run_append, Reading.run_quoted h]
  rfl

end Reads

/-! ### Pieces from the middle of a text -/

namespace Reading

/-- A reading that had other pieces before. -/
def after (front : List (List Char)) (r : Reading) : Reading := { r with ended := front ++ r.ended }

/-- One character is read alike, whatever pieces were before. -/
theorem next_after (front : List (List Char)) (r : Reading) (c : Char) :
    (r.after front).next c = (r.next c).after front := by
  obtain ⟨ended, current, place⟩ := r
  cases place with
  | plain =>
    simp only [next, after]
    split_ifs <;> simp only [List.append_assoc]
  | escaped => rfl
  | quoted =>
    simp only [next, after]
    split_ifs <;> rfl

/-- What was read before has no influence on how a text goes on. -/
theorem pieces_run_after (front : List (List Char)) (r : Reading) (text : List Char) :
    ((r.after front).run text).pieces = front ++ (r.run text).pieces := by
  induction text generalizing r with
  | nil => exact List.append_assoc front r.ended [r.current]
  | cons c cs ih =>
    show (((r.after front).next c).run cs).pieces = _
    rw [next_after, ih]
    rfl

end Reading

/-- The pieces of a text, of which the first one has already begun. -/
def piecesFrom (current text : List Char) : List (List Char) :=
  (Reading.run ⟨[], current, .plain⟩ text).pieces

section PiecesFrom

variable (current : List Char) {text piece : List Char}

/-- A colon ends the piece that has begun. -/
theorem piecesFrom_colon (text : List Char) :
    piecesFrom current (':' :: text) = current :: pieces text :=
  Reading.pieces_run_after [current] ⟨[], [], .plain⟩ text

/-- What is read as it stands belongs to the piece that has begun. -/
theorem piecesFrom_append (h : Reads text piece) (more : List Char) :
    piecesFrom current (text ++ more) = piecesFrom (current ++ piece) more := by
  rw [piecesFrom, Reading.run_append, h]
  rfl

end PiecesFrom

/-! ### What a character can add -/

/-- The length of some pieces, each with a colon. -/
def total : List (List Char) → ℕ
  | [] => 0
  | piece :: rest => piece.length + 1 + total rest

theorem total_cons (piece : List Char) (rest : List (List Char)) :
    total (piece :: rest) = piece.length + 1 + total rest := rfl

theorem total_concat (pieces : List (List Char)) (piece : List Char) :
    total (pieces ++ [piece]) = total pieces + piece.length + 1 := by
  induction pieces with
  | nil => exact Nat.add_comm _ _
  | cons first rest ih =>
    rw [List.cons_append, total_cons, total_cons, ih]
    omega

/-- The number of characters that are bound to follow. -/
def Place.pending : Place → ℕ
  | escaped => 1
  | _ => 0

namespace Reading

/-- The characters of the pieces, and those that are bound to follow. -/
def weight (r : Reading) : ℕ := total r.ended + r.current.length + r.place.pending

/-- A character adds no more than itself. -/
theorem weight_next_le (r : Reading) (c : Char) : (r.next c).weight ≤ r.weight + 1 := by
  obtain ⟨ended, current, place⟩ := r
  cases place with
  | plain =>
    simp only [next]
    split_ifs <;> simp only [weight, total_concat, List.length_append, List.length_nil,
      List.length_singleton, Place.pending] <;> omega
  | escaped =>
    simp only [next, weight, List.length_append, List.length_singleton, Place.pending]
    omega
  | quoted =>
    simp only [next]
    split_ifs <;> simp only [weight, List.length_append, List.length_singleton, Place.pending] <;>
      omega

/-- A quote adds nothing: it is left out, or it takes the place of the backslash before it. -/
theorem weight_next_quote (r : Reading) : (r.next '\'').weight = r.weight := by
  obtain ⟨ended, current, place⟩ := r
  cases place with
  | plain => rfl
  | escaped =>
    simp only [next, weight, List.length_append, List.length_singleton, Place.pending]
    omega
  | quoted => rfl

/-- Every quote of a text is missing from what is read. -/
theorem weight_run_le (r : Reading) (text : List Char) :
    (r.run text).weight + text.count '\'' ≤ r.weight + text.length := by
  induction text generalizing r with
  | nil => exact Nat.le_refl _
  | cons c cs ih =>
    have hrest : ((r.next c).run cs).weight + cs.count '\'' ≤ (r.next c).weight + cs.length := ih _
    show ((r.next c).run cs).weight + (c :: cs).count '\'' ≤ r.weight + (cs.length + 1)
    by_cases hc : c = '\''
    · subst hc
      rw [weight_next_quote] at hrest
      rw [List.count_cons_self]
      omega
    · have hnext := r.weight_next_le c
      rw [List.count_cons_of_ne hc]
      omega

/-- In the end the piece at hand is one more piece, with a colon of its own. -/
theorem total_pieces (r : Reading) : total r.pieces + r.place.pending = r.weight + 1 := by
  rw [pieces, total_concat, weight]
  omega

/-- A backslash is missing from what is read, unless it takes the place of a quote. -/
theorem total_run_escaped {text : List Char} (h : '\'' ∉ text.head?) (current : List Char) :
    total (Reading.run ⟨[], current, .escaped⟩ text).pieces + text.count '\'' ≤
      current.length + 1 + text.length := by
  cases text with
  | nil => exact Nat.le_of_eq (total_cons current [])
  | cons c cs =>
    have hc : c ≠ '\'' := fun hc ↦ h (hc ▸ rfl)
    have hrest := weight_run_le ⟨[], current ++ [c], .plain⟩ cs
    have htotal := (Reading.run ⟨[], current ++ [c], .plain⟩ cs).total_pieces
    have hweight : weight ⟨[], current ++ [c], .plain⟩ = current.length + 1 := by
      rw [weight, List.length_append]
      exact Nat.zero_add _
    show total (Reading.run ⟨[], current ++ [c], .plain⟩ cs).pieces + _ ≤ _
    rw [List.count_cons_of_ne hc, List.length_cons]
    omega

end Reading

/-! ### Options -/

open Quoting (quote)

/-- Text that means nothing outside of quotes. -/
def IsPlainText (text : String) : Prop := ∀ c ∈ text.toList, isPlain c = true

/-- The options whose values stand between quotes. -/
def quotedNames : List String := ["text", "x", "y", "alpha", "enable"]

/-- An option as it is written. -/
def written (option : String × String) : String × String :=
  (option.1, if option.1 ∈ quotedNames then quote option.2 else option.2)

/-- The characters of an option. -/
def spelled (option : String × String) : List Char := option.1.toList ++ '=' :: option.2.toList

/-- Whether nothing in the value of an option is read for what it means, where it stands. -/
def IsSafe (option : String × String) : Prop :=
  if option.1 ∈ quotedNames then '\'' ∉ option.2.toList else IsPlainText option.2

/-- The arguments that are left when options follow other ones. -/
def following (options : List (String × String)) : List Char :=
  options.flatMap fun option ↦ ':' :: spelled (written option)

section Following

variable {option : String × String} {options : List (String × String)}

theorem following_cons (option : String × String) (options : List (String × String)) :
    following (option :: options) = ':' :: (spelled (written option) ++ following options) :=
  List.flatMap_cons

theorem quote_not_mem_head?_following (options : List (String × String)) :
    '\'' ∉ (following options).head? := by
  cases options with
  | nil => exact Option.not_mem_none _
  | cons option options =>
    rw [following_cons]
    exact fun h ↦ absurd (Option.some.inj h) (by decide)

theorem isSafe_iff_of_quoted {name value : String} (h : name ∈ quotedNames) :
    IsSafe (name, value) ↔ '\'' ∉ value.toList := by
  rw [IsSafe, if_pos h]

theorem isSafe_iff_of_bare {name value : String} (h : name ∉ quotedNames) :
    IsSafe (name, value) ↔ IsPlainText value := by
  rw [IsSafe, if_neg h]

/-- Plain text is safe in every option. -/
theorem isSafe_of_isPlainText {name value : String} (h : IsPlainText value) :
    IsSafe (name, value) := by
  rw [IsSafe]
  split_ifs
  · exact fun hmem ↦ absurd (h _ hmem) (by decide)
  · exact h

/-- A safe option is read as it is meant. -/
theorem reads_written (hname : IsPlainText option.1) (h : IsSafe option) :
    Reads (spelled (written option)) (spelled option) := by
  have hhead : Reads (option.1.toList ++ ['=']) (option.1.toList ++ ['=']) :=
    .plain (List.forall_mem_append.2 ⟨hname, List.forall_mem_singleton.2 rfl⟩)
  have hvalue : Reads (written option).2.toList option.2.toList := by
    rw [IsSafe] at h
    rw [written]
    split_ifs at h ⊢ with hquoted
    · rw [quote, String.toList_append, String.toList_append]
      exact .quoted h
    · exact .plain h
  rw [spelled, spelled, List.append_cons, List.append_cons option.1.toList]
  exact hhead.append hvalue

/-- Quotes around a value are all that is added. -/
theorem length_spelled_written (option : String × String) :
    (spelled (written option)).length + (spelled option).count '\'' =
      (spelled option).length + (spelled (written option)).count '\'' := by
  have hquote (text : String) : (quote text).toList.length = text.toList.length + 2 ∧
      (quote text).toList.count '\'' = text.toList.count '\'' + 2 := by
    simp [quote]
  have hvalue : (written option).2.toList.length + option.2.toList.count '\'' =
      option.2.toList.length + (written option).2.toList.count '\'' := by
    dsimp only [written]
    split_ifs with hquoted
    · obtain ⟨hlength, hcount⟩ := hquote option.2
      omega
    · rfl
  have hname : (written option).1 = option.1 := rfl
  simp only [spelled, hname, List.length_append, List.count_append, List.length_cons,
    List.count_cons_of_ne (show '=' ≠ '\'' by decide)]
  omega

/-- The arguments are longer than the options that are meant by nothing but quotes. -/
theorem length_following (options : List (String × String)) :
    (following options).length + (options.flatMap spelled).count '\'' =
      total (options.map spelled) + (following options).count '\'' := by
  induction options with
  | nil => rfl
  | cons option options ih =>
    have hoption := length_spelled_written option
    have hcolon : (':' :: (spelled (written option) ++ following options)).count '\'' =
        (spelled (written option)).count '\'' + (following options).count '\'' := by
      rw [List.count_cons_of_ne (by decide), List.count_append]
    rw [following_cons, hcolon, List.flatMap_cons, List.count_append, List.length_cons,
      List.length_append, List.map_cons, total_cons]
    omega

/-- Options that are read as they are meant have no quotes in them. -/
theorem not_mem_spelled_of_read {current : List Char}
    (h : piecesFrom current (following options) = current :: options.map spelled) :
    '\'' ∉ options.flatMap spelled := by
  have hread := Reading.weight_run_le ⟨[], current, .plain⟩ (following options)
  have htotal := (Reading.run ⟨[], current, .plain⟩ (following options)).total_pieces
  have hlength := length_following options
  have hmeant : total (piecesFrom current (following options)) =
      current.length + 1 + total (options.map spelled) := by
    rw [h, total_cons]
  have hweight : Reading.weight ⟨[], current, .plain⟩ = current.length := Nat.zero_add _
  -- the quotes that are missing from what is read are as many as the writer added
  rw [piecesFrom] at hmeant
  rw [← List.count_eq_zero]
  omega

/-- The first character that means something. -/
theorem exists_not_isPlain {text : List Char} (h : ¬ ∀ c ∈ text, isPlain c = true) :
    ∃ front c rest, text = front ++ c :: rest ∧ (∀ d ∈ front, isPlain d = true) ∧
      isPlain c = false := by
  have hsome : (text.find? fun c ↦ !isPlain c).isSome = true :=
    List.find?_isSome.2 (by simpa using h)
  obtain ⟨c, hc⟩ := Option.isSome_iff_exists.1 hsome
  obtain ⟨hplain, front, rest, htext, hfront⟩ := List.find?_eq_some_iff_append.1 hc
  exact ⟨front, c, rest, htext, by simpa using hfront, by simpa using hplain⟩

/-- A colon ends the piece at hand early. -/
theorem piecesFrom_colon_ne (front rest more : List Char) (others : List (List Char)) :
    piecesFrom front (':' :: more) ≠ (front ++ ':' :: rest) :: others := by
  rw [piecesFrom_colon]
  intro h
  have hlength := congrArg List.length (List.cons.inj h).1
  rw [List.length_append, List.length_cons] at hlength
  omega

/-- A backslash is missing from what is read, and without quotes in the values nothing makes up for
it. -/
theorem piecesFrom_backslash_ne (front : List Char) {rest : List Char} (hrest : '\'' ∉ rest)
    (hlater : '\'' ∉ options.flatMap spelled) :
    piecesFrom front ('\\' :: (rest ++ following options)) ≠
      (front ++ '\\' :: rest) :: options.map spelled := by
  intro h
  have hhead : '\'' ∉ (rest ++ following options).head? := by
    cases rest with
    | nil => exact quote_not_mem_head?_following options
    | cons d rest => exact fun hd ↦ hrest (Option.some.inj hd ▸ List.mem_cons_self)
  have hmeant : total (Reading.run ⟨[], front, .escaped⟩ (rest ++ following options)).pieces =
      (front ++ '\\' :: rest).length + 1 + total (options.map spelled) := by
    rw [← total_cons, ← h]
    rfl
  have htotal := Reading.total_run_escaped hhead front
  have hlength := length_following options
  rw [List.count_eq_zero.2 hlater] at hlength
  simp only [List.count_append, List.length_append, List.length_cons] at hmeant htotal
  omega

/-- Without quotes nothing is read for what it means if the text is read as it stands. -/
theorem forall_isPlain_of_read {text : List Char} (hquote : '\'' ∉ text)
    (hlater : '\'' ∉ options.flatMap spelled)
    (h : pieces (text ++ following options) = text :: options.map spelled) :
    ∀ c ∈ text, isPlain c = true := by
  by_contra hplain
  obtain ⟨front, c, rest, rfl, hfront, hc⟩ := exists_not_isPlain hplain
  have hread : piecesFrom front (c :: (rest ++ following options)) =
      (front ++ c :: rest) :: options.map spelled := by
    rw [← h, List.append_assoc]
    exact (piecesFrom_append [] (.plain hfront) _).symm
  obtain ⟨-, hquote, hrest⟩ : '\'' ∉ front ∧ '\'' ≠ c ∧ '\'' ∉ rest := by
    simpa only [List.mem_append, List.mem_cons, not_or] using hquote
  by_cases hcolon : c = ':'
  · exact piecesFrom_colon_ne front rest _ _ (hcolon ▸ hread)
  · by_cases hbackslash : c = '\\'
    · exact piecesFrom_backslash_ne front hrest hlater (hbackslash ▸ hread)
    · exact absurd (isPlain_iff.2 ⟨hbackslash, hquote.symm, hcolon⟩) (by rw [hc]; decide)

/-- An option that is read as it is meant, and so are those that follow it, is safe. -/
theorem isSafe_of_read (hquote : '\'' ∉ (option :: options).flatMap spelled)
    (h : pieces (spelled (written option) ++ following options) =
      spelled option :: options.map spelled) : IsSafe option := by
  rw [List.flatMap_cons, List.mem_append, not_or] at hquote
  rw [IsSafe]
  split_ifs with hquoted
  · exact fun hmem ↦ hquote.1 (List.mem_append_right _ (List.mem_cons_of_mem _ hmem))
  · have hwritten : written option = option := by rw [written, if_neg hquoted]
    rw [hwritten] at h
    have hplain := forall_isPlain_of_read hquote.1 hquote.2 h
    exact fun c hc ↦ hplain c (List.mem_append_right _ (List.mem_cons_of_mem _ hc))

/-- Options that are read as they are meant are safe, one after another. -/
theorem isSafe_of_piecesFrom (hnames : ∀ option ∈ options, IsPlainText option.1)
    (hquote : '\'' ∉ options.flatMap spelled) {current : List Char}
    (h : piecesFrom current (following options) = current :: options.map spelled) :
    ∀ option ∈ options, IsSafe option := by
  -- the option that is read first is safe, so it is read as a piece, and what is left starts anew
  induction options generalizing current with
  | nil => exact fun _ h ↦ absurd h List.not_mem_nil
  | cons option options ih =>
    obtain ⟨hname, hnames⟩ := List.forall_mem_cons.1 hnames
    rw [following_cons, piecesFrom_colon] at h
    have hread := (List.cons.inj h).2
    have hsafe : IsSafe option := isSafe_of_read hquote hread
    have hrest : piecesFrom (spelled option) (following options) =
        spelled option :: options.map spelled := by
      rw [← List.map_cons, ← hread]
      exact (piecesFrom_append [] (reads_written hname hsafe) _).symm
    have hlater : '\'' ∉ options.flatMap spelled := fun hmem ↦
      hquote (List.mem_append_right _ hmem)
    exact List.forall_mem_cons.2 ⟨hsafe, ih hnames hlater hrest⟩

/-- Safe options are read as they are meant, one after another. -/
theorem piecesFrom_of_isSafe (hnames : ∀ option ∈ options, IsPlainText option.1)
    (h : ∀ option ∈ options, IsSafe option) (current : List Char) :
    piecesFrom current (following options) = current :: options.map spelled := by
  induction options generalizing current with
  | nil => rfl
  | cons option options ih =>
    obtain ⟨hname, hnames⟩ := List.forall_mem_cons.1 hnames
    obtain ⟨hsafe, hoptions⟩ := List.forall_mem_cons.1 h
    have hread : pieces (spelled (written option) ++ following options) =
        piecesFrom (spelled option) (following options) :=
      piecesFrom_append [] (reads_written hname hsafe) _
    rw [following_cons, piecesFrom_colon, hread, ih hnames hoptions]
    rfl

/-- Both together, for options that follow what was read before. -/
theorem piecesFrom_following_iff (hnames : ∀ option ∈ options, IsPlainText option.1)
    (current : List Char) :
    piecesFrom current (following options) = current :: options.map spelled ↔
      ∀ option ∈ options, IsSafe option :=
  ⟨fun h ↦ isSafe_of_piecesFrom hnames (not_mem_spelled_of_read h) h,
    fun h ↦ piecesFrom_of_isSafe hnames h current⟩

end Following

/-! ### Names and values -/

section Filters

variable {name : String} {option : String × String} {options : List (String × String)}

/-- An option is read back, if there is no equals sign in its name. -/
theorem assignment?_spelled (h : '=' ∉ option.1.toList) :
    assignment? (spelled option) = some option := by
  have hname : ∀ c ∈ option.1.toList, (c != '=') = true := fun c hc ↦
    bne_iff_ne.2 fun heq ↦ h (heq ▸ hc)
  have hdrop : (spelled option).dropWhile (· != '=') = '=' :: option.2.toList := by
    rw [spelled, List.dropWhile_append_of_pos hname]
    exact List.dropWhile_cons_of_neg (by decide)
  have htake : (spelled option).takeWhile (· != '=') = option.1.toList := by
    rw [spelled, List.takeWhile_append_of_pos hname, List.takeWhile_cons_of_neg (by decide),
      List.append_nil]
  rw [assignment?, hdrop, htake]
  simp only [String.ofList_toList]

/-- What is read as an option is spelled as it. -/
theorem eq_spelled_of_assignment? {text : List Char} (h : assignment? text = some option) :
    text = spelled option := by
  rw [assignment?] at h
  split at h
  case h_1 => cases h
  case h_2 c value hdrop =>
    obtain rfl := Option.some.inj h
    obtain rfl : c = '=' := by
      have hne : text.dropWhile (· != '=') ≠ [] := by simp [hdrop]
      have hhead := List.head_dropWhile_not (· != '=') hne
      simpa [hdrop] using hhead
    rw [spelled, String.toList_ofList, String.toList_ofList, ← hdrop]
    exact List.takeWhile_append_dropWhile.symm

/-- Pieces are read as options exactly if they are spelled as them. -/
theorem mapM_assignment?_iff (hnames : ∀ option ∈ options, '=' ∉ option.1.toList)
    {texts : List (List Char)} :
    texts.mapM assignment? = some options ↔ texts = options.map spelled := by
  constructor
  · intro h
    induction texts generalizing options with
    | nil =>
      obtain rfl := Option.some.inj h
      rfl
    | cons text texts ih =>
      rw [List.mapM_cons] at h
      obtain ⟨option, hoption, h⟩ := Option.bind_eq_some_iff.1 h
      obtain ⟨rest, hrest, h⟩ := Option.bind_eq_some_iff.1 h
      obtain rfl := Option.some.inj h
      rw [eq_spelled_of_assignment? hoption, ih (List.forall_mem_cons.1 hnames).2 hrest]
      rfl
  · rintro rfl
    induction options with
    | nil => rfl
    | cons option options ih =>
      obtain ⟨hname, hnames⟩ := List.forall_mem_cons.1 hnames
      rw [List.map_cons, List.mapM_cons, assignment?_spelled hname, ih hnames]
      rfl

/-- The text of a filter with options. -/
def filterText (name : String) (options : List (String × String)) : String :=
  name ++ "=" ++ ":".intercalate (options.map fun option ↦ option.1 ++ "=" ++ option.2)

/-- The arguments of a filter are those of options that follow nothing. -/
theorem toList_arguments (option : String × String) (options : List (String × String)) :
    ':' :: (":".intercalate (((option :: options).map written).map fun option ↦
      option.1 ++ "=" ++ option.2)).toList = following (option :: options) := by
  induction options generalizing option with
  | nil => simp [following, spelled]
  | cons next options ih =>
    rw [following_cons, ← ih next]
    simp [spelled]

/-- A filter is read as it is meant exactly if all its options are safe. -/
theorem filter?_iff (hname : '=' ∉ name.toList)
    (hnames : ∀ option ∈ options, IsPlainText option.1 ∧ '=' ∉ option.1.toList)
    (hne : options ≠ []) :
    filter? (filterText name (options.map written)) = some (name, options) ↔
      ∀ option ∈ options, IsSafe option := by
  obtain ⟨first, rest, rfl⟩ := List.exists_cons_of_ne_nil hne
  rw [← piecesFrom_following_iff (fun option h ↦ (hnames option h).1) [],
    ← toList_arguments, piecesFrom_colon, List.cons_inj_right,
    ← mapM_assignment?_iff fun option h ↦ (hnames option h).2]
  have hfilter : (filterText name ((first :: rest).map written)).toList =
      spelled (name, ":".intercalate (((first :: rest).map written).map fun option ↦
        option.1 ++ "=" ++ option.2)) := by
    simp [filterText, spelled]
  rw [filter?, hfilter, assignment?_spelled hname, Option.bind_eq_bind, Option.bind_some]
  show Option.bind _ _ = _ ↔ _
  rw [Option.bind_eq_some_iff]
  constructor
  · rintro ⟨options, hoptions, h⟩
    obtain rfl := (Prod.mk.inj (Option.some.inj h)).2
    exact hoptions
  · exact fun h ↦ ⟨_, h, rfl⟩

end Filters

end Options

end Splice
