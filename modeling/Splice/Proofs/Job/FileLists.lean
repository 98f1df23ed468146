import Splice.Job.Arguments
import Splice.Proofs.Job.Options
import Splice.Proofs.Text.Words

/-!
# Reading a list of files

A list of files is read line by line: after the word `file` stands a name, in which quotes and
backslashes are read as they are among the options of a filter (`FileList.unquote?`). The writer
puts each path between quotes, and spells a quote of the path by closing them, escaping it, and
opening them again. So between the quotes every character is read for itself, and the list is read
as the paths in it (`Job.files?_fileList`), one line each, since no path has a line break.

What is written is the path from the root, which for a normal path is the path itself
(`Path.absolute?_of_isNormal`), but with slashes for backslashes. Inside of quotes a backslash means
nothing, and in a path it is a character as any other, so a path is read back exactly if there is no
backslash in it.
-/

namespace Splice

/-! ### Pieces of a text -/

/-- Lines that all have an end are cut at their ends. -/
theorem Text.pieces_flatMap {lines : List (List Char)} (h : ∀ line ∈ lines, '\n' ∉ line) :
    pieces (· == '\n') (lines.flatMap (· ++ ['\n'])) = lines ++ [[]] := by
  induction lines with
  | nil => rfl
  | cons line rest ih =>
    obtain ⟨hline, hrest⟩ := List.forall_mem_cons.1 h
    have hplain : ∀ c ∈ line, (c == '\n') = false := fun c hc ↦
      beq_eq_false_iff_ne.2 fun heq ↦ hline (heq ▸ hc)
    rw [List.flatMap_cons, List.append_assoc, List.singleton_append, pieces_eq,
      List.splitOnP_append_cons_of_forall_mem hplain '\n' rfl, ← pieces_eq, ih hrest]
    rfl

/-! ### Replaced characters -/

namespace Quoting

theorem replaceChar_cons (c : Char) (replacement : List Char) (d : Char) (text : List Char) :
    replaceChar c replacement (d :: text) =
      (if d = c then replacement else [d]) ++ replaceChar c replacement text := rfl

/-- A text without the character stays as it is. -/
theorem replaceChar_of_not_mem {c : Char} {replacement text : List Char} (h : c ∉ text) :
    replaceChar c replacement text = text := by
  induction text with
  | nil => rfl
  | cons d rest ih =>
    rw [replaceChar_cons, if_neg (List.ne_of_not_mem_cons h).symm,
      ih (List.not_mem_of_not_mem_cons h)]
    rfl

/-- A character that is not replaced and not put in stays what it is. -/
theorem mem_replaceChar_iff {c d : Char} {replacement : List Char} (hc : d ≠ c)
    (hreplacement : d ∉ replacement) (text : List Char) :
    d ∈ replaceChar c replacement text ↔ d ∈ text := by
  induction text with
  | nil => rfl
  | cons e rest ih =>
    rw [replaceChar_cons, List.mem_append, ih, List.mem_cons]
    refine or_congr_left ?_
    split_ifs with he
    · exact iff_of_false hreplacement (he ▸ hc)
    · exact List.mem_singleton

end Quoting

/-! ### Pieces of a path -/

namespace Path

/-- A path is split at its slashes. -/
theorem pieces_eq (text : List Char) : pieces text = text.splitOn '/' := by
  have hpieces : pieces text = Text.pieces (· == '/') text := by
    induction text with
    | nil => rfl
    | cons c rest ih =>
      rw [pieces, Text.pieces, ih]
      exact if_congr beq_iff_eq.symm rfl rfl
  rw [hpieces, Text.pieces_eq, List.splitOn_eq_splitOnP]

/-- No slash is left in the pieces between slashes. -/
theorem slash_not_mem_of_mem_pieces {text piece : List Char} (h : piece ∈ pieces text) :
    '/' ∉ piece := by
  induction text generalizing piece with
  | nil => simp_all [pieces]
  | cons c rest ih =>
    rw [pieces] at h
    split_ifs at h with hc
    · rcases List.mem_cons.1 h with rfl | h
      · exact List.not_mem_nil
      · exact ih h
    · obtain ⟨first, more, hpieces⟩ := List.exists_cons_of_ne_nil
        ((pieces_eq rest).trans_ne (List.splitOn_ne_nil '/' rest))
      rw [hpieces] at h ih
      rcases List.mem_cons.1 h with rfl | h
      · exact List.not_mem_cons_of_ne_of_not_mem (Ne.symm hc) (ih List.mem_cons_self)
      · exact ih (List.mem_cons_of_mem _ h)

/-! ### Normal paths -/

/-- A path from the root of which every piece names something. -/
def IsNormal (p : Path) : Prop :=
  p.isAbsolute = true ∧ ∀ piece ∈ pieces p.text.toList.tail, isIdle piece = false

instance (p : Path) : Decidable p.IsNormal := inferInstanceAs (Decidable (_ ∧ _))

/-- A name of a file or a directory. -/
def IsName (name : List Char) : Prop := name ≠ [] ∧ '/' ∉ name

/-- A path with a name at its end does not end in a slash. -/
theorem endsInSlash_append (front : List Char) {name : List Char} (h : IsName name) :
    (Path.mk (String.ofList (front ++ name))).endsInSlash = false := by
  rw [endsInSlash, String.toList_ofList, List.getLast?_append_of_ne_nil front h.1,
    beq_eq_false_iff_ne]
  exact fun hlast ↦ h.2 (List.mem_of_getLast? hlast)

/-- A name is put behind a path, after a slash if there is none yet. -/
theorem join_name (base : Path) {name : List Char} (h : IsName name) :
    base.join (String.ofList name) =
      if base.text.isEmpty || base.endsInSlash then ⟨base.text ++ String.ofList name⟩
      else ⟨base.text ++ "/" ++ String.ofList name⟩ := by
  have hrelative : (Path.mk (String.ofList name)).isAbsolute = false := by
    rw [isAbsolute, String.toList_ofList, beq_eq_false_iff_ne]
    exact fun hhead ↦ h.2 (List.mem_of_head? hhead)
  rw [join, hrelative, if_neg Bool.false_ne_true]

/-- With more names behind it, a path still ends in none. -/
theorem endsInSlash_names {front : List Char} {names : List (List Char)}
    (hslash : (Path.mk (String.ofList front)).endsInSlash = false)
    (h : ∀ name ∈ names, IsName name) :
    (Path.mk (String.ofList (front ++ names.flatMap ('/' :: ·)))).endsInSlash = false := by
  induction names generalizing front with
  | nil => rwa [List.flatMap_nil, List.append_nil]
  | cons name rest ih =>
    obtain ⟨hname, hrest⟩ := List.forall_mem_cons.1 h
    rw [List.flatMap_cons, ← List.append_assoc, List.append_cons]
    exact ih (endsInSlash_append _ hname) hrest

/-- Names are put behind a path that does not end in a slash, each after a slash. -/
theorem descend_names {front : List Char} {names : List (List Char)} (hfront : front ≠ [])
    (hslash : (Path.mk (String.ofList front)).endsInSlash = false)
    (h : ∀ name ∈ names, IsName name) :
    (Path.mk (String.ofList front)).descend (names.map String.ofList) =
      ⟨String.ofList (front ++ names.flatMap ('/' :: ·))⟩ := by
  induction names generalizing front with
  | nil => rw [List.flatMap_nil, List.append_nil]; rfl
  | cons name rest ih =>
    obtain ⟨hname, hrest⟩ := List.forall_mem_cons.1 h
    have hjoin : (Path.mk (String.ofList front)).join (String.ofList name) =
        ⟨String.ofList ((front ++ ['/']) ++ name)⟩ := by
      rw [join_name _ hname, hslash, Bool.or_false, if_neg (by simpa using hfront),
        String.ofList_append, String.ofList_append]
    show descend (join _ _) _ = _
    rw [hjoin, ih (by simp) (endsInSlash_append _ hname) hrest]
    simp

/-- Names are put behind the root, which brings the first slash along. -/
theorem descend_root {name : List Char} {rest : List (List Char)} (hname : IsName name)
    (hrest : ∀ name ∈ rest, IsName name) :
    (Path.mk "/").descend ((name :: rest).map String.ofList) =
      ⟨String.ofList ('/' :: (name ++ rest.flatMap ('/' :: ·)))⟩ := by
  have hjoin : (Path.mk "/").join (String.ofList name) = ⟨String.ofList (['/'] ++ name)⟩ := by
    rw [join_name _ hname, if_pos (by decide)]
    simp
  show descend (join _ _) _ = _
  rw [hjoin, descend_names (by simp) (endsInSlash_append _ hname) hrest]
  simp

/-- The pieces of a text, with slashes between them, are the text. -/
theorem eq_of_pieces {text name : List Char} {rest : List (List Char)}
    (h : pieces text = name :: rest) : text = name ++ rest.flatMap ('/' :: ·) := by
  have hjoin (rest : List (List Char)) (name : List Char) :
      ['/'].intercalate (name :: rest) = name ++ rest.flatMap ('/' :: ·) := by
    induction rest generalizing name with
    | nil => simp
    | cons next rest ih => rw [List.intercalate_cons_cons, ih]; simp
  rw [← hjoin, ← h, pieces_eq, List.intercalate_splitOn]

/-- A normal path is a slash and at least one name, each of which leads on. -/
theorem IsNormal.exists_pieces {p : Path} (h : p.IsNormal) : ∃ body name rest,
    p.text.toList = '/' :: body ∧ pieces body = name :: rest ∧
      ∀ piece ∈ name :: rest, IsName piece ∧ isIdle piece = false := by
  obtain ⟨hroot, hpieces⟩ := h
  obtain ⟨body, hbody⟩ : ∃ body, p.text.toList = '/' :: body :=
    List.head?_eq_some_iff.1 (by simpa [isAbsolute] using hroot)
  rw [hbody, List.tail_cons] at hpieces
  obtain ⟨name, rest, hnames⟩ := List.exists_cons_of_ne_nil
    ((pieces_eq body).trans_ne (List.splitOn_ne_nil '/' body))
  refine ⟨body, name, rest, hbody, hnames, fun piece hpiece ↦ ?_⟩
  rw [← hnames] at hpiece
  have hidle := hpieces piece hpiece
  refine ⟨⟨?_, slash_not_mem_of_mem_pieces hpiece⟩, hidle⟩
  rintro rfl
  exact absurd hidle (by decide)

/-- A normal path is what it names from every directory. -/
theorem absolute?_of_isNormal {p : Path} (h : p.IsNormal) (current : Path) :
    absolute? current p = some p := by
  obtain ⟨body, name, rest, htext, hpieces, hnames⟩ := h.exists_pieces
  obtain ⟨hname, hrest⟩ := List.forall_mem_cons.1 hnames
  have hbody := eq_of_pieces hpieces
  -- all pieces but the one before the root are components
  have hcomponents : p.components = (name :: rest).map String.ofList := by
    have hkept : (name :: rest).filter (fun piece ↦ !piece.isEmpty && piece != ['.']) =
        name :: rest :=
      List.filter_eq_self.2 fun piece hpiece ↦ by simpa [isIdle] using (hnames piece hpiece).2
    have hfirst : pieces p.text.toList = [] :: name :: rest := by
      rw [htext, ← hpieces]
      rfl
    rw [components, hfirst]
    exact congrArg _ hkept
  obtain ⟨c, cs, rfl⟩ := List.exists_cons_of_ne_nil hname.1.1
  have hc : c ≠ '/' := fun hc ↦ hname.1.2 (hc ▸ List.mem_cons_self)
  have hnamed : ∀ piece ∈ rest, IsName piece := fun piece hpiece ↦ (hrest piece hpiece).1
  have hp : p = ⟨String.ofList (('/' :: c :: cs) ++ rest.flatMap ('/' :: ·))⟩ := by
    rw [Path.mk.injEq, ← String.toList_inj, htext, hbody, String.toList_ofList]
    rfl
  have hslash : p.endsInSlash = false := by
    rw [hp]
    exact endsInSlash_names (endsInSlash_append ['/'] hname.1) hnamed
  have hempty : p.text.isEmpty = false := by simp [hp]
  have hroot : p.isAbsolute = true := by simp [hp, isAbsolute]
  have hdescend : (Path.mk "/").descend p.components = p := by
    rw [hcomponents, descend_root hname.1 hnamed, hp]
    rfl
  rw [absolute?, hempty, hroot, hslash, htext, hbody]
  simp [hc, hdescend]

/-- The path with slashes for backslashes. -/
def slashed (p : Path) : Path := ⟨String.ofList (Quoting.replaceChar '\\' ['/'] p.text.toList)⟩

theorem toList_text_slashed (p : Path) :
    p.slashed.text.toList = Quoting.replaceChar '\\' ['/'] p.text.toList := String.toList_ofList

/-- A path without a backslash, and no other one, stays as it is. -/
theorem slashed_eq_self_iff {p : Path} : p.slashed = p ↔ '\\' ∉ p.text.toList := by
  constructor
  · intro h hmem
    rw [← h, toList_text_slashed, Quoting.replaceChar, List.mem_flatMap] at hmem
    obtain ⟨c, -, hc⟩ := hmem
    -- a backslash is replaced, and stands for no other character
    split_ifs at hc with heq
    · exact absurd hc (by decide)
    · exact heq (List.mem_singleton.1 hc).symm
  · intro h
    rw [Path.mk.injEq, ← String.toList_inj, toList_text_slashed,
      Quoting.replaceChar_of_not_mem h]

/-- The slashes neither make nor hide a line break. -/
theorem newline_mem_slashed_iff {p : Path} :
    '\n' ∈ p.slashed.text.toList ↔ '\n' ∈ p.text.toList := by
  rw [toList_text_slashed, Quoting.mem_replaceChar_iff (by decide) (by decide)]

end Path

/-! ### The reader -/

namespace FileList

/-- The name that is spelled from a place on: quotes end and begin a span in which every other
character stands for itself, and a backslash outside of them takes the next character for itself. A
text that ends within a span or after a backslash spells none. -/
def unquote? : Options.Place → List Char → Option (List Char)
  | .plain, [] => some []
  | .plain, c :: rest =>
    if c = '\\' then unquote? .escaped rest
    else if c = '\'' then unquote? .quoted rest
    else (unquote? .plain rest).map (c :: ·)
  | .escaped, [] => none
  | .escaped, c :: rest => (unquote? .plain rest).map (c :: ·)
  | .quoted, [] => none
  | .quoted, c :: rest =>
    if c = '\'' then unquote? .plain rest else (unquote? .quoted rest).map (c :: ·)

/-- The file that a line names. -/
def file? : List Char → Option Path
  | 'f' :: 'i' :: 'l' :: 'e' :: ' ' :: name =>
    (unquote? .plain name).map fun text ↦ ⟨String.ofList text⟩
  | _ => none

theorem file?_append (name : List Char) :
    file? ("file ".toList ++ name) =
      (unquote? .plain name).map fun text ↦ ⟨String.ofList text⟩ := by
  rw [show "file ".toList = ['f', 'i', 'l', 'e', ' '] from rfl]
  simp only [List.cons_append, List.nil_append, file?]

/-- The files that a list names, one on each line that is not empty. -/
def files? (list : String) : Option (List Path) :=
  ((Text.pieces (· == '\n') list.toList).filter (!·.isEmpty)).mapM file?

/-- A text is read from the quotes around it, if its own quotes are spelled outside of them. -/
theorem unquote?_quoted (text : List Char) :
    unquote? .quoted (Quoting.replaceChar '\'' ['\'', '\\', '\'', '\''] text ++ ['\'']) =
      some text := by
  induction text with
  | nil => rfl
  | cons c rest ih =>
    rw [Quoting.replaceChar_cons, List.append_assoc]
    split_ifs with hc
    · -- the quotes are closed, the quote is read for itself, and they are opened again
      have hspelled (more : List Char) :
          unquote? .quoted (['\'', '\\', '\'', '\''] ++ more) =
            (unquote? .quoted more).map ('\'' :: ·) := rfl
      rw [hspelled, ih, hc]
      rfl
    · rw [List.singleton_append, unquote?, if_neg hc, ih]
      rfl

end FileList

/-! ### The list of a job -/

namespace Job

open FileList

/-- The line of a list for a path. -/
def listLine (p : Path) : List Char := ("file " ++ listedPath p).toList

theorem toList_listedPath (p : Path) : (listedPath p).toList =
    '\'' ::
      (Quoting.replaceChar '\'' ['\'', '\\', '\'', '\''] p.slashed.text.toList ++ ['\'']) := by
  rw [listedPath, Quoting.quote, String.toList_append, String.toList_append, String.toList_ofList,
    Path.toList_text_slashed, String.toList_ofList, List.append_assoc]
  rfl

/-- The line of a path is read as the path with slashes. -/
theorem file?_listLine (p : Path) : file? (listLine p) = some p.slashed := by
  rw [listLine, String.toList_append, toList_listedPath, file?_append, unquote?,
    if_neg (by decide), if_pos rfl, unquote?_quoted, Option.map_some, String.ofList_toList]

/-- A path without a line break takes one line. -/
theorem newline_not_mem_listLine {p : Path} (h : '\n' ∉ p.text.toList) : '\n' ∉ listLine p := by
  rw [listLine, String.toList_append, toList_listedPath, List.mem_append, List.mem_cons,
    List.mem_append, Quoting.mem_replaceChar_iff (by decide) (by decide),
    Path.newline_mem_slashed_iff]
  simp [h]

/-- A list is its lines, each with a line break at its end. -/
theorem toList_fileList {inputs : List Path} (current : Path) (h : ∀ p ∈ inputs, p.IsNormal) :
    (fileList current inputs).toList = (inputs.map listLine).flatMap (· ++ ['\n']) := by
  have hline : ∀ p ∈ inputs,
      "file " ++ listedPath ((Path.absolute? current p).getD p) ++ "\n" =
        "file " ++ listedPath p ++ "\n" := fun p hp ↦ by
    rw [Path.absolute?_of_isNormal (h p hp), Option.getD_some]
  rw [fileList, List.map_congr_left hline, String.toList_join, List.flatMap_map, List.flatMap_map]
  refine List.flatMap_congr fun p _ ↦ ?_
  rw [String.toList_append]
  rfl

/-- The list of normal paths without line breaks is read as these paths with slashes for
backslashes, in their order, and so as these paths exactly if no backslash is in them. -/
theorem files?_fileList {inputs : List Path} (current : Path)
    (h : ∀ p ∈ inputs, p.IsNormal ∧ '\n' ∉ p.text.toList) :
    files? (fileList current inputs) = some (inputs.map Path.slashed) ∧
      (files? (fileList current inputs) = some inputs ↔
        ∀ p ∈ inputs, '\\' ∉ p.text.toList) := by
  have hlines : (Text.pieces (· == '\n') (fileList current inputs).toList).filter (!·.isEmpty) =
      inputs.map listLine := by
    have hends : ∀ line ∈ inputs.map listLine, '\n' ∉ line :=
      List.forall_mem_map.2 fun p hp ↦ newline_not_mem_listLine (h p hp).2
    rw [toList_fileList current fun p hp ↦ (h p hp).1, Text.pieces_flatMap hends,
      List.filter_append, List.filter_eq_self.2 (List.forall_mem_map.2 fun p _ ↦ by
        rw [listLine, String.toList_append]; simp)]
    exact List.append_nil _
  have hread : files? (fileList current inputs) = some (inputs.map Path.slashed) := by
    rw [files?, hlines, List.mapM_map, funext (f := file? ∘ listLine) file?_listLine]
    exact List.mapM_pure
  refine ⟨hread, ?_⟩
  have hself : inputs.map Path.slashed = inputs ↔ ∀ p ∈ inputs, p.slashed = p := by
    rw [← List.map_inj_left, List.map_id']
  rw [hread, Option.some_inj, hself]
  exact forall₂_congr fun _ _ ↦ Path.slashed_eq_self_iff

/-- An apostrophe and a blank are read back. -/
theorem files?_fileList_apostrophe :
    (∀ p ∈ [Path.mk "/w/it's.mp4", ⟨"/w/a b.mp4"⟩], p.IsNormal ∧ '\n' ∉ p.text.toList) ∧
      files? (fileList ⟨"/"⟩ [⟨"/w/it's.mp4"⟩, ⟨"/w/a b.mp4"⟩]) =
        some [⟨"/w/it's.mp4"⟩, ⟨"/w/a b.mp4"⟩] :=
  ⟨by decide, (files?_fileList ⟨"/"⟩ (by decide)).2.2 (by decide)⟩

/-- A backslash is not: another file is read than the one that is listed. -/
theorem files?_fileList_backslash :
    (∀ p ∈ [Path.mk "/w/a\\b.mp4"], p.IsNormal ∧ '\n' ∉ p.text.toList) ∧
      files? (fileList ⟨"/"⟩ [⟨"/w/a\\b.mp4"⟩]) = some [⟨"/w/a/b.mp4"⟩] ∧
      files? (fileList ⟨"/"⟩ [⟨"/w/a\\b.mp4"⟩]) ≠ some [⟨"/w/a\\b.mp4"⟩] := by
  decide +kernel

end Job

end Splice
