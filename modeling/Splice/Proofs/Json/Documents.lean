import Splice.Proofs.Json.Literals
import Splice.Proofs.Json.Strings

/-!
# Documents are read back

A document that is written with indentation is read back as it was (`parse?_pretty`). Its text is
cut into the tokens that the document consists of (`Scan.tokens?_indented`), and these build the
document again, inside of any containers that are still open (`Reading.run?_tokens`). Both follow
the document: one case for each kind of value, and lists of items and of members beside them.
-/

namespace Splice.Json

/-! ### Well-formed documents -/

mutual

/-- A document in which every number can be written. -/
def WellFormed : Json → Prop
  | number literal => literal.WellFormed
  | array items => AllWellFormed items
  | object members => MembersWellFormed members
  | _ => True

/-- Items in which every number can be written. -/
def AllWellFormed : List Json → Prop
  | [] => True
  | item :: rest => item.WellFormed ∧ AllWellFormed rest

/-- Members in which every number can be written. -/
def MembersWellFormed : List (String × Json) → Prop
  | [] => True
  | (_, value) :: rest => value.WellFormed ∧ MembersWellFormed rest

end

/-! ### Tokens of a document -/

mutual

/-- The tokens of a document. -/
def tokens : Json → List Token
  | null => [.null]
  | bool value => [.bool value]
  | number literal => [.number literal]
  | string value => [.string (some value)]
  | array items => .openArray :: (tokensOfItems items ++ [.closeArray])
  | object members => .openObject :: (tokensOfMembers members ++ [.closeObject])
  | unreadable => [.string none]

/-- The tokens of items with commas between them. -/
def tokensOfItems : List Json → List Token
  | [] => []
  | [item] => item.tokens
  | item :: rest => item.tokens ++ .comma :: tokensOfItems rest

/-- The tokens of members with commas between them. -/
def tokensOfMembers : List (String × Json) → List Token
  | [] => []
  | [(name, value)] => .string (some name) :: .colon :: value.tokens
  | (name, value) :: rest =>
    .string (some name) :: .colon :: (value.tokens ++ .comma :: tokensOfMembers rest)

end

/-! ### Scanning -/

namespace Scan

variable {a b text rest : List Char} {token : Token} {ts us : List Token}

theorem tokens?_eq (text : List Char) : tokens? text =
    match next? (text.dropWhile isSpace) with
    | none => if text.all isSpace then some [] else none
    | some (token, rest) => (tokens? rest).map (token :: ·) := by
  rw [tokens?]
  split <;> simp_all

/-- No token begins with a space. -/
theorem dropWhile_isSpace_of_next? (h : next? text = some (token, rest)) :
    text.dropWhile isSpace = text := by
  cases text with
  | nil => rfl
  | cons c tail =>
    rw [List.dropWhile_cons_of_neg]
    intro hspace
    simp only [isSpace, Bool.or_eq_true, beq_iff_eq] at hspace
    rcases hspace with ((rfl | rfl) | rfl) | rfl <;> simp [next?, unsigned?, digits] at h

/-- A text is cut into its first token and the tokens of the rest. -/
theorem tokens?_of_next? (h : next? text = some (token, rest)) :
    tokens? text = (tokens? rest).map (token :: ·) := by
  rw [tokens?_eq, dropWhile_isSpace_of_next? h, h]

/-- A string in its quotes is one token. -/
theorem next?_stringText (value : String) (rest : List Char) :
    next? (stringText value ++ rest) = some (.string (some value), rest) := by
  rw [stringText, List.append_assoc]
  show next? ('"' :: (value.toList.flatMap escapeChar ++ '"' :: rest)) = _
  rw [next?, codes?_stringText, Option.map_some]
  show some (Token.string ((joinUnits? (value.toList.map Char.toNat)).map String.ofList), rest) = _
  rw [joinUnits?_map_toNat, Option.map_some, String.ofList_toList]

/-- A text that is cut into tokens, unless a number at its end could go on. -/
def Cuts (text : List Char) (ts : List Token) : Prop :=
  ∀ rest, Delimits rest → tokens? (text ++ rest) = (tokens? rest).map (ts ++ ·)

namespace Cuts

/-- A text that is a token, whatever may follow, is cut into that token. -/
theorem of_next? (h : ∀ rest, Delimits rest → next? (text ++ rest) = some (token, rest)) :
    Cuts text [token] :=
  fun rest hrest ↦ tokens?_of_next? (h rest hrest)

/-- Two texts are cut one after the other, if the second one begins with what no number goes on
with. -/
theorem append (ha : Cuts a ts) (hb : Cuts b us) (hdelimits : ∀ rest, Delimits (b ++ rest)) :
    Cuts (a ++ b) (ts ++ us) := by
  intro rest hrest
  rw [List.append_assoc, ha _ (hdelimits rest), hb rest hrest, Option.map_map]
  simp only [Function.comp_def, List.append_assoc]

/-- A mark that no token goes on with. -/
theorem mark {c : Char} (h : ∀ rest, next? (c :: rest) = some (token, rest)) (hb : Cuts b us) :
    Cuts (c :: b) (token :: us) := by
  intro rest hrest
  rw [List.cons_append, tokens?_of_next? (h _), hb rest hrest, Option.map_map]
  rfl

/-- Spaces before a token do not count. -/
theorem spaces (h : ∀ c ∈ a, isSpace c = true) (hb : Cuts b us) : Cuts (a ++ b) us := by
  intro rest hrest
  rw [List.append_assoc, tokens?_eq, List.dropWhile_append_of_pos h, List.all_append,
    List.all_eq_true.2 h, Bool.true_and, ← tokens?_eq, hb rest hrest]

theorem nil : Cuts [] [] := by
  intro rest _
  rw [List.nil_append]
  exact (Option.map_id_apply).symm

end Cuts

theorem isSpace_of_mem_newline (level : Nat) : ∀ c ∈ newline level, isSpace c = true := by
  refine List.forall_mem_cons.2 ⟨rfl, fun c hc ↦ ?_⟩
  rw [List.eq_of_mem_replicate hc]
  rfl

/-! After a value there is a new line or a comma, which no number goes on with. -/

theorem delimits_newline (level : Nat) (text : List Char) : Delimits (newline level ++ text) := by
  rintro c ⟨⟩
  decide

theorem delimits_comma (text : List Char) : Delimits (',' :: text) := by
  rintro c ⟨⟩
  decide

theorem delimits_colon (text : List Char) : Delimits (':' :: text) := by
  rintro c ⟨⟩
  decide

/-- The end of an array or an object on a line of its own. -/
theorem cuts_close {c : Char} (h : ∀ rest, next? (c :: rest) = some (token, rest)) (level : Nat)
    (hitems : Cuts a ts) : Cuts (a ++ newline level ++ [c]) (ts ++ [token]) := by
  rw [List.append_assoc]
  refine hitems.append (.spaces (isSpace_of_mem_newline level) (.mark h .nil)) fun rest ↦ ?_
  rw [List.append_assoc]
  exact delimits_newline level _

/-- The name of a member with a colon. -/
theorem cuts_member (name : String) (hvalue : Cuts a ts) :
    Cuts (stringText name ++ ':' :: ' ' :: a) (.string (some name) :: .colon :: ts) := by
  refine Cuts.append (.of_next? fun rest _ ↦ next?_stringText name rest)
    (.mark (fun _ ↦ rfl) ?_) fun rest ↦ delimits_colon _
  exact Cuts.spaces (a := [' ']) (List.forall_mem_singleton.2 rfl) hvalue

mutual

/-- The text of a value is cut into its tokens, at any level of indentation. -/
theorem cuts_indented (value : Json) (level : Nat) (hvalue : value.WellFormed) :
    Cuts (value.indented level) value.tokens := by
  cases value with
  | null => exact .of_next? fun _ _ ↦ rfl
  | bool value => cases value <;> exact .of_next? fun _ _ ↦ rfl
  | number literal =>
    rw [WellFormed] at hvalue
    exact .of_next? fun _ hrest ↦ next?_number hvalue hrest
  | string value => exact .of_next? fun rest _ ↦ next?_stringText value rest
  | unreadable => exact .of_next? fun _ _ ↦ rfl
  | array items =>
    rw [WellFormed] at hvalue
    cases items with
    | nil => exact .mark (fun _ ↦ rfl) (.mark (fun _ ↦ rfl) .nil)
    | cons item items =>
      exact .mark (fun _ ↦ rfl)
        (cuts_close (fun _ ↦ rfl) level (cuts_indentedItems (item :: items) _ hvalue))
  | object members =>
    rw [WellFormed] at hvalue
    cases members with
    | nil => exact .mark (fun _ ↦ rfl) (.mark (fun _ ↦ rfl) .nil)
    | cons member members =>
      exact .mark (fun _ ↦ rfl)
        (cuts_close (fun _ ↦ rfl) level (cuts_indentedMembers (member :: members) _ hvalue))

/-- So is that of the items of an array. -/
theorem cuts_indentedItems (items : List Json) (level : Nat) (hitems : AllWellFormed items) :
    Cuts (indentedItems level items) (tokensOfItems items) := by
  match items with
  | [] => exact .nil
  | [item] =>
    rw [AllWellFormed] at hitems
    exact .spaces (isSpace_of_mem_newline level) (cuts_indented item level hitems.1)
  | item :: next :: rest =>
    rw [AllWellFormed] at hitems
    rw [indentedItems, tokensOfItems, List.append_assoc]
    · exact .spaces (isSpace_of_mem_newline level) <|
        (cuts_indented item level hitems.1).append
          (.mark (fun _ ↦ rfl) (cuts_indentedItems (next :: rest) level hitems.2))
          fun _ ↦ delimits_comma _
    all_goals simp

/-- And that of the members of an object. -/
theorem cuts_indentedMembers (members : List (String × Json)) (level : Nat)
    (hmembers : MembersWellFormed members) :
    Cuts (indentedMembers level members) (tokensOfMembers members) := by
  match members with
  | [] => exact .nil
  | [(name, value)] =>
    rw [MembersWellFormed] at hmembers
    rw [indentedMembers, tokensOfMembers, List.append_assoc]
    exact .spaces (isSpace_of_mem_newline level)
      (cuts_member name (cuts_indented value level hmembers.1))
  | (name, value) :: next :: rest =>
    rw [MembersWellFormed] at hmembers
    have hmember := (cuts_member name (cuts_indented value level hmembers.1)).append
      (.mark (fun _ ↦ rfl) (cuts_indentedMembers (next :: rest) level hmembers.2))
      fun _ ↦ delimits_comma _
    have hline := Cuts.spaces (isSpace_of_mem_newline level) hmember
    rw [indentedMembers, tokensOfMembers]
    · simpa only [List.append_assoc, List.cons_append] using hline
    all_goals simp

end

/-- The text of a document is cut into its tokens. -/
theorem tokens?_indented {value : Json} (h : value.WellFormed) :
    tokens? (value.indented 0) = some value.tokens := by
  have hcuts := cuts_indented value 0 h [] nofun
  rw [List.append_nil] at hcuts
  rw [hcuts, show tokens? [] = some [] by rw [tokens?_eq]; rfl, Option.map_some, List.append_nil]

end Scan

/-! ### Building the document -/

namespace Reading

variable {ts us : List Token} {outer : List Frame}

theorem named?_map (members : List (String × Json)) :
    named? (members.map fun (name, value) ↦ (some name, value)) = some members := by
  induction members with
  | nil => rfl
  | cons member rest ih => rw [List.map_cons, named?, ih]; rfl

/-- Members whose names can be read are those of the object. -/
theorem objectOf_map (members : List (String × Json)) :
    objectOf (members.map fun (name, value) ↦ (some name, value)) = object members := by
  rw [objectOf, named?_map]

theorem run?_cons (reading : Reading) (token : Token) (ts : List Token) :
    run? reading (token :: ts) = (step? reading token).bind (run? · ts) :=
  List.foldlM_cons

/-- The first item of an array is read like any other one. -/
theorem run?_arrayOpened {items : List Json} (hitems : items ≠ []) (outer : List Frame)
    (ts : List Token) : run? (arrayOpened outer) (tokensOfItems items ++ ts) =
      run? (needValue (.items [] :: outer)) (tokensOfItems items ++ ts) := by
  have hitem (item : Json) (us : List Token) : run? (arrayOpened outer) (item.tokens ++ us) =
      run? (needValue (.items [] :: outer)) (item.tokens ++ us) := by
    cases item <;> rfl
  match items with
  | [] => exact absurd rfl hitems
  | [item] => exact hitem item ts
  | item :: next :: rest =>
    rw [tokensOfItems, List.append_assoc]
    · exact hitem item _
    · simp

/-- The first name of an object is read like any other one. -/
theorem run?_objectOpened {members : List (String × Json)} (hmembers : members ≠ [])
    (outer : List Frame) (ts : List Token) :
    run? (objectOpened outer) (tokensOfMembers members ++ ts) =
      run? (needName [] outer) (tokensOfMembers members ++ ts) := by
  match members with
  | [] => exact absurd rfl hmembers
  | [(name, value)] => rfl
  | (name, value) :: next :: rest => rfl

mutual

/-- The tokens of a value deliver the value to the containers that are open. -/
theorem run?_tokens (value : Json) (outer : List Frame) (ts : List Token) :
    run? (needValue outer) (value.tokens ++ ts) = run? (deliver value outer) ts := by
  cases value with
  | null => rfl
  | bool value => rfl
  | number literal => rfl
  | string value => rfl
  | unreadable => rfl
  | array items =>
    cases items with
    | nil => rfl
    | cons item items =>
      rw [tokens, List.cons_append, List.append_assoc, run?_cons]
      refine (run?_arrayOpened (List.cons_ne_nil _ _) outer _).trans ?_
      exact run?_tokensOfItems (item :: items) [] outer ts (List.cons_ne_nil _ _)
  | object members =>
    cases members with
    | nil => rfl
    | cons member members =>
      rw [tokens, List.cons_append, List.append_assoc, run?_cons]
      refine (run?_objectOpened (List.cons_ne_nil _ _) outer _).trans ?_
      refine (run?_tokensOfMembers (member :: members) [] outer ts (List.cons_ne_nil _ _)).trans ?_
      rw [List.reverse_nil, List.nil_append, objectOf_map]

/-- The tokens of items close their array, with the items that were read before. -/
theorem run?_tokensOfItems (items : List Json) (done : List Json) (outer : List Frame)
    (ts : List Token) (hitems : items ≠ []) :
    run? (needValue (.items done :: outer)) (tokensOfItems items ++ .closeArray :: ts) =
      run? (deliver (array (done.reverse ++ items)) outer) ts := by
  match items with
  | [] => exact absurd rfl hitems
  | [item] =>
    rw [tokensOfItems, run?_tokens item, ← List.reverse_cons]
    rfl
  | item :: next :: rest =>
    rw [tokensOfItems, List.append_assoc, run?_tokens item, List.cons_append, run?_cons]
    · refine (run?_tokensOfItems (next :: rest) (item :: done) outer ts
        (List.cons_ne_nil _ _)).trans ?_
      rw [List.reverse_cons, List.append_assoc]
      rfl
    · simp

/-- The tokens of members close their object in the same way. -/
theorem run?_tokensOfMembers (members : List (String × Json))
    (done : List (Option String × Json)) (outer : List Frame) (ts : List Token)
    (hmembers : members ≠ []) :
    run? (needName done outer) (tokensOfMembers members ++ .closeObject :: ts) =
      run? (deliver (objectOf (done.reverse ++
        members.map fun (name, value) ↦ (some name, value))) outer) ts := by
  match members with
  | [] => exact absurd rfl hmembers
  | [(name, value)] =>
    rw [tokensOfMembers, List.cons_append, List.cons_append, run?_cons]
    refine (run?_tokens value (.members done (some name) :: outer) _).trans ?_
    rw [List.map_singleton, ← List.reverse_cons]
    rfl
  | (name, value) :: next :: rest =>
    rw [tokensOfMembers, List.cons_append, List.cons_append, List.append_assoc, run?_cons]
    · refine (run?_tokens value (.members done (some name) :: outer) _).trans ?_
      refine (run?_tokensOfMembers (next :: rest) ((some name, value) :: done) outer ts
        (List.cons_ne_nil _ _)).trans ?_
      rw [List.reverse_cons, List.append_assoc]
      rfl
    · simp

end

end Reading

/-- A document is read back from its indented text. -/
theorem parse?_pretty {value : Json} (h : value.WellFormed) : parse? value.pretty = some value := by
  have hrun : Reading.run? (.needValue []) value.tokens = some (.finished value) := by
    have hrun := Reading.run?_tokens value [] []
    rwa [List.append_nil] at hrun
  rw [parse?, pretty, String.toList_ofList, Scan.tokens?_indented h]
  show (Reading.run? (.needValue []) value.tokens).bind _ = _
  rw [hrun]
  rfl

end Splice.Json
