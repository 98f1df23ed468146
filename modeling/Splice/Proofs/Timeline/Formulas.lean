import Splice.Timeline.Expression
import Splice.Proofs.Number.Exact
import Splice.Proofs.Number.Numerals

/-!
# Reading the text of an expression

What an `Expression` means to a filter, which has only its text. The filter splits the text into
tokens (`Formula.tokens?`) and calculates from left to right (`Formula.evaluate?`): products before
sums, operators of one rank from the left, the functions `if` and `lt`, and a minus sign in the
place of an operand as part of the literal that follows it.

Printing rounds a number to six places, so the tokens of a text hold the texts of its literals,
while those of an expression (`Expression.tokens`) hold the numbers that were printed. The two are
the same tokens, literal for literal (`Expression.tokens?_text`), and what an expression is worth
(`Expression.value`) is what its tokens calculate to (`Expression.evaluate?_tokens`), as long as
brackets stand where an operand would fall apart (`Expression.IsBracketed`).
-/

namespace Splice

namespace Formula

/-! ### Tokens -/

/-- A token of a formula whose literals are of type `ν`. A function takes its bracket along. -/
inductive Token (ν : Type) where
  | literal (value : ν)
  | name (text : String)
  | call (function : String)
  | left
  | right
  | comma
  | plus
  | minus
  | times
deriving DecidableEq

/-- The token with another literal. -/
def Token.map {ν μ : Type} (f : ν → μ) : Token ν → Token μ
  | literal value => literal (f value)
  | name text => name text
  | call function => call function
  | left => left
  | right => right
  | comma => comma
  | plus => plus
  | minus => minus
  | times => times

/-- Whether a name can begin with the character. -/
def isNameStart (c : Char) : Bool := c.isAlpha || c == '_'

/-- Whether a name can go on with the character. -/
def isNameChar (c : Char) : Bool := c.isAlphanum || c == '_'

/-- Whether a text is a name. -/
def isName (text : String) : Bool :=
  match text.toList with
  | [] => false
  | c :: cs => isNameStart c && cs.all isNameChar

/-- Whether a literal can go on with the character. -/
def isLiteralChar (c : Char) : Bool := c.isDigit || c == '.'

/-- How loosely the outermost operator of a formula binds. -/
inductive Rank where
  | factor
  | term
  | sum

/-! ### Splitting a text -/

/-- How far the token at hand has been read. -/
inductive Pending where
  /-- Nothing is read, and an operand is awaited. -/
  | operand
  /-- The minus sign of a literal is read. -/
  | sign
  /-- A literal, which can go on. -/
  | literal (text : List Char)
  /-- A name, which can go on or turn out to be a function. -/
  | name (text : List Char)
  /-- Nothing is read, and an operand has ended. -/
  | operator
deriving DecidableEq

namespace Pending

/-- The token that ends here, if there is one. -/
def flush : Pending → List (Token String)
  | literal text => [.literal (String.ofList text)]
  | name text => [.name (String.ofList text)]
  | _ => []

/-- Whether an operand can end here. -/
def isOperand : Pending → Bool
  | operand | sign => false
  | _ => true

/-- The token of a character that follows an operand, and what it is followed by. -/
def afterOperand? : Char → Option (Token String × Pending)
  | '+' => some (.plus, operand)
  | '-' => some (.minus, operand)
  | '*' => some (.times, operand)
  | ',' => some (.comma, operand)
  | ')' => some (.right, operator)
  | _ => none

/-- Ends the token at hand with a character that follows an operand. -/
def endWith? (pending : Pending) (c : Char) : Option (List (Token String) × Pending) :=
  (afterOperand? c).map fun (token, next) ↦ (pending.flush ++ [token], next)

/-- Reads one character: the tokens it completes, and what is pending after it. -/
def next? (pending : Pending) (c : Char) : Option (List (Token String) × Pending) :=
  match pending with
  | operand =>
    if c = '(' then some ([.left], operand)
    else if c = '-' then some ([], sign)
    else if c.isDigit then some ([], literal [c])
    else if isNameStart c then some ([], name [c])
    else none
  | sign => if c.isDigit then some ([], literal ['-', c]) else none
  | literal text =>
    if isLiteralChar c then some ([], literal (text ++ [c])) else pending.endWith? c
  | name text =>
    if isNameChar c then some ([], name (text ++ [c]))
    else if c = '(' then some ([.call (String.ofList text)], operand)
    else pending.endWith? c
  | operator => pending.endWith? c

end Pending

/-- Reads characters: the tokens they complete, and what is pending after them. -/
def scan : Pending → List Char → Option (List (Token String) × Pending)
  | pending, [] => some ([], pending)
  | pending, c :: cs =>
    (pending.next? c).bind fun (tokens, next) ↦
      (scan next cs).map fun (more, last) ↦ (tokens ++ more, last)

/-- The tokens of a text. -/
def tokens? (text : String) : Option (List (Token String)) :=
  (scan .operand text.toList).map fun (tokens, last) ↦ tokens ++ last.flush

/-! ### Calculating -/

section Calculator

variable {α : Type}

/-- What is inside one pair of brackets, as far as it has been read. -/
structure Level (α : Type) where
  /-- The function whose brackets these are, if they are more than brackets. -/
  function : Option String
  /-- The arguments that are complete. -/
  arguments : List α
  /-- What the terms before the one at hand make of its value. -/
  sum : α → α
  /-- What the factors before the one at hand make of its value. -/
  product : α → α

/-- The inside of a pair of brackets when nothing of it has been read. -/
def Level.opened (function : Option String) (arguments : List α) : Level α :=
  ⟨function, arguments, id, id⟩

/-- The value of an argument that ends with an operand. -/
def Level.total (level : Level α) (x : α) : α := level.sum (level.product x)

/-- The calculator between two tokens. -/
structure Calculator (α : Type) where
  /-- The levels outside the brackets that are open, innermost first. -/
  outer : List (Level α)
  level : Level α
  /-- The operand that has just been read, if one has. -/
  operand : Option α

variable [Scalar α]

/-- The value of a pair of brackets or of a function. -/
def call? : Option String → List α → Option α
  | none, [x] => some x
  | some "lt", [x, y] => some (if x < y then 1.0 else 0.0)
  | some "if", [condition, yes, no] => some (if condition == 0.0 then no else yes)
  | _, _ => none

/-- Reads one token. -/
def Calculator.step (assign : String → α) (c : Calculator α) (token : Token α) :
    Option (Calculator α) :=
  match c.operand, token with
  | none, .literal x => some ⟨c.outer, c.level, some x⟩
  | none, .name text => some ⟨c.outer, c.level, some (assign text)⟩
  | none, .left => some ⟨c.level :: c.outer, .opened none [], none⟩
  | none, .call function => some ⟨c.level :: c.outer, .opened (some function) [], none⟩
  | some x, .times =>
    let product := c.level.product x
    some ⟨c.outer, { c.level with product := fun y ↦ product * y }, none⟩
  | some x, .plus =>
    let total := c.level.total x
    some ⟨c.outer, { c.level with sum := fun y ↦ total + y, product := id }, none⟩
  | some x, .minus =>
    let total := c.level.total x
    some ⟨c.outer, { c.level with sum := fun y ↦ total - y, product := id }, none⟩
  | some x, .comma =>
    some ⟨c.outer, .opened c.level.function (c.level.arguments ++ [c.level.total x]), none⟩
  | some x, .right =>
    match c.outer with
    | [] => none
    | level :: outer =>
      (call? c.level.function (c.level.arguments ++ [c.level.total x])).map fun y ↦
        ⟨outer, level, some y⟩
  | _, _ => none

/-- Reads tokens. -/
def Calculator.run (assign : String → α) (c : Calculator α) (tokens : List (Token α)) :
    Option (Calculator α) :=
  tokens.foldlM (Calculator.step assign) c

/-- The value of a formula under an assignment of values to names. -/
def evaluate? (assign : String → α) (tokens : List (Token α)) : Option α :=
  (Calculator.run assign ⟨[], .opened none [], none⟩ tokens).bind fun c ↦
    match c.outer, c.level.arguments, c.operand with
    | [], [], some x => some (c.level.total x)
    | _, _, _ => none

end Calculator

end Formula

open Formula

namespace Expression

/-! ### Tokens and values of expressions -/

section

variable {α : Type}

/-- The tokens of an expression. -/
def tokens : Expression α → List (Token α)
  | number value => [.literal value]
  | symbol name => [.name name]
  | bracket inner => .left :: inner.tokens ++ [.right]
  | sum left right => left.tokens ++ .plus :: right.tokens
  | difference left right => left.tokens ++ .minus :: right.tokens
  | product left right => left.tokens ++ .times :: right.tokens
  | ifLess left right yes no =>
    .call "if" :: .call "lt" :: (left.tokens ++ .comma :: (right.tokens ++ .right :: .comma ::
      (yes.tokens ++ .comma :: (no.tokens ++ [.right]))))

/-- The value of an expression under an assignment of values to names. -/
def value [Scalar α] (assign : String → α) : Expression α → α
  | number value => value
  | symbol name => assign name
  | bracket inner => inner.value assign
  | sum left right => left.value assign + right.value assign
  | difference left right => left.value assign - right.value assign
  | product left right => left.value assign * right.value assign
  | ifLess left right yes no =>
    if left.value assign < right.value assign then yes.value assign else no.value assign

/-- The rank of an expression. -/
def rank : Expression α → Rank
  | sum .. | difference .. => .sum
  | product .. => .term
  | _ => .factor

/-- Brackets stand where a formula without them would mean something else. -/
def IsBracketed : Expression α → Prop
  | number _ => True
  | symbol _ => True
  | bracket inner => inner.IsBracketed
  | sum left right => left.IsBracketed ∧ right.IsBracketed ∧ right.rank ≠ .sum
  | difference left right => left.IsBracketed ∧ right.IsBracketed ∧ right.rank ≠ .sum
  | product left right =>
    (left.IsBracketed ∧ left.rank ≠ .sum) ∧ right.IsBracketed ∧ right.rank = .factor
  | ifLess left right yes no =>
    left.IsBracketed ∧ right.IsBracketed ∧ yes.IsBracketed ∧ no.IsBracketed

/-- Every literal is a number, and every symbol a name. -/
def IsLegible [Scalar α] : Expression α → Prop
  | number value => Scalar.isFinite value = true
  | symbol name => isName name = true
  | bracket inner => inner.IsLegible
  | sum left right => left.IsLegible ∧ right.IsLegible
  | difference left right => left.IsLegible ∧ right.IsLegible
  | product left right => left.IsLegible ∧ right.IsLegible
  | ifLess left right yes no =>
    left.IsLegible ∧ right.IsLegible ∧ yes.IsLegible ∧ no.IsLegible

end

end Expression

/-! ### A text splits into the tokens of its expression -/

namespace Formula

theorem scan_cons {pending next last : Pending} {c : Char} {cs : List Char}
    {tokens more : List (Token String)} (hc : pending.next? c = some (tokens, next))
    (hcs : scan next cs = some (more, last)) :
    scan pending (c :: cs) = some (tokens ++ more, last) := by
  show (pending.next? c).bind _ = _
  rw [hc, Option.bind_some]
  show (scan next cs).map _ = _
  rw [hcs, Option.map_some]

theorem scan_singleton {pending next : Pending} {c : Char} {tokens : List (Token String)}
    (hc : pending.next? c = some (tokens, next)) : scan pending [c] = some (tokens, next) := by
  rw [scan_cons hc rfl, List.append_nil]

/-- A text is scanned from where the text before it has left off. -/
theorem scan_append {pending next last : Pending} {front rest : List Char}
    {tokens more : List (Token String)} (hfront : scan pending front = some (tokens, next))
    (hrest : scan next rest = some (more, last)) :
    scan pending (front ++ rest) = some (tokens ++ more, last) := by
  induction front generalizing pending tokens with
  | nil =>
    cases hfront
    exact hrest
  | cons c cs ih =>
    obtain ⟨⟨first, between⟩, hc, hmore⟩ := Option.bind_eq_some_iff.1 hfront
    obtain ⟨⟨others, _⟩, hcs, heq⟩ := Option.map_eq_some_iff.1 hmore
    cases heq
    rw [List.append_assoc]
    exact scan_cons hc (ih hcs)

/-- While every character lets the pending token go on, it goes on. -/
theorem scan_going {into : List Char → Pending} {text more : List Char}
    (h : ∀ c ∈ more, ∀ front, (into front).next? c = some ([], into (front ++ [c]))) :
    scan (into text) more = some ([], into (text ++ more)) := by
  induction more generalizing text with
  | nil => rw [scan, List.append_nil]
  | cons c cs ih =>
    rw [List.append_cons]
    exact scan_cons (h c List.mem_cons_self text) (ih fun d hd ↦ h d (List.mem_cons_of_mem _ hd))

/-- A character that follows operands ends whatever operand is pending. -/
theorem scan_afterOperand {pending next : Pending} {c : Char} {token : Token String}
    (hoperand : pending.isOperand = true)
    (hc : Pending.afterOperand? c = some (token, next)) :
    scan pending [c] = some (pending.flush ++ [token], next) := by
  have hchars : isLiteralChar c = false ∧ isNameChar c = false ∧ c ≠ '(' := by
    rw [Pending.afterOperand?.eq_def] at hc
    split at hc <;> first | decide | cases hc
  have hend : pending.endWith? c = some (pending.flush ++ [token], next) := by
    rw [Pending.endWith?, hc, Option.map_some]
  have hnext : pending.next? c = some (pending.flush ++ [token], next) := by
    rw [← hend]
    cases pending with
    | operand => cases hoperand
    | sign => cases hoperand
    | literal text => simp [Pending.next?, hchars.1]
    | name text => simp [Pending.next?, hchars.2]
    | operator => rfl
  exact scan_singleton hnext

theorem isDigit_eq_false_of_isAlpha {c : Char} (h : c.isAlpha = true) : c.isDigit = false := by
  have hcode : 'A'.toNat ≤ c.toNat := by
    have hcase : (c.isUpper || c.isLower) = true := h
    rcases Bool.or_eq_true_iff.1 hcase with hupper | hlower
    · exact (of_decide_eq_true hupper).1
    · have ha : 'a'.toNat ≤ c.toNat := of_decide_eq_true (Bool.and_eq_true_iff.1 hlower).1
      exact le_trans (by decide) ha
  by_contra hdigit
  obtain ⟨-, hle⟩ := Char.isDigit_iff_toNat.1 (Bool.eq_true_of_not_eq_false hdigit)
  exact absurd (hcode.trans hle) (by decide)

/-- A letter or an underscore begins nothing but a name. -/
theorem plain_of_isNameStart {c : Char} (h : isNameStart c = true) :
    c ≠ '(' ∧ c ≠ '-' ∧ c.isDigit = false := by
  rw [isNameStart, Bool.or_eq_true, beq_iff_eq] at h
  rcases h with h | rfl
  · refine ⟨fun hc ↦ ?_, fun hc ↦ ?_, isDigit_eq_false_of_isAlpha h⟩
    · subst hc
      exact absurd h (by decide)
    · subst hc
      exact absurd h (by decide)
  · decide

/-- A text that is read as one operand, whose last token may still be pending. -/
def Reads (text : List Char) (tokens : List (Token String)) : Prop :=
  ∃ complete last, scan .operand text = some (complete, last) ∧ last.isOperand = true ∧
    tokens = complete ++ last.flush

namespace Reads

variable {a b : List Char} {s t : List (Token String)}

/-- A text that is one operand splits into its tokens. -/
theorem tokens?_eq {text : String} (h : Reads text.toList s) : tokens? text = some s := by
  obtain ⟨complete, last, hscan, -, rfl⟩ := h
  rw [tokens?, hscan, Option.map_some]

/-- A character after an operand completes its tokens. -/
theorem scan_end (h : Reads a s) {c : Char} {token : Token String} {next : Pending}
    (hc : Pending.afterOperand? c = some (token, next)) :
    scan .operand (a ++ [c]) = some (s ++ [token], next) := by
  obtain ⟨complete, last, hscan, hoperand, rfl⟩ := h
  rw [scan_append hscan (scan_afterOperand hoperand hc), List.append_assoc]

/-- Operands with an operator or a comma between them. -/
theorem operator (ha : Reads a s) {c : Char} {token : Token String}
    (hc : Pending.afterOperand? c = some (token, .operand)) (hb : Reads b t) :
    Reads (a ++ c :: b) (s ++ token :: t) := by
  obtain ⟨complete, last, hscan, hoperand, rfl⟩ := hb
  refine ⟨s ++ [token] ++ complete, last, ?_, hoperand, by simp⟩
  rw [List.append_cons]
  exact scan_append (ha.scan_end hc) hscan

/-- An operand before a closing bracket. -/
theorem scan_right (h : Reads a s) :
    scan .operand (a ++ [')']) = some (s ++ [.right], .operator) :=
  h.scan_end rfl

theorem bracket (h : Reads a s) : Reads ('(' :: (a ++ [')'])) (.left :: (s ++ [.right])) := by
  have hopen : scan .operand ['('] = some ([.left], .operand) := by decide
  exact ⟨_, .operator, scan_append hopen h.scan_right, rfl, (List.append_nil _).symm⟩

/-- A conditional with a comparison in front. -/
theorem ifLess {c d : List Char} {u v : List (Token String)} (ha : Reads a s) (hb : Reads b t)
    (hc : Reads c u) (hd : Reads d v) :
    Reads ("if(lt(".toList ++ (a ++ ',' :: b ++ [')'] ++ (',' :: (c ++ ',' :: d ++ [')']))))
      (.call "if" :: .call "lt" :: (s ++ .comma :: (t ++ .right :: .comma ::
        (u ++ .comma :: (v ++ [.right]))))) := by
  have hopen : scan .operand "if(lt(".toList = some ([.call "if", .call "lt"], .operand) := by
    decide
  have hcomma : scan .operator [','] = some ([.comma], .operand) := by decide
  have hcondition := (ha.operator (c := ',') rfl hb).scan_right
  have hbranches := (hc.operator (c := ',') rfl hd).scan_right
  refine ⟨_, .operator,
    scan_append hopen (scan_append hcondition (scan_append hcomma hbranches)), rfl, ?_⟩
  simp [Pending.flush]

/-- A name is read as one token. -/
theorem name {text : String} (h : isName text = true) : Reads text.toList [.name text] := by
  rw [isName] at h
  split at h
  case h_1 => cases h
  case h_2 c cs hcs =>
    obtain ⟨hstart, hmore⟩ := Bool.and_eq_true_iff.1 h
    have hfirst : scan .operand [c] = some ([], .name [c]) := by
      obtain ⟨hbracket, hminus, hdigit⟩ := plain_of_isNameStart hstart
      exact scan_singleton (by simp [Pending.next?, hbracket, hminus, hdigit, hstart])
    have hrest : scan (.name [c]) cs = some ([], .name (c :: cs)) :=
      scan_going fun d hd _ ↦ if_pos (List.all_eq_true.1 hmore d hd)
    refine ⟨[], .name (c :: cs), ?_, rfl, ?_⟩
    · rw [hcs]
      exact scan_append hfirst hrest
    · rw [← hcs, Pending.flush, String.ofList_toList, List.nil_append]

end Reads

/-- The text of a finite number is a digit and more digits, perhaps around a point, and perhaps
after a minus sign. -/
theorem exists_toList_numeral {α : Type} [Scalar α] {x : α} (h : Scalar.isFinite x = true) :
    ∃ (negative : Bool) (c : Char) (more : List Char), c.isDigit = true ∧
      (∀ b ∈ more, isLiteralChar b = true) ∧
      (Scalar.numeral x).toList = if negative then '-' :: c :: more else c :: more := by
  rw [Scalar.isFinite, Denotation.isFinite.eq_def] at h
  split at h
  case h_2 => cases h
  case h_1 negative magnitude hx =>
    let count := millionths negative magnitude
    obtain ⟨c, more, htext, hc, hmore⟩ := (Decimal.mk count.natAbs (-6)).exists_cons_shown
    refine ⟨decide (count < 0), c, more, hc, fun b hb ↦ ?_, ?_⟩
    · rcases hmore b hb with hb | rfl
      · rw [isLiteralChar, hb, Bool.true_or]
      · decide
    · rw [toList_numeral hx, millionthsText, htext]
      by_cases hcount : count < 0
      · rw [if_pos hcount, if_pos (decide_eq_true hcount)]
        rfl
      · rw [if_neg hcount, if_neg (by simpa using hcount)]
        rfl

/-- So is the text of a number, with its minus sign. -/
theorem Reads.literal {α : Type} [Scalar α] {x : α} (h : Scalar.isFinite x = true) :
    Reads (Scalar.numeral x).toList [.literal (Scalar.numeral x)] := by
  obtain ⟨negative, d, more, hd, hmore, htext⟩ := exists_toList_numeral h
  have hrest (text : List Char) : scan (.literal text) more = some ([], .literal (text ++ more)) :=
    scan_going fun c hc _ ↦ if_pos (hmore c hc)
  refine ⟨[], .literal (Scalar.numeral x).toList, ?_, rfl, ?_⟩
  · rw [htext]
    -- a minus sign belongs to the literal only where an operand is expected, as it is here
    cases negative with
    | true =>
      have hminus : Pending.operand.next? '-' = some ([], .sign) := by decide
      have hsign : scan .operand ['-', d] = some ([], .literal ['-', d]) :=
        scan_cons hminus (scan_singleton (if_pos hd))
      exact scan_append hsign (hrest _)
    | false =>
      have hplain : d ≠ '(' ∧ d ≠ '-' := by
        constructor <;> rintro rfl <;> exact absurd hd (by decide)
      have hfirst : scan .operand [d] = some ([], .literal [d]) :=
        scan_singleton (by simp [Pending.next?, hplain, hd])
      exact scan_append hfirst (hrest _)
  · rw [Pending.flush, String.ofList_toList, List.nil_append]

end Formula

/-- The text of an expression splits into its tokens, each number in its place. -/
theorem Expression.tokens?_text {α : Type} [Scalar α] {e : Expression α} (h : e.IsLegible) :
    tokens? e.text = some (e.tokens.map (Token.map Scalar.numeral)) := by
  suffices hreads : Reads e.text.toList (e.tokens.map (Token.map Scalar.numeral)) from
    hreads.tokens?_eq
  induction e with
  | number value => exact .literal h
  | symbol name => exact .name h
  | bracket inner ih =>
    simpa [text, tokens, Token.map] using (ih h).bracket
  | sum left right hl hr =>
    simpa [text, tokens, Token.map] using (hl h.1).operator (c := '+') rfl (hr h.2)
  | difference left right hl hr =>
    simpa [text, tokens, Token.map] using (hl h.1).operator (c := '-') rfl (hr h.2)
  | product left right hl hr =>
    simpa [text, tokens, Token.map] using (hl h.1).operator (c := '*') rfl (hr h.2)
  | ifLess left right yes no hl hr hy hn =>
    obtain ⟨h₁, h₂, h₃, h₄⟩ := h
    simpa [text, tokens, Token.map] using (hl h₁).ifLess (hr h₂) (hy h₃) (hn h₄)

/-! ### The tokens of an expression calculate to its value -/

namespace Formula

variable {α : Type}

/-- An operand of a rank can begin here: nothing before it would take a part of it away. -/
def Level.Fits (level : Level α) : Rank → Prop
  | .factor => True
  | .term => level.product = id
  | .sum => level.sum = id ∧ level.product = id

/-- What has become of a level when an operand with a value and a rank has been read. The last
factor `x` of the operand is still at hand. -/
structure Level.Takes (level : Level α) (value : α) (rank : Rank) (after : Level α) (x : α) :
    Prop where
  function : after.function = level.function
  arguments : after.arguments = level.arguments
  total : after.total x = level.total value
  term : rank ≠ .sum → after.sum = level.sum ∧ after.product x = level.product value
  factor : rank = .factor → after = level ∧ x = value

/-- Behind an opening bracket any operand can begin. -/
theorem Level.fits_opened (function : Option String) (arguments : List α) (rank : Rank) :
    (Level.opened function arguments).Fits rank := by
  cases rank with
  | factor => trivial
  | term => rfl
  | sum => exact ⟨rfl, rfl⟩

/-- An operand of one token leaves the level as it is. -/
theorem Level.takes_self (level : Level α) (value : α) (rank : Rank) :
    level.Takes value rank level value where
  function := rfl
  arguments := rfl
  total := rfl
  term _ := ⟨rfl, rfl⟩
  factor _ := ⟨rfl, rfl⟩

variable [Scalar α] {assign : String → α}

/-- Tokens are read from where those before them have left off. -/
theorem run_append {c d e : Calculator α} {front rest : List (Token α)}
    (hfront : c.run assign front = some d) (hrest : d.run assign rest = some e) :
    c.run assign (front ++ rest) = some e := by
  rw [Calculator.run, List.foldlM_append]
  exact Option.bind_eq_some_iff.2 ⟨d, hfront, hrest⟩

theorem run_cons {c d : Calculator α} {token : Token α} {rest : List (Token α)}
    (hstep : c.step assign token = some d) :
    c.run assign (token :: rest) = d.run assign rest := by
  rw [Calculator.run, List.foldlM_cons]
  show (c.step assign token).bind _ = _
  rw [hstep]
  rfl

/-- Tokens that are read as an operand with a value and a rank. -/
def Computes (assign : String → α) (tokens : List (Token α)) (value : α) (rank : Rank) : Prop :=
  ∀ (outer : List (Level α)) (level : Level α), level.Fits rank →
    ∃ after x, Calculator.run assign ⟨outer, level, none⟩ tokens = some ⟨outer, after, some x⟩ ∧
      level.Takes value rank after x

namespace Computes

variable {a b : List (Token α)} {x y : α} {r q : Rank}

/-- A formula that is one operand has its value. -/
theorem evaluate?_eq (h : Computes assign a x r) : evaluate? assign a = some x := by
  obtain ⟨after, z, hrun, htakes⟩ := h [] _ (Level.fits_opened none [] r)
  have harguments : after.arguments = [] := htakes.arguments
  have htotal : after.total z = x := htakes.total
  rw [evaluate?, hrun, Option.bind_some, harguments]
  exact congrArg some htotal

/-! Operands of one token, and what stands between brackets. -/

/-- A literal or a name is a factor. -/
theorem factor {token : Token α}
    (h : ∀ outer level, Calculator.step assign ⟨outer, level, none⟩ token =
      some ⟨outer, level, some x⟩) : Computes assign [token] x .factor := by
  intro outer level _
  exact ⟨level, x, run_cons (h outer level), level.takes_self x .factor⟩

/-- An argument before a comma is complete. -/
theorem run_comma (h : Computes assign a x r) (outer : List (Level α)) (function : Option String)
    (arguments : List α) :
    Calculator.run assign ⟨outer, .opened function arguments, none⟩ (a ++ [.comma]) =
      some ⟨outer, .opened function (arguments ++ [x]), none⟩ := by
  obtain ⟨after, z, hrun, htakes⟩ := h outer _ (Level.fits_opened function arguments r)
  have htotal : after.total z = x := htakes.total
  have hfunction : after.function = function := htakes.function
  have harguments : after.arguments = arguments := htakes.arguments
  refine run_append hrun ?_
  show some (⟨outer, .opened after.function (after.arguments ++ [after.total z]), none⟩ :
    Calculator α) = _
  rw [hfunction, harguments, htotal]

/-- With the last argument a function is called. -/
theorem run_right (h : Computes assign a x r) {outer : List (Level α)} {level : Level α}
    {function : Option String} {arguments : List α}
    (hcall : call? function (arguments ++ [x]) = some y) :
    Calculator.run assign ⟨level :: outer, .opened function arguments, none⟩ (a ++ [.right]) =
      some ⟨outer, level, some y⟩ := by
  obtain ⟨after, z, hrun, htakes⟩ := h (level :: outer) _ (Level.fits_opened function arguments r)
  have htotal : after.total z = x := htakes.total
  have hfunction : after.function = function := htakes.function
  have harguments : after.arguments = arguments := htakes.arguments
  refine run_append hrun ?_
  have hstep : Calculator.step assign ⟨level :: outer, after, some z⟩ .right =
      some ⟨outer, level, some y⟩ := by
    show (call? after.function (after.arguments ++ [after.total z])).map _ = _
    rw [hfunction, harguments, htotal, hcall, Option.map_some]
  exact run_cons hstep

/-- An operand in brackets is a factor, whatever it is inside of them. -/
theorem bracket (h : Computes assign a x r) :
    Computes assign (.left :: a ++ [.right]) x .factor := by
  intro outer level _
  refine ⟨level, x, ?_, level.takes_self x .factor⟩
  rw [List.cons_append, run_cons rfl]
  exact h.run_right rfl

/-! Operands of an operator. -/

/-- A product: the factors so far are combined with one more. -/
theorem product (ha : Computes assign a x r) (hr : r ≠ .sum) (hb : Computes assign b y .factor) :
    Computes assign (a ++ .times :: b) (x * y) .term := by
  intro outer level hlevel
  -- a product can stand where no factor is pending, and so can its first factor
  have hfits : level.Fits r := by
    cases r with
    | factor => trivial
    | term => exact hlevel
    | sum => exact absurd rfl hr
  obtain ⟨after, z, hrun, htakes⟩ := ha outer level hfits
  obtain ⟨hsum, hproduct⟩ := htakes.term hr
  have hx : after.product z = x := by
    rw [hproduct, show level.product = id from hlevel, id]
  obtain ⟨last, w, hrest, hlast⟩ :=
    hb outer { after with product := fun v ↦ after.product z * v } trivial
  obtain ⟨rfl, rfl⟩ := hlast.factor rfl
  have hterm : after.product z * w = level.product (x * w) := by
    rw [hx, show level.product = id from hlevel, id]
  refine ⟨_, w, run_append hrun ((run_cons rfl).trans hrest), htakes.function, htakes.arguments,
    ?_, fun _ ↦ ⟨hsum, hterm⟩, nofun⟩
  show after.sum (after.product z * w) = level.sum (level.product (x * w))
  rw [hsum, hterm]

/-- A sum or a difference: the terms so far are combined with one more. -/
theorem combination {token : Token α} {f : α → α → α}
    (hstep : ∀ (outer : List (Level α)) (level : Level α) (z : α),
      Calculator.step assign ⟨outer, level, some z⟩ token =
        some ⟨outer, { level with sum := f (level.total z), product := id }, none⟩)
    (ha : Computes assign a x r) (hb : Computes assign b y q) (hq : q ≠ .sum) :
    Computes assign (a ++ token :: b) (f x y) .sum := by
  intro outer level hlevel
  obtain ⟨hsum, hproduct⟩ := hlevel
  -- nothing is pending on the level, so any operand can begin; behind the sign all but a sum can
  have hfits : level.Fits r := by
    cases r with
    | factor => trivial
    | term => exact hproduct
    | sum => exact ⟨hsum, hproduct⟩
  obtain ⟨after, z, hrun, htakes⟩ := ha outer level hfits
  have hx : after.total z = x := by
    rw [htakes.total, Level.total, hsum, hproduct, id, id]
  have hnext : Level.Fits { after with sum := f (after.total z), product := id } q := by
    cases q with
    | factor => trivial
    | term => rfl
    | sum => exact absurd rfl hq
  obtain ⟨last, w, hrest, hlast⟩ := hb outer _ hnext
  refine ⟨last, w, run_append hrun ((run_cons (hstep outer after z)).trans hrest),
    hlast.function.trans htakes.function, hlast.arguments.trans htakes.arguments, ?_,
    fun h ↦ absurd rfl h, nofun⟩
  have htotal : last.total w = f (after.total z) y := hlast.total
  rw [htotal, hx, Level.total, hsum, hproduct, id, id]

end Computes

/-- The function `if` undoes the function `lt`. -/
theorem call?_if (holds : Prop) [Decidable holds] (yes no : Exact) :
    call? (some "if") [if holds then 1.0 else 0.0, yes, no] =
      some (if holds then yes else no) := by
  have hone : ((1.0 : Exact) == 0.0) = false := by decide +kernel
  have hzero : ((0.0 : Exact) == 0.0) = true := by decide +kernel
  by_cases h : holds
  · rw [if_pos h, if_pos h, call?, hone, if_neg Bool.false_ne_true]
  · rw [if_neg h, if_neg h, call?, hzero, if_pos rfl]

/-- A conditional is a factor, as its parts stand between commas and brackets. -/
theorem Computes.ifLess {assign : String → Exact} {a b c d : List (Token Exact)}
    {x y u v : Exact} {r₁ r₂ r₃ r₄ : Rank} (ha : Computes assign a x r₁)
    (hb : Computes assign b y r₂) (hc : Computes assign c u r₃) (hd : Computes assign d v r₄) :
    Computes assign (.call "if" :: .call "lt" :: (a ++ .comma :: (b ++ .right :: .comma ::
      (c ++ .comma :: (d ++ [.right]))))) (if x < y then u else v) .factor := by
  intro outer level _
  refine ⟨level, _, ?_, level.takes_self _ .factor⟩
  have htokens : a ++ .comma :: (b ++ .right :: .comma :: (c ++ .comma :: (d ++ [.right]))) =
      (a ++ [.comma]) ++ ((b ++ [.right]) ++ ([.comma] ++ ((c ++ [.comma]) ++
        (d ++ [.right])))) := by
    simp
  rw [run_cons rfl, run_cons rfl, htokens]
  have hcondition : Calculator.run assign
      ⟨.opened (some "if") [] :: level :: outer, .opened (some "lt") [x], none⟩ (b ++ [.right]) =
        some ⟨level :: outer, .opened (some "if") [], some (if x < y then 1.0 else 0.0)⟩ :=
    hb.run_right rfl
  refine run_append (ha.run_comma _ _ _) (run_append hcondition (run_append (run_cons rfl)
    (run_append (hc.run_comma _ _ _) (hd.run_right ?_))))
  exact call?_if (x < y) u v

end Formula

/-- The calculator finds the value of an expression in its tokens. -/
theorem Expression.computes_tokens (assign : String → Exact) {e : Expression Exact}
    (h : e.IsBracketed) : Computes assign e.tokens (e.value assign) e.rank := by
  induction e with
  | number value => exact .factor fun _ _ ↦ rfl
  | symbol name => exact .factor fun _ _ ↦ rfl
  | bracket inner ih => exact (ih h).bracket
  | sum left right hl hr => exact .combination (fun _ _ _ ↦ rfl) (hl h.1) (hr h.2.1) h.2.2
  | difference left right hl hr => exact .combination (fun _ _ _ ↦ rfl) (hl h.1) (hr h.2.1) h.2.2
  | product left right hl hr =>
    obtain ⟨⟨hleft, hrank⟩, hright, hfactor⟩ := h
    exact (hl hleft).product hrank (hfactor ▸ hr hright)
  | ifLess left right yes no hl hr hy hn =>
    obtain ⟨h₁, h₂, h₃, h₄⟩ := h
    exact (hl h₁).ifLess (hr h₂) (hy h₃) (hn h₄)

/-- What the tokens of an expression calculate to. -/
theorem Expression.evaluate?_tokens (assign : String → Exact) {e : Expression Exact}
    (h : e.IsBracketed) : evaluate? assign e.tokens = some (e.value assign) :=
  (Expression.computes_tokens assign h).evaluate?_eq

end Splice
