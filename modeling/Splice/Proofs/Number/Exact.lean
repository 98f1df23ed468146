import Splice.Proofs.Number.Order

/-!
# Exact scalars

Scalars that never round: the rationals, with the two infinities and the value that is no number,
which combine as those of doubles do. There is one zero. A statement about exact scalars reads the
arithmetic of the library as that of `ℚ`; the lemmas tagged `simp` push every operation on finite
scalars (`Exact.number`) into `ℚ`, where `linarith` and `positivity` take over.

Only text keeps an approximation: a rational without a finite decimal is shown with twenty places.
-/

namespace Splice

/-- A scalar that is never rounded. -/
inductive Exact where
  | nan
  | infinite (negative : Bool)
  | number (value : ℚ)
deriving DecidableEq

namespace Exact

/-! ### Operations -/

/-- The opposite. -/
def neg : Exact → Exact
  | nan => nan
  | infinite negative => infinite !negative
  | number x => number (-x)

/-- The sum. Opposite infinities have none. -/
def add : Exact → Exact → Exact
  | number x, number y => number (x + y)
  | nan, _ => nan
  | _, nan => nan
  | infinite a, infinite b => if a = b then infinite a else nan
  | infinite a, number _ => infinite a
  | number _, infinite b => infinite b

/-- The difference. -/
def sub : Exact → Exact → Exact
  | number x, number y => number (x - y)
  | x, y => add x (neg y)

/-- The product. Zero and an infinity have none. -/
def mul : Exact → Exact → Exact
  | number x, number y => number (x * y)
  | nan, _ => nan
  | _, nan => nan
  | infinite a, infinite b => infinite (a != b)
  | infinite a, number y => if y = 0 then nan else infinite (a != decide (y < 0))
  | number x, infinite b => if x = 0 then nan else infinite (decide (x < 0) != b)

/-- The quotient. Over zero it is an infinity, unless zero itself is divided. -/
def div : Exact → Exact → Exact
  | number x, number y =>
    if y = 0 then if x = 0 then nan else infinite (decide (x < 0)) else number (x / y)
  | nan, _ => nan
  | _, nan => nan
  | infinite _, infinite _ => nan
  | infinite a, number y => infinite (a != decide (y < 0))
  | number _, infinite _ => number 0

/-- Whether a scalar is below another one. -/
def isBelow : Exact → Exact → Bool
  | number x, number y => decide (x < y)
  | infinite true, number _ => true
  | infinite true, infinite false => true
  | number _, infinite false => true
  | _, _ => false

/-- Whether two scalars stand at the same place. -/
def isEqual : Exact → Exact → Bool
  | number x, number y => decide (x = y)
  | infinite a, infinite b => a == b
  | _, _ => false

/-- The total order, in which the value that is no number comes last. -/
def precedes : Exact → Exact → Bool
  | _, nan => true
  | nan, _ => false
  | x, y => isBelow x y || isEqual x y

/-- A function of rationals; what is not finite stays. -/
def onNumber (f : ℚ → ℚ) : Exact → Exact
  | number x => number (f x)
  | x => x

/-- The integer nearest to a rational; a half goes away from zero. -/
def nearest (x : ℚ) : ℤ := if x < 0 then -(-x + 1 / 2).floor else (x + 1 / 2).floor

/-- What a scalar denotes. -/
def denote : Exact → Denotation
  | nan => .nan
  | infinite negative => .infinite negative
  | number x => .finite (decide (x < 0)) |x|

/-- The magnitude of a finite scalar as a decimal, to twenty places. -/
def shortest : Exact → Decimal
  | number x => BinaryFraction.stripTens 20 (Decimal.places 20 x.num.natAbs x.den)
  | _ => ⟨0, 0⟩

/-- The rational that a decimal with a sign stands for. -/
def ofDecimal (negative : Bool) (d : Decimal) : Exact :=
  number (withSign negative (d.coefficient * (10 : ℚ) ^ d.exponent))

instance : Scalar Exact where
  add := add
  sub := sub
  mul := mul
  div := div
  neg := neg
  lt x y := isBelow x y = true
  le x y := (isBelow x y || isEqual x y) = true
  beq := isEqual
  ofScientific m s e := number (OfScientific.ofScientific m s e)
  decideLT x y := inferInstanceAs (Decidable (isBelow x y = true))
  decideLE x y := inferInstanceAs (Decidable ((isBelow x y || isEqual x y) = true))
  ofInt n := number n
  abs x := match x with
    | infinite _ => infinite false
    | x => x.onNumber abs
  floor := onNumber fun x ↦ x.floor
  round := onNumber fun x ↦ nearest x
  denote := denote
  precedes := precedes
  shortest _ := shortest
  ofDecimal := ofDecimal
  ofDenotation?
    | .nan => some nan
    | .infinite negative => some (infinite negative)
    | .finite .. => none

/-! ### Finite scalars -/

section Number

variable (x y : ℚ)

@[simp] theorem number_add : (number x + number y : Exact) = number (x + y) := rfl

@[simp] theorem number_sub : (number x - number y : Exact) = number (x - y) := rfl

@[simp] theorem number_mul : (number x * number y : Exact) = number (x * y) := rfl

@[simp] theorem number_neg : (-number x : Exact) = number (-x) := rfl

/-- A quotient is that of the rationals, unless the divisor is zero. -/
theorem number_div (hy : y ≠ 0) : (number x / number y : Exact) = number (x / y) :=
  if_neg hy

@[simp] theorem number_lt : (number x : Exact) < number y ↔ x < y := decide_eq_true_iff

@[simp] theorem number_le : (number x : Exact) ≤ number y ↔ x ≤ y := by
  show (isBelow (number x) (number y) || isEqual (number x) (number y)) = true ↔ x ≤ y
  rw [Bool.or_eq_true, isBelow, isEqual, decide_eq_true_iff, decide_eq_true_iff, le_iff_lt_or_eq]

@[simp] theorem ofScientific_eq (m : ℕ) (s : Bool) (e : ℕ) :
    (OfScientific.ofScientific m s e : Exact) = number (OfScientific.ofScientific m s e) := rfl

@[simp] theorem round_number : Scalar.round (number x) = number (nearest x) := rfl

@[simp] theorem denote_number : Scalar.denote (number x) = .finite (decide (x < 0)) |x| := rfl

@[simp] theorem isFinite_number : Scalar.isFinite (number x) = true := rfl

@[simp] theorem isNaN_number : Scalar.isNaN (number x) = false := rfl

@[simp] theorem max_number : Scalar.max (number x) (number y) = number (max x y) := by
  simp only [Scalar.max, isNaN_number, Bool.false_eq_true, if_false, number_lt]
  split_ifs with h
  · rw [max_eq_left h.le]
  · rw [max_eq_right (not_lt.1 h)]

@[simp] theorem min_number : Scalar.min (number x) (number y) = number (min x y) := by
  simp only [Scalar.min, isNaN_number, Bool.false_eq_true, if_false, number_lt]
  split_ifs with h
  · rw [min_eq_left h.le]
  · rw [min_eq_right (not_lt.1 h)]

/-- A finite scalar is held within finite bounds. -/
@[simp] theorem clamp_number (low high : ℚ) :
    Scalar.clamp (number low) (number high) (number x) =
      number (if x < low then low else if high < x then high else x) := by
  simp only [Scalar.clamp, number_lt]
  split_ifs <;> rfl

end Number

/-- The finite scalars are the rationals. -/
theorem isFinite_iff {x : Exact} : Scalar.isFinite x = true ↔ ∃ q, x = number q := by
  cases x with
  | number q => simp
  | nan => simp [Scalar.isFinite, Scalar.denote, denote, Denotation.isFinite]
  | infinite => simp [Scalar.isFinite, Scalar.denote, denote, Denotation.isFinite]

/-- A scalar that falls back on a finite default is finite. -/
theorem exists_finiteElse (fallback : ℚ) (value : Option Exact) :
    ∃ q, Scalar.finiteElse (number fallback) value = number q := by
  rw [Scalar.finiteElse]
  rcases h : value.filter Scalar.isFinite with - | x
  · exact ⟨fallback, rfl⟩
  · exact isFinite_iff.1 (Option.filter_eq_some_iff.1 h).2

/-! ### Rounding -/

/-- A half is rounded up to one. -/
theorem one_le_nearest_iff {x : ℚ} : 1 ≤ nearest x ↔ 1 / 2 ≤ x := by
  rw [nearest]
  split_ifs with h
  · have hfloor : 0 ≤ (-x + 1 / 2).floor := Rat.le_floor_iff.2 (by push_cast; linarith)
    constructor
    · intro hone
      omega
    · intro hhalf
      linarith
  · rw [Rat.le_floor_iff]
    push_cast
    constructor <;> intro <;> linarith

/-! ### Laws -/

/-- A sign and a magnitude make the rational again. -/
theorem withSign_abs (x : ℚ) : withSign (decide (x < 0)) |x| = x := by
  by_cases h : x < 0
  · simp [withSign, h, abs_of_neg h]
  · simp [withSign, h, abs_of_nonneg (not_lt.1 h)]

@[simp] theorem place?_denote_number (x : ℚ) :
    (Scalar.denote (number x)).place? = some ((x : WithTop ℚ) : WithBot (WithTop ℚ)) := by
  rw [denote_number, Denotation.place?, withSign_abs]

theorem coe_lt_top (x : ℚ) : ((x : WithTop ℚ) : WithBot (WithTop ℚ)) < ⊤ :=
  WithBot.coe_lt_coe.2 (WithTop.coe_lt_top x)

/-- Exact scalars compare by what they denote. -/
theorem isBelow_iff (x y : Exact) :
    isBelow x y = true ↔
      ∃ p ∈ (Scalar.denote x).place?, ∃ q ∈ (Scalar.denote y).place?, p < q := by
  rcases x with - | (- | -) | x <;> rcases y with - | (- | -) | y <;>
    simp [isBelow, Scalar.denote, denote, Denotation.place?, withSign_abs, coe_lt_top]

/-- The same for the order that allows equality. -/
theorem isBelow_or_isEqual_iff (x y : Exact) :
    (isBelow x y || isEqual x y) = true ↔
      ∃ p ∈ (Scalar.denote x).place?, ∃ q ∈ (Scalar.denote y).place?, p ≤ q := by
  rcases x with - | (- | -) | x <;> rcases y with - | (- | -) | y <;>
    simp [isBelow, isEqual, Scalar.denote, denote, Denotation.place?, withSign_abs, coe_lt_top,
      le_iff_lt_or_eq]

instance : LawfulScalar Exact where
  lt_iff := isBelow_iff
  le_iff := isBelow_or_isEqual_iff
  precedes_total x y := by
    rcases x with - | (- | -) | x <;> rcases y with - | (- | -) | y <;>
      simp [Scalar.precedes, precedes, isBelow, isEqual]
    rcases lt_trichotomy x y with h | h | h <;> simp [h]
  precedes_trans x y z := by
    rcases x with - | (- | -) | x <;> rcases y with - | (- | -) | y <;>
      rcases z with - | (- | -) | z <;>
        simp [Scalar.precedes, precedes, isBelow, isEqual, ← le_iff_lt_or_eq]
    exact fun hxy hyz ↦ hxy.trans hyz
  not_lt_of_precedes x y := by
    show precedes x y = true → ¬ isBelow y x = true
    rcases x with - | (- | -) | x <;> rcases y with - | (- | -) | y <;>
      simp [precedes, isBelow, isEqual, ← le_iff_lt_or_eq]
  isNaN_add x y := by
    show _ → _ → Scalar.isNaN (add x y) = false
    rcases x with - | - | x <;> rcases y with - | - | y <;>
      simp [Scalar.isFinite, Scalar.isNaN, Scalar.denote, denote, Denotation.isFinite,
        Denotation.isNaN, add]
  isNaN_sub x y := by
    show _ → _ → Scalar.isNaN (sub x y) = false
    rcases x with - | - | x <;> rcases y with - | - | y <;>
      simp [Scalar.isFinite, Scalar.isNaN, Scalar.denote, denote, Denotation.isFinite,
        Denotation.isNaN, sub, add, neg]
  denote_zero := by decide +kernel
  denote_one := by decide +kernel
  isFinite_hundredth := rfl
  isFinite_twentieth := rfl
  zero_sub_hundredth_lt := by decide +kernel

end Exact

end Splice
