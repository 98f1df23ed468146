import Mathlib.Data.Rat.Floor
import Mathlib.Order.WithBot
import Mathlib.Tactic.Linarith
import Splice.Number.Scalar

/-!
# Lawful scalars

What the library relies on when it compares scalars. A scalar stands at a place on the line of the
rationals between two infinities (`Denotation.place?`), and a value that is no number stands
nowhere. `LawfulScalar` says that comparisons are those of the places, that the total order
`precedes` never contradicts `<`, and when a sum or a difference is a number. Nothing is asked of
rounding, so the laws hold of doubles as well as of exact numbers.

* `le_trans`, `lt_of_le_of_lt`, `le_of_not_lt`: what is left of a linear order when some values are
  no numbers.
* `one_le_toInt64`: a scalar from one on does not truncate to zero. This is what ties a gap that
  rounds to at least one frame to the count of frames in a decision.
-/

namespace Splice

/-- The rational with a sign and a magnitude. -/
def withSign (negative : Bool) (magnitude : ℚ) : ℚ :=
  if negative then -magnitude else magnitude

/-- The place of what is denoted on the line of the rationals between the infinities. -/
def Denotation.place? : Denotation → Option (WithBot (WithTop ℚ))
  | nan => none
  | infinite true => some ⊥
  | infinite false => some ↑(⊤ : WithTop ℚ)
  | finite negative magnitude => some ↑(withSign negative magnitude : WithTop ℚ)

open Scalar (denote isNaN isFinite precedes)

/-- Scalars that are compared by the places of what they denote. -/
class LawfulScalar (α : Type) [Scalar α] : Prop where
  lt_iff (x y : α) :
    x < y ↔ ∃ p ∈ (denote x).place?, ∃ q ∈ (denote y).place?, p < q
  le_iff (x y : α) :
    x ≤ y ↔ ∃ p ∈ (denote x).place?, ∃ q ∈ (denote y).place?, p ≤ q
  precedes_total (x y : α) : (precedes x y || precedes y x) = true
  precedes_trans (x y z : α) :
    precedes x y = true → precedes y z = true → precedes x z = true
  not_lt_of_precedes (x y : α) : precedes x y = true → ¬ y < x
  isNaN_add (x y : α) : isFinite x = true → isNaN y = false → isNaN (x + y) = false
  isNaN_sub (x y : α) : isNaN x = false → isFinite y = true → isNaN (x - y) = false
  denote_zero : denote (0.0 : α) = .finite false 0
  denote_one : denote (1.0 : α) = .finite false 1
  isFinite_hundredth : isFinite (0.01 : α) = true
  isFinite_twentieth : isFinite (0.05 : α) = true
  zero_sub_hundredth_lt : (0.0 - 0.01 : α) < 0.0

/-! ### Places -/

namespace Denotation

/-- The numbers are those with a place. -/
theorem isNaN_eq_false_iff {d : Denotation} : d.isNaN = false ↔ ∃ p, d.place? = some p := by
  cases d with
  | nan => simp [isNaN, place?]
  | infinite negative => cases negative <;> simp [isNaN, place?]
  | finite negative magnitude => simp [isNaN, place?]

theorem isNaN_of_isFinite {d : Denotation} (h : d.isFinite = true) : d.isNaN = false := by
  cases d with
  | finite => rfl
  | nan => cases h
  | infinite => cases h

/-- From the place of one on, truncation gives at least one. -/
theorem one_le_truncateWithin {d : Denotation} {p : WithBot (WithTop ℚ)} {low high : ℤ}
    (hp : d.place? = some p) (h : ((1 : ℚ) : WithTop ℚ) ≤ p) (hhigh : 1 ≤ high) :
    1 ≤ d.truncateWithin low high := by
  cases d with
  | nan => cases hp
  | infinite negative =>
    cases negative with
    | true =>
      obtain rfl : ⊥ = p := Option.some.inj hp
      exact absurd h (by simp)
    | false => exact hhigh
  | finite negative magnitude =>
    obtain rfl : ((withSign negative magnitude : WithTop ℚ) : WithBot (WithTop ℚ)) = p :=
      Option.some.inj hp
    have hone : 1 ≤ withSign negative magnitude := by simpa using h
    -- nothing is known of the magnitude by itself, so both signs have to be looked at
    have hwhole : 1 ≤ if negative then -magnitude.floor else magnitude.floor := by
      cases negative with
      | true =>
        have hneg : 1 ≤ -magnitude := hone
        have hfloor : ((magnitude.floor : ℤ) : ℚ) ≤ ((-1 : ℤ) : ℚ) := by
          have := Rat.floor_le magnitude
          push_cast
          linarith
        have := Int.cast_le.1 hfloor
        simp only [if_true]
        omega
      | false =>
        have hmagnitude : 1 ≤ magnitude := hone
        exact Rat.le_floor_iff.2 (by exact_mod_cast hmagnitude)
    exact le_max_of_le_right (le_min hhigh hwhole)

end Denotation

/-! ### Comparisons -/

namespace Scalar

variable {α : Type} [Scalar α]

theorem isNaN_of_isFinite {x : α} (h : isFinite x = true) : isNaN x = false :=
  Denotation.isNaN_of_isFinite h

/-- The greater of two scalars is a number if the second one is. -/
theorem isNaN_max {x y : α} (hy : isNaN y = false) : isNaN (Scalar.max x y) = false := by
  rw [Scalar.max]
  split_ifs with hx
  · exact hy
  · exact Bool.eq_false_iff.2 hx
  · exact Bool.eq_false_iff.2 hx
  · exact hy

variable [LawfulScalar α] {x y z : α}

theorem le_trans (hxy : x ≤ y) (hyz : y ≤ z) : x ≤ z := by
  obtain ⟨p, hp, q, hq, hpq⟩ := (LawfulScalar.le_iff x y).1 hxy
  obtain ⟨q', hq', r, hr, hqr⟩ := (LawfulScalar.le_iff y z).1 hyz
  obtain rfl : q' = q := Option.mem_unique hq' hq
  exact (LawfulScalar.le_iff x z).2 ⟨p, hp, r, hr, hpq.trans hqr⟩

theorem le_of_lt (h : x < y) : x ≤ y := by
  obtain ⟨p, hp, q, hq, hpq⟩ := (LawfulScalar.lt_iff x y).1 h
  exact (LawfulScalar.le_iff x y).2 ⟨p, hp, q, hq, hpq.le⟩

/-- A chain of comparisons is strict if one of them is. -/
theorem lt_of_le_of_lt (hxy : x ≤ y) (hyz : y < z) : x < z := by
  obtain ⟨p, hp, q, hq, hpq⟩ := (LawfulScalar.le_iff x y).1 hxy
  obtain ⟨q', hq', r, hr, hqr⟩ := (LawfulScalar.lt_iff y z).1 hyz
  obtain rfl : q' = q := Option.mem_unique hq' hq
  exact (LawfulScalar.lt_iff x z).2 ⟨p, hp, r, hr, hpq.trans_lt hqr⟩

/-- No two scalars compare in both ways. -/
theorem not_lt_of_le (hxy : x ≤ y) : ¬ y < x := by
  intro hyx
  obtain ⟨p, hp, q, hq, hpq⟩ := (LawfulScalar.le_iff x y).1 hxy
  obtain ⟨q', hq', p', hp', hqp⟩ := (LawfulScalar.lt_iff y x).1 hyx
  obtain rfl : q' = q := Option.mem_unique hq' hq
  obtain rfl : p' = p := Option.mem_unique hp' hp
  exact absurd hqp (not_lt.2 hpq)

/-- Numbers are ordered linearly. -/
theorem le_of_not_lt (hx : isNaN x = false) (hy : isNaN y = false) (h : ¬ x < y) : y ≤ x := by
  obtain ⟨p, hp⟩ := Denotation.isNaN_eq_false_iff.1 hx
  obtain ⟨q, hq⟩ := Denotation.isNaN_eq_false_iff.1 hy
  refine (LawfulScalar.le_iff y x).2 ⟨q, hq, p, hp, ?_⟩
  by_contra hlt
  exact h ((LawfulScalar.lt_iff x y).2 ⟨p, hp, q, hq, not_le.1 hlt⟩)

theorem le_refl (h : isNaN x = false) : x ≤ x :=
  le_of_not_lt h h fun hlt ↦ not_lt_of_le (le_of_lt hlt) hlt

/-- Of two numbers one is below the other, if it is not the other way round. -/
theorem lt_of_not_le (hx : isNaN x = false) (hy : isNaN y = false) (h : ¬ x ≤ y) : y < x := by
  by_contra hlt
  exact h (le_of_not_lt hy hx hlt)

/-- What is above something is a number. -/
theorem isNaN_of_lt (h : x < y) : isNaN y = false := by
  obtain ⟨-, -, q, hq, -⟩ := (LawfulScalar.lt_iff x y).1 h
  exact Denotation.isNaN_eq_false_iff.2 ⟨q, hq⟩

/-- The lesser of two numbers. -/
theorem min_cases (hx : isNaN x = false) (hy : isNaN y = false) :
    Scalar.min x y = x ∧ x ≤ y ∨ Scalar.min x y = y ∧ y ≤ x := by
  rw [Scalar.min, if_neg (Bool.eq_false_iff.1 hx), if_neg (Bool.eq_false_iff.1 hy)]
  split_ifs with h
  · exact .inl ⟨rfl, le_of_lt h⟩
  · exact .inr ⟨rfl, le_of_not_lt hx hy h⟩

/-- On numbers the total order implies the order. -/
theorem le_of_precedes (hx : isNaN x = false) (hy : isNaN y = false)
    (h : precedes x y = true) : x ≤ y :=
  le_of_not_lt hy hx (LawfulScalar.not_lt_of_precedes x y h)

/-- A scalar from one on is not truncated to zero. -/
theorem one_le_toInt64 (h : (1.0 : α) ≤ x) : 1 ≤ toInt64 x := by
  obtain ⟨p, hp, q, hq, hpq⟩ := (LawfulScalar.le_iff _ _).1 h
  rw [LawfulScalar.denote_one] at hp
  obtain rfl : (((1 : ℚ) : WithTop ℚ) : WithBot (WithTop ℚ)) = p := Option.some.inj hp
  exact Denotation.one_le_truncateWithin hq hpq (by decide)

end Scalar

end Splice
