import Splice.Proofs.Number.Doubles
import Splice.Proofs.Number.Exact

/-!
# Scalars that are equal

Two scalars at one place need not be the same scalar: doubles have two zeros. `SeparatedScalar` says
that this is the only exception, that the total order tells even the zeros apart, and that a
difference which is not zero does not show the sign of a zero it was taken from.

For doubles, all of it comes from the bits: the total order reads them as an integer (`place_inj`),
and doubles that compare as equal have equal fields or are zeros (`eq_or_zero`).
-/

namespace Splice

open Scalar (isNaN denote precedes)

/-- Scalars that are told apart by their order, up to the sign of a zero. -/
class SeparatedScalar (α : Type) [Scalar α] : Prop extends LawfulScalar α where
  precedes_antisymm (x y : α) : precedes x y = true → precedes y x = true → x = y
  eq_of_pos (x y : α) : 0.0 < x → x ≤ y → y ≤ x → x = y
  sub_congr (x y z : α) : x ≤ y → y ≤ x → 0.0 < x - z → x - z = y - z
  zero_lt_hundredth : (0.0 : α) < 0.01

/-! ### Exact scalars -/

namespace Exact

/-- Exact scalars at one place are the same. -/
theorem eq_of_le_of_le {x y : Exact} (hxy : x ≤ y) (hyx : y ≤ x) : x = y := by
  have hxy' : (isBelow x y || isEqual x y) = true := hxy
  have hyx' : (isBelow y x || isEqual y x) = true := hyx
  rcases x with - | (- | -) | x <;> rcases y with - | (- | -) | y <;>
    simp_all [isBelow, isEqual]
  rcases hxy' with h | h
  · rcases hyx' with h' | h'
    · exact absurd h h'.not_gt
    · exact h'.symm
  · exact h

instance : SeparatedScalar Exact where
  precedes_antisymm x y := by
    show precedes x y = true → precedes y x = true → x = y
    intro hxy hyx
    rcases x with - | x | x
    case nan => cases y <;> first | rfl | cases hxy
    all_goals
      rcases y with - | y | y
      case nan => cases hyx
      all_goals exact eq_of_le_of_le hxy hyx
  eq_of_pos _ _ _ := eq_of_le_of_le
  sub_congr _ _ _ hxy hyx _ := by rw [eq_of_le_of_le hxy hyx]
  zero_lt_hundredth := by decide +kernel

end Exact

/-! ### Doubles -/

namespace Binary64

open Float.Model Float.Model.UnpackedFloat

/-- Doubles at one place of the total order have the same bits. -/
theorem place_inj {x y : Float} (h : place x = place y) : x = y := by
  rw [← Float.toBits_inj, ← UInt64.toNat_inj]
  have hx := x.toBits.toNat_lt
  have hy := y.toBits.toNat_lt
  simp only [place, isNegative, payload, Word.half64] at h
  split_ifs at h <;> simp only [ge_iff_le, decide_eq_true_eq] at * <;> omega

/-- Doubles that compare as equal have the same bits or are zeros. -/
theorem unpackedPlace_eq {u v : UnpackedFloat} (hu : Canonical u) (hv : Canonical v)
    (h : u.compare v = some .eq) :
    unpackedPlace u = unpackedPlace v ∨ (∃ s, u = .zero s) ∧ ∃ t, v = .zero t := by
  -- doubles of different kinds or signs compare as different, unless both are zeros
  cases hu with
  | notANumber => cases h
  | infinity s =>
    cases hv with
    | notANumber => cases h
    | infinity t => cases s <;> cases t <;> first | exact .inl rfl | cases h
    | zero t => cases s <;> cases h
    | finite t hn l => cases s <;> cases h
  | zero s =>
    cases hv with
    | notANumber => cases h
    | infinity t => cases t <;> cases h
    | zero t => exact .inr ⟨⟨s, rfl⟩, t, rfl⟩
    | finite t hn l => cases t <;> cases h
  | finite s hm k =>
    cases hv with
    | notANumber => cases h
    | infinity t => cases t <;> cases h
    | zero t => cases s <;> cases h
    | finite t hn l =>
      have hfields {m₁ m₂ : ℕ} {e₁ e₂ : ℤ} (heq : (compare e₁ e₂).then (compare m₁ m₂) = .eq) :
          e₁ = e₂ ∧ m₁ = m₂ := by
        rw [Ordering.then_eq_eq, compare_eq_iff_eq, compare_eq_iff_eq] at heq
        exact heq
      cases s with
      | positive =>
        cases t with
        | positive =>
          obtain ⟨rfl, rfl⟩ := hfields (Option.some.inj h)
          exact .inl rfl
        | negative => cases h
      | negative =>
        cases t with
        | positive => cases h
        | negative =>
          obtain ⟨rfl, rfl⟩ := hfields (Ordering.swap_eq_eq.1 (Option.some.inj h))
          exact .inl rfl

/-- Doubles that compare as equal are the same or zeros. -/
theorem eq_or_zero {x y : Float} (hxy : x ≤ y) (hyx : y ≤ x) :
    x = y ∨ (∃ s, x.toModel.unpack = .zero s) ∧ ∃ t, y.toModel.unpack = .zero t := by
  obtain ⟨p, hp, q, hq, hpq⟩ := (le_iff x y).1 hxy
  obtain ⟨q', hq', p', hp', hqp⟩ := (le_iff y x).1 hyx
  obtain rfl : q' = q := Option.mem_unique hq' hq
  obtain rfl : p' = p := Option.mem_unique hp' hp
  obtain rfl : p' = q' := le_antisymm hpq hqp
  have hx : Scalar.isNaN x = false := Denotation.isNaN_eq_false_iff.2 ⟨_, hp⟩
  have hy : Scalar.isNaN y = false := Denotation.isNaN_eq_false_iff.2 ⟨_, hq⟩
  rw [denote_eq] at hp hq
  have hcompare : x.toModel.unpack.compare y.toModel.unpack = some .eq := by
    rw [compare_eq_place (canonical_unpack x) (canonical_unpack y) hp hq,
      compare_eq_iff_eq.2 rfl]
  refine (unpackedPlace_eq (canonical_unpack x) (canonical_unpack y) hcompare).imp_left fun h ↦ ?_
  exact place_inj (by rw [place_eq x hx, place_eq y hy, h])

/-- No zero is above zero. -/
theorem not_lt_zero {x : Float} {s : Sign} (h : x.toModel.unpack = .zero s) : ¬ 0.0 < x := by
  intro hlt
  obtain ⟨p, hp, q, hq, hpq⟩ := (lt_iff _ _).1 hlt
  have hzero : denote 0.0 = .finite false 0 := by decide +kernel
  rw [hzero] at hp
  rw [denote_eq, h] at hq
  obtain rfl := Option.some.inj hp
  obtain rfl := Option.some.inj hq
  rw [withSign_zero, withSign_zero] at hpq
  exact lt_irrefl _ hpq

/-- What is taken from a zero does not show the sign of the zero, unless it is a zero itself. -/
theorem sub_congr {x y z : Float} (hxy : x ≤ y) (hyx : y ≤ x) (h : 0.0 < x - z) :
    x - z = y - z := by
  rcases eq_or_zero hxy hyx with rfl | ⟨⟨s, hs⟩, t, ht⟩
  · rfl
  have hsub {u : Float} {r : Sign} (hu : u.toModel.unpack = .zero r) :
      u - z = Float.ofModel (Float.Model.pack (UnpackedFloat.sub .binary64 (.zero r)
        z.toModel.unpack)) := by
    rw [← hu]
    rfl
  rw [hsub hs] at h ⊢
  rw [hsub ht]
  generalize z.toModel.unpack = w at h
  rcases w with - | r | r | ⟨r, m, e, hm⟩
  case zero =>
    have hzeros : ¬ (0.0 : Float) < Float.ofModel (Float.Model.pack
        (UnpackedFloat.sub .binary64 (.zero s) (.zero r))) := by
      cases s <;> cases r <;> decide +kernel
    exact absurd h hzeros
  all_goals rfl

instance : SeparatedScalar Float where
  precedes_antisymm x y hxy hyx :=
    place_inj (le_antisymm (of_decide_eq_true hxy) (of_decide_eq_true hyx))
  eq_of_pos x y h hxy hyx := by
    rcases eq_or_zero hxy hyx with heq | ⟨⟨s, hs⟩, -⟩
    · exact heq
    · exact absurd h (not_lt_zero hs)
  sub_congr _ _ _ := sub_congr
  zero_lt_hundredth := by decide +kernel

end Binary64

end Splice
