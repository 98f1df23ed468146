import Splice.Proofs.Number.Digits
import Splice.Render.Session

/-!
# Fresh paths

Intermediate files of different numbers have different paths, whatever their labels are. A name
begins with its number, and the digits of the number end at the first underscore
(`takeWhile_isDigit_freshName`); so the number can be read off the name, and a name never stands for
a path from the root.
-/

namespace Splice

/-- A name is its padded number, an underscore, the label and the extension. -/
theorem toList_freshName (number : Nat) (label extension : String) :
    (freshName number label extension).toList =
      Decimal.padded 3 number ++ '_' :: (label.toList ++ '.' :: extension.toList) := by
  rw [freshName, String.toList_append, String.toList_append, String.toList_append,
    String.toList_append, String.toList_ofList, List.append_assoc, List.append_assoc,
    List.append_assoc]
  rfl

/-- The digits at the front of a name are its number. -/
theorem takeWhile_isDigit_freshName (number : Nat) (label extension : String) :
    (freshName number label extension).toList.takeWhile Char.isDigit =
      Decimal.padded 3 number := by
  rw [toList_freshName,
    List.takeWhile_append_of_pos fun _ h ↦ Decimal.isDigit_of_mem_padded h]
  simp

/-- A name starts with a digit, so it is a path relative to the directory. -/
theorem isAbsolute_freshName (number : Nat) (label extension : String) :
    (Path.mk (freshName number label extension)).isAbsolute = false := by
  rw [Path.isAbsolute, toList_freshName]
  rcases hdigits : Decimal.padded 3 number with - | ⟨c, rest⟩
  · exact absurd hdigits (Decimal.padded_ne_nil 3 number)
  · have hc : c.isDigit = true := Decimal.isDigit_of_mem_padded (hdigits ▸ List.mem_cons_self)
    rw [List.cons_append, List.head?_cons, beq_eq_false_iff_ne]
    intro hslash
    rw [Option.some.inj hslash] at hc
    exact absurd hc (by decide)

/-- In one directory, different children have different paths. -/
theorem Path.eq_of_join_eq {dir : Path} {a b : String} (ha : (Path.mk a).isAbsolute = false)
    (hb : (Path.mk b).isAbsolute = false) (h : dir.join a = dir.join b) : a = b := by
  simp only [join, ha, hb, Bool.false_eq_true, if_false] at h
  split at h
  · exact (String.append_right_inj _).1 (Path.mk.inj h)
  · exact (String.append_right_inj _).1 (Path.mk.inj h)

/-- The path of an intermediate file tells its number. -/
theorem eq_of_join_freshName_eq {dir : Path} {n k : Nat}
    {label label' extension extension' : String}
    (h : dir.join (freshName n label extension) = dir.join (freshName k label' extension')) :
    n = k := by
  have hname := Path.eq_of_join_eq (isAbsolute_freshName _ _ _) (isAbsolute_freshName _ _ _) h
  refine Decimal.padded_injective 3 ?_
  rw [← takeWhile_isDigit_freshName n label extension, hname, takeWhile_isDigit_freshName]

end Splice
