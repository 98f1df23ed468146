import Mathlib.Data.List.Sort

/-!
# Stable sorting

`List.mergeSort` leaves members that come before each other in the order of its argument. Two forms
of this are used: a part of the list in which all members tie is left as it is
(`filter_mergeSort`), and what ties in the sorted list stood in the same order before
(`sublist_of_sublist_mergeSort`). For inductions the sort is an insertion, member after member
(`mergeSort_cons_eq`); the order need not tell different members apart.
-/

namespace Splice

variable {β : Type} {le : β → β → Bool} {l : List β}

/-- Sorting leaves a part of the list as it is, if all members of the part tie. -/
theorem filter_mergeSort (htrans : ∀ a b c, le a b = true → le b c = true → le a c = true)
    (htotal : ∀ a b, (le a b || le b a) = true) {p : β → Bool}
    (h : ∀ a ∈ l, ∀ b ∈ l, p a = true → p b = true → le a b = true) :
    (l.mergeSort le).filter p = l.filter p := by
  have htied : (l.filter p).Pairwise fun a b ↦ le a b = true := by
    refine List.pairwise_of_forall_mem_list fun a ha b hb ↦ ?_
    rw [List.mem_filter] at ha hb
    exact h a ha.1 b hb.1 ha.2 hb.2
  have hsub : ((l.filter p).filter p).Sublist ((l.mergeSort le).filter p) :=
    (List.sublist_mergeSort htrans htotal htied List.filter_sublist).filter p
  rw [List.filter_filter, funext fun a ↦ Bool.and_self (p a)] at hsub
  exact (hsub.eq_of_length ((List.mergeSort_perm l le).filter p).length_eq.symm).symm

/-- Members that tie in the sorted list stood in that order before. -/
theorem sublist_of_sublist_mergeSort
    (htrans : ∀ a b c, le a b = true → le b c = true → le a c = true)
    (htotal : ∀ a b, (le a b || le b a) = true) {tied : List β}
    (hsub : tied.Sublist (l.mergeSort le)) (h : ∀ a ∈ tied, ∀ b ∈ tied, le a b = true) :
    tied.Sublist l := by
  rcases tied with - | ⟨first, tied⟩
  · exact List.nil_sublist l
  -- the class of the first one is the same list before and after sorting
  have hclass : (l.mergeSort le).filter (fun a ↦ le first a && le a first) =
      l.filter fun a ↦ le first a && le a first :=
    filter_mergeSort htrans htotal fun a _ b _ ha hb ↦
      htrans a first b (Bool.and_eq_true_iff.1 ha).2 (Bool.and_eq_true_iff.1 hb).1
  have hall : (first :: tied).filter (fun a ↦ le first a && le a first) = first :: tied := by
    refine List.filter_eq_self.2 fun a ha ↦ Bool.and_eq_true_iff.2 ⟨?_, ?_⟩
    · exact h first List.mem_cons_self a ha
    · exact h a ha first List.mem_cons_self
  have hfilter := hsub.filter fun a ↦ le first a && le a first
  rw [hall, hclass] at hfilter
  exact hfilter.trans List.filter_sublist

/-- Sorting is insertion into what is sorted before. -/
theorem mergeSort_cons_eq
    (htrans : ∀ a b c, le a b = true → le b c = true → le a c = true)
    (htotal : ∀ a b, (le a b || le b a) = true) (a : β) (l : List β) :
    (a :: l).mergeSort le = (l.mergeSort le).orderedInsert (le · · = true) a := by
  obtain ⟨first, last, hmore, hless, hfirst⟩ := List.mergeSort_cons htrans htotal a l
  have hsorted := List.pairwise_mergeSort htrans htotal (a :: l)
  rw [hmore] at hsorted
  have hlast := (List.pairwise_cons.1 (List.pairwise_append.1 hsorted).2.1).1
  rw [hmore, hless]
  clear hmore hless hsorted
  -- what comes before the new member in the sorted list is passed over one by one
  induction first with
  | nil =>
    rcases last with - | ⟨next, rest⟩
    · rfl
    · rw [List.nil_append, List.nil_append, List.orderedInsert_cons,
        if_pos (hlast next List.mem_cons_self)]
  | cons b first ih =>
    obtain ⟨hb, hrest⟩ := List.forall_mem_cons.1 hfirst
    have hnot : ¬ le a b = true := by simpa using hb
    show b :: (first ++ a :: last) = (b :: (first ++ last)).orderedInsert _ a
    rw [List.orderedInsert_cons, if_neg hnot, ih hrest]

end Splice
