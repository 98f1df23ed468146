import Splice.Plan.Composition
import Splice.Proofs.Number.Separated
import Splice.Proofs.Plan.Layers
import Splice.Proofs.Samples

/-!
# The order of tracks

A project lists its clips track after track. The composition sorts them, by start or in the order of
painting, and what it decides beyond that follows from the sorted lists. So it takes the same
decisions for every order of the same clips (`Composition.SameWork`), as long as no tie of two clips
in such a list is left for their order to break (`IsUntied`).

The proof rests on the uniqueness of sorting (`sortByStart_eq`, `sortByPaint_eq`): two lists that
are in order and have the same members are equal if only equal members come before each other. The
one thing that is not sorted is the end of the timeline. It is the greatest end of a clip, and in
doubles a zero among them may have either sign; no entry shows which (`ofBase_congr`).
-/

namespace Splice

open Scalar (isNaN precedes)
open Layers

variable {α : Type} [Scalar α]

/-! ### Sorting is unique -/

section Sorting

variable {β γ : Type} {key : β → γ}

/-- Of two members that agree where a list has no ties, there is only one. -/
theorem eq_of_untied {l : List β} (huntied : l.Pairwise fun a b ↦ key a ≠ key b) {a b : β}
    (ha : a ∈ l) (hb : b ∈ l) (h : key a = key b) : a = b := by
  by_contra hne
  have hsymm : Std.Symm fun a b : β ↦ key a ≠ key b := ⟨fun _ _ ↦ Ne.symm⟩
  exact huntied.forall ha hb hne h

/-- Sorting does not depend on the order of the list, if only equal members tie. -/
theorem mergeSort_eq_of_perm {le : β → β → Bool}
    (htrans : ∀ a b c, le a b = true → le b c = true → le a c = true)
    (htotal : ∀ a b, (le a b || le b a) = true)
    (hantisymm : ∀ a b, le a b = true → le b a = true → key a = key b)
    {l₁ l₂ : List β} (hperm : l₁.Perm l₂)
    (huntied : ∀ a ∈ l₁, ∀ b ∈ l₁, key a = key b → a = b) :
    l₁.mergeSort le = l₂.mergeSort le := by
  have hsame : (l₁.mergeSort le).Perm (l₂.mergeSort le) :=
    ((List.mergeSort_perm l₁ le).trans hperm).trans (List.mergeSort_perm l₂ le).symm
  refine List.Perm.eq_of_pairwise (fun a b ha hb hab hba ↦ ?_)
    (List.pairwise_mergeSort htrans htotal l₁) (List.pairwise_mergeSort htrans htotal l₂) hsame
  have ha : a ∈ l₁ := List.mem_mergeSort.1 ha
  have hb : b ∈ l₁ := hperm.mem_iff.2 (List.mem_mergeSort.1 hb)
  exact huntied a ha b hb (hantisymm a b hab hba)

end Sorting

/-- What decides the order of painting. -/
def Clip.paintKey (clip : Clip α) : Nat × Int × α :=
  (clip.group.rank, clip.layer, clip.startTime)

/-- The order of painting is by group, then by layer, then by start. -/
theorem paintsBefore_iff {a b : Clip α} :
    paintsBefore a b = true ↔
      a.group.rank < b.group.rank ∨ a.group.rank = b.group.rank ∧
        (a.layer < b.layer ∨ a.layer = b.layer ∧ precedes a.startTime b.startTime = true) := by
  rw [paintsBefore]
  rcases lt_trichotomy a.group.rank b.group.rank with hrank | hrank | hrank
  · simp [compare_lt_iff_lt.2 hrank, hrank]
  · rcases lt_trichotomy a.layer b.layer with hlayer | hlayer | hlayer
    · simp [compare_lt_iff_lt.2 hlayer, hrank, hlayer]
    · simp [hrank, hlayer, startsBefore]
    · simp [compare_gt_iff_gt.2 hlayer, hrank, hlayer.not_gt, hlayer.ne']
  · simp [compare_gt_iff_gt.2 hrank, hrank.not_gt, hrank.ne']

section Orders

variable [SeparatedScalar α] {l₁ l₂ : List (Clip α)}

/-- Clips that start apart are sorted to the same list, whatever their order. -/
theorem sortByStart_eq (hperm : l₁.Perm l₂)
    (huntied : l₁.Pairwise fun a b ↦ a.startTime ≠ b.startTime) :
    sortByStart l₁ = sortByStart l₂ :=
  mergeSort_eq_of_perm
    (fun a b c ↦ LawfulScalar.precedes_trans a.startTime b.startTime c.startTime)
    (fun a b ↦ LawfulScalar.precedes_total a.startTime b.startTime)
    (fun a b ↦ SeparatedScalar.precedes_antisymm a.startTime b.startTime) hperm
    fun _ ha _ hb ↦ eq_of_untied huntied ha hb

/-- The order of painting is transitive. -/
theorem paintsBefore_trans (a b c : Clip α) (hab : paintsBefore a b = true)
    (hbc : paintsBefore b c = true) : paintsBefore a c = true := by
  rw [paintsBefore_iff] at *
  have hstart := LawfulScalar.precedes_trans a.startTime b.startTime c.startTime
  rcases hab with hab | ⟨hrank, hab | ⟨hlayer, hab⟩⟩ <;>
    rcases hbc with hbc | ⟨hrank', hbc | ⟨hlayer', hbc⟩⟩ <;>
      first
      | exact .inl (by omega)
      | exact .inr ⟨by omega, .inl (by omega)⟩
      | exact .inr ⟨by omega, .inr ⟨by omega, hstart hab hbc⟩⟩

/-- It compares any two clips. -/
theorem paintsBefore_total (a b : Clip α) : (paintsBefore a b || paintsBefore b a) = true := by
  rw [Bool.or_eq_true, paintsBefore_iff, paintsBefore_iff]
  rcases lt_trichotomy a.group.rank b.group.rank with hrank | hrank | hrank
  · exact .inl (.inl hrank)
  · rcases lt_trichotomy a.layer b.layer with hlayer | hlayer | hlayer
    · exact .inl (.inr ⟨hrank, .inl hlayer⟩)
    · exact (Bool.or_eq_true_iff.1 (LawfulScalar.precedes_total a.startTime b.startTime)).imp
        (fun h ↦ .inr ⟨hrank, .inr ⟨hlayer, h⟩⟩)
        (fun h ↦ .inr ⟨hrank.symm, .inr ⟨hlayer.symm, h⟩⟩)
    · exact .inr (.inr ⟨hrank.symm, .inl hlayer⟩)
  · exact .inr (.inl hrank)

/-- Clips that come before each other agree in group, layer and start. -/
theorem paintKey_eq (a b : Clip α) (hab : paintsBefore a b = true)
    (hba : paintsBefore b a = true) : a.paintKey = b.paintKey := by
  rw [paintsBefore_iff] at *
  obtain ⟨hrank, hlayer, hab, hba⟩ : a.group.rank = b.group.rank ∧ a.layer = b.layer ∧
      precedes a.startTime b.startTime = true ∧ precedes b.startTime a.startTime = true := by
    rcases hab with hab | ⟨hrank, hab | ⟨hlayer, hab⟩⟩ <;>
      rcases hba with hba | ⟨hrank', hba | ⟨hlayer', hba⟩⟩ <;>
        first
        | exact ⟨hrank, hlayer, hab, hba⟩
        | exfalso; omega
  rw [Clip.paintKey, hrank, hlayer, SeparatedScalar.precedes_antisymm _ _ hab hba]
  rfl

/-- Clips that do not tie are painted in one order, whatever the order they are given in. -/
theorem sortByPaint_eq (hperm : l₁.Perm l₂)
    (huntied : ∀ a ∈ l₁, ∀ b ∈ l₁, a.paintKey = b.paintKey → a = b) :
    l₁.mergeSort paintsBefore = l₂.mergeSort paintsBefore :=
  mergeSort_eq_of_perm paintsBefore_trans paintsBefore_total paintKey_eq hperm huntied

end Orders

/-! ### Shares -/

/-- No two clips are left for their order to tell which comes first. -/
structure IsUntied (clips : List (Clip α)) : Prop where
  /-- No two videos of the lowest layer of videos start together. -/
  base : (clips.filter (isCandidate clips)).Pairwise fun a b ↦ a.startTime ≠ b.startTime
  /-- No two clips that can be seen agree in group, layer and start. -/
  visible : (clips.filter (!·.isAudio)).Pairwise fun a b ↦ a.paintKey ≠ b.paintKey
  /-- No two sounds start together. -/
  audio : (clips.filter Clip.isAudio).Pairwise fun a b ↦ a.startTime ≠ b.startTime

section Shares

/-- Which clips are candidates for the base does not depend on the order. -/
theorem isCandidate_eq_of_perm {β : Type} {clips₁ clips₂ : List (Clip β)}
    (hperm : clips₁.Perm clips₂) : isCandidate clips₁ = isCandidate clips₂ := by
  funext clip
  rw [isCandidate, isCandidate, hperm.all_eq]

/-- Neither does the lowest layer. -/
theorem lowest?_eq_of_perm {β : Type} {clips₁ clips₂ : List (Clip β)} (hperm : clips₁.Perm clips₂) :
    lowest? clips₁ = lowest? clips₂ := by
  have hlayers := hperm.map Clip.layer
  refine Option.ext fun layer ↦ ?_
  rw [lowest?, lowest?, List.min?_eq_some_iff, List.min?_eq_some_iff]
  simp only [hlayers.mem_iff]

variable [SeparatedScalar α] {clips₁ clips₂ : List (Clip α)}

/-- The shares of clips do not depend on their order. -/
theorem ofClips_eq_of_perm (hperm : clips₁.Perm clips₂) (huntied : IsUntied clips₁) (fps : α) :
    ofClips clips₁ fps = ofClips clips₂ fps := by
  have hvideos : (clips₁.filter Clip.isVideo).Perm (clips₂.filter Clip.isVideo) :=
    hperm.filter _
  have hlowest := lowest?_eq_of_perm hvideos
  have hcandidates : (clips₁.filter (isCandidate clips₁)).Perm
      (clips₂.filter (isCandidate clips₂)) := by
    rw [← isCandidate_eq_of_perm hperm]
    exact hperm.filter _
  have hscan : scanOf clips₁ fps = scanOf clips₂ fps := by
    rw [scanOf, scanOf, sortByStart_eq hcandidates huntied.base]
  have haudio : sortByStart (clips₁.filter Clip.isAudio) =
      sortByStart (clips₂.filter Clip.isAudio) :=
    sortByStart_eq (hperm.filter _) huntied.audio
  -- what is painted is sorted from clips that can be seen
  have hvisible : ∀ clip ∈ (ofClips clips₁ fps).overlays,
      clip ∈ clips₁.filter (!·.isAudio) := by
    intro clip hclip
    refine List.mem_filter.2 ⟨(perm_ofClips clips₁ fps).subset ?_, ?_⟩
    · exact List.mem_append_left _ (List.mem_append_right _ hclip)
    · rw [isAudio_of_mem_overlays clips₁ fps hclip]
      rfl
  rw [ofClips_eq] at hvisible
  rw [ofClips_eq, ofClips_eq, ← hscan, ← hlowest, haudio]
  congr 1
  refine sortByPaint_eq (((hvideos.filter _).append_right _).append (hperm.filter _))
    fun a ha b hb ↦ ?_
  exact eq_of_untied huntied.visible (hvisible a (List.mem_mergeSort.2 ha))
    (hvisible b (List.mem_mergeSort.2 hb))

end Shares

/-! ### The end of the timeline -/

section TimelineEnd

variable [LawfulScalar α]

/-- The greater of a number and another scalar. -/
theorem Scalar.max_spec {x y : α} (hx : isNaN x = false) :
    isNaN (Scalar.max x y) = false ∧ x ≤ Scalar.max x y ∧
      (isNaN y = false → y ≤ Scalar.max x y) ∧ (Scalar.max x y = x ∨ Scalar.max x y = y) := by
  rw [Scalar.max, if_neg (Bool.eq_false_iff.1 hx)]
  split_ifs with hy hlt
  · exact ⟨hx, Scalar.le_refl hx, fun h ↦ absurd hy (Bool.eq_false_iff.1 h), .inl rfl⟩
  · exact ⟨hx, Scalar.le_refl hx, fun _ ↦ Scalar.le_of_lt hlt, .inl rfl⟩
  · have hy : isNaN y = false := Bool.eq_false_iff.2 hy
    exact ⟨hy, Scalar.le_of_not_lt hy hx hlt, fun _ ↦ Scalar.le_refl hy, .inr rfl⟩

/-- The greatest of some scalars and a number, where a value that is no number does not count. -/
theorem foldl_max_spec (values : List α) {initial : α} (h : isNaN initial = false) :
    isNaN (values.foldl Scalar.max initial) = false ∧
      initial ≤ values.foldl Scalar.max initial ∧
      (∀ value ∈ values, isNaN value = false → value ≤ values.foldl Scalar.max initial) ∧
      (values.foldl Scalar.max initial = initial ∨ values.foldl Scalar.max initial ∈ values) := by
  induction values generalizing initial with
  | nil => exact ⟨h, Scalar.le_refl h, nofun, .inl rfl⟩
  | cons value values ih =>
    obtain ⟨hmax, hleft, hright, hwhich⟩ := Scalar.max_spec (y := value) h
    obtain ⟨hnumber, hle, hvalues, hmem⟩ := ih hmax
    rw [List.foldl_cons]
    refine ⟨hnumber, Scalar.le_trans hleft hle, fun other hother hnan ↦ ?_, ?_⟩
    · rcases List.mem_cons.1 hother with rfl | hother
      · exact Scalar.le_trans (hright hnan) hle
      · exact hvalues other hother hnan
    · rcases hmem with heq | hmem
      · rw [heq]
        exact hwhich.imp_right fun hvalue ↦ List.mem_cons.2 (.inl hvalue)
      · exact .inr (List.mem_cons_of_mem _ hmem)

theorem isNaN_zero : isNaN (0.0 : α) = false := by
  rw [Scalar.isNaN, LawfulScalar.denote_zero]
  rfl

namespace Project

variable {p q : Project α}

/-- The timeline ends at a number. -/
theorem isNaN_timelineEnd (p : Project α) : isNaN p.timelineEnd = false :=
  (foldl_max_spec (p.clips.map Clip.endTime) isNaN_zero).1

/-- It does not end before zero. -/
theorem zero_le_timelineEnd (p : Project α) : 0.0 ≤ p.timelineEnd :=
  (foldl_max_spec (p.clips.map Clip.endTime) isNaN_zero).2.1

/-- It does not end before any clip does, unless the end of the clip is no number. -/
theorem endTime_le_timelineEnd {clip : Clip α} (hclip : clip ∈ p.clips)
    (hend : isNaN clip.endTime = false) : clip.endTime ≤ p.timelineEnd :=
  (foldl_max_spec (p.clips.map Clip.endTime) isNaN_zero).2.2.1 _ (List.mem_map_of_mem hclip) hend

/-- A bound of zero and of all ends is a bound of the end of the timeline. -/
theorem timelineEnd_le {bound : α} (hzero : 0.0 ≤ bound)
    (hends : ∀ clip ∈ p.clips, isNaN clip.endTime = false → clip.endTime ≤ bound) :
    p.timelineEnd ≤ bound := by
  obtain ⟨hnumber, -, -, hwhich⟩ := foldl_max_spec (p.clips.map Clip.endTime) isNaN_zero
  show (p.clips.map Clip.endTime).foldl Scalar.max 0.0 ≤ bound
  rcases hwhich with heq | hmem
  · rw [heq]
    exact hzero
  · obtain ⟨clip, hclip, heq⟩ := List.mem_map.1 hmem
    rw [← heq] at hnumber ⊢
    exact hends clip hclip hnumber

/-- The end of the timeline is the same number for every order of the clips. -/
theorem timelineEnd_le_of_perm (hperm : p.clips.Perm q.clips) : p.timelineEnd ≤ q.timelineEnd :=
  timelineEnd_le q.zero_le_timelineEnd fun _ hclip hend ↦
    endTime_le_timelineEnd (hperm.mem_iff.1 hclip) hend

end Project

end TimelineEnd

/-! ### Entries -/

section Entries

variable [SeparatedScalar α] {s t : α}

/-- What is compared is a number on both sides. -/
theorem isNaN_of_le {x y : α} (h : x ≤ y) : isNaN x = false ∧ isNaN y = false := by
  obtain ⟨p, hp, q, hq, -⟩ := (LawfulScalar.le_iff x y).1 h
  have hx : isNaN x = false := Denotation.isNaN_eq_false_iff.2 ⟨p, hp⟩
  have hy : isNaN y = false := Denotation.isNaN_eq_false_iff.2 ⟨q, hq⟩
  exact ⟨hx, hy⟩

/-- A gap up to a zero does not show the sign of the zero. -/
theorem Cursor.gapUntil?_congr (hst : s ≤ t) (hts : t ≤ s) (c : Cursor α) :
    c.gapUntil? s = c.gapUntil? t := by
  have hzero : (0.0 : α) < tolerance := SeparatedScalar.zero_lt_hundredth
  by_cases hs : tolerance < s - c.position
  · have heq : s - c.position = t - c.position :=
      SeparatedScalar.sub_congr s t _ hst hts (Scalar.lt_of_le_of_lt (Scalar.le_of_lt hzero) hs)
    rw [Cursor.gapUntil?, Cursor.gapUntil?, heq]
  · have ht : ¬ tolerance < t - c.position := fun ht ↦ by
      have heq : t - c.position = s - c.position :=
        SeparatedScalar.sub_congr t s _ hts hst (Scalar.lt_of_le_of_lt (Scalar.le_of_lt hzero) ht)
      exact hs (heq ▸ ht)
    rw [Cursor.gapUntil?, Cursor.gapUntil?, if_neg fun h ↦ hs h.1, if_neg fun h ↦ ht h.1]

theorem zero_lt_of_one_lt {x : α} (h : 1.0 < x) : 0.0 < x := by
  have hzero : (0.0 : α) ≤ 1.0 := by
    rw [LawfulScalar.le_iff, LawfulScalar.denote_zero, LawfulScalar.denote_one]
    exact ⟨_, rfl, _, rfl, by simp [withSign]⟩
  exact Scalar.lt_of_le_of_lt hzero h

/-- The greater of a zero and one does not show it either. -/
theorem max_one_congr (hst : s ≤ t) (hts : t ≤ s) : Scalar.max s (1.0 : α) = Scalar.max t 1.0 := by
  obtain ⟨hs, ht⟩ := isNaN_of_le hst
  have hone : isNaN (1.0 : α) = false := by
    rw [Scalar.isNaN, LawfulScalar.denote_one]
    rfl
  have hmax {x : α} (hx : isNaN x = false) :
      Scalar.max x (1.0 : α) = if 1.0 < x then x else 1.0 := by
    rw [Scalar.max, if_neg (Bool.eq_false_iff.1 hx), if_neg (Bool.eq_false_iff.1 hone)]
  rw [hmax hs, hmax ht]
  by_cases hlt : 1.0 < s
  · have heq : s = t := SeparatedScalar.eq_of_pos s t (zero_lt_of_one_lt hlt) hst hts
    rw [heq]
  · have hlt' : ¬ 1.0 < t := fun h ↦
      hlt (SeparatedScalar.eq_of_pos t s (zero_lt_of_one_lt h) hts hst ▸ h)
    rw [if_neg hlt, if_neg hlt']

/-- So the entries up to the end do not show it. -/
theorem Entry.fillFrom_congr (hst : s ≤ t) (hts : t ≤ s) (cursor : Cursor α) (index : ℕ)
    (clips : List (Clip α)) :
    Entry.fillFrom s cursor index clips = Entry.fillFrom t cursor index clips := by
  induction clips generalizing cursor index with
  | nil =>
    rw [Entry.fillFrom, Entry.fillFrom, Entry.fill, Entry.fill, cursor.gapUntil?_congr hst hts]
  | cons clip clips ih => rw [Entry.fillFrom, Entry.fillFrom, ih]

/-- The entries do not show the sign of a zero at which the timeline ends. -/
theorem Entry.ofBase_congr (hst : s ≤ t) (hts : t ≤ s) (base : List (Clip α)) (fps : α) :
    Entry.ofBase base s fps = Entry.ofBase base t fps := by
  rw [Entry.ofBase, Entry.ofBase, Entry.leastBlank, max_one_congr hst hts,
    Entry.fillFrom_congr hst hts]

end Entries

/-! ### Compositions -/

/-- Two compositions with the same decisions. -/
structure Composition.SameWork (c d : Composition α) : Prop where
  canvas : c.canvas = d.canvas
  /-- The timelines end at the same number of seconds. -/
  timelineEnd : c.timelineEnd ≤ d.timelineEnd ∧ d.timelineEnd ≤ c.timelineEnd
  /-- The base, the paint list, the sounds and the demotions are the same. -/
  layers : c.layers = d.layers
  entries : c.entries = d.entries
  decisions : c.decisions = d.decisions

/-- Projects with the same clips, in whatever order and on whatever tracks, have the same
composition. -/
theorem Composition.sameWork_of_perm [SeparatedScalar α] {p q : Project α}
    (hperm : p.clips.Perm q.clips) (huntied : IsUntied p.clips) (canvas : Canvas α) :
    (ofProject p canvas).SameWork (ofProject q canvas) := by
  have hlayers := ofClips_eq_of_perm hperm huntied canvas.fps
  have hle := Project.timelineEnd_le_of_perm hperm
  have hge := Project.timelineEnd_le_of_perm hperm.symm
  refine ⟨rfl, ⟨hle, hge⟩, hlayers, ?_, ?_⟩
  · show Entry.ofBase (ofClips p.clips canvas.fps).base _ _ = Entry.ofBase _ _ _
    rw [hlayers]
    exact Entry.ofBase_congr hle hge _ _
  · show EdgeDecision.ofBase (ofClips p.clips canvas.fps).base _ = EdgeDecision.ofBase _ _
    rw [hlayers]

/-- Clips that are moved to two other tracks, in doubles. -/
theorem Composition.sameWork_sample :
    (Sample.project : Project Float).clips.Perm
      (⟨[⟨some "new", Sample.clips.drop 2⟩, ⟨none, Sample.clips.take 2⟩], none⟩ :
        Project Float).clips ∧
    IsUntied (Sample.project : Project Float).clips ∧
      (ofProject (Sample.project : Project Float) Sample.canvas).SameWork
        (ofProject ⟨[⟨some "new", Sample.clips.drop 2⟩, ⟨none, Sample.clips.take 2⟩], none⟩
          Sample.canvas) := by
  have hperm : (Sample.project : Project Float).clips.Perm
      (⟨[⟨some "new", Sample.clips.drop 2⟩, ⟨none, Sample.clips.take 2⟩], none⟩ :
        Project Float).clips := by
    show List.Perm (Sample.clips.take 2 ++ Sample.clips.drop 2)
      (Sample.clips.drop 2 ++ Sample.clips.take 2)
    exact List.perm_append_comm
  have huntied : IsUntied (Sample.project : Project Float).clips :=
    ⟨by decide +kernel, by decide +kernel, by decide +kernel⟩
  exact ⟨hperm, huntied, sameWork_of_perm hperm huntied Sample.canvas⟩

end Splice
