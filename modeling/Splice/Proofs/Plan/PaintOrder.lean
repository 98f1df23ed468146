import Splice.Proofs.Plan.TrackOrder
import Splice.Proofs.Sorting

/-!
# The order of painting

Overlays are painted by group, layer and start. Where two of them agree in all three, the order of
the clips should decide (`Layers.KeepsDocumentOrder`), and the sort is stable. It does not decide,
because what is sorted is not the list of clips: the other videos come first in it, then the demoted
ones, then everything else. So a video can be painted under a title that stands before it
(`not_keepsDocumentOrder_titled`).

What holds of every list of clips is `Layers.PaintsInOrder`: overlays that tie and are all videos,
or all no videos, keep their order, and of a tie between the two kinds the videos are painted first.
Tied videos come from one part of the sorted list only, since a demoted video is on the lowest layer
and the others are not.
-/

namespace Splice

open Scalar (precedes)

/-! ### Sublists of concatenations -/

section Append

variable {β : Type} {l l₁ l₂ : List β} {a b : β}

/-- A sublist of two lists that has nothing of the second one is a sublist of the first one. -/
theorem sublist_of_append_left (h : l.Sublist (l₁ ++ l₂)) (hnot : ∀ a ∈ l, a ∉ l₂) :
    l.Sublist l₁ := by
  obtain ⟨left, right, rfl, hleft, hright⟩ := List.sublist_append_iff.1 h
  have hnil : right = [] := List.eq_nil_iff_forall_not_mem.2 fun a ha ↦
    hnot a (List.mem_append_right _ ha) (hright.subset ha)
  rw [hnil, List.append_nil]
  exact hleft

/-- And the other way round. -/
theorem sublist_of_append_right (h : l.Sublist (l₁ ++ l₂)) (hnot : ∀ a ∈ l, a ∉ l₁) :
    l.Sublist l₂ := by
  obtain ⟨left, right, rfl, hleft, hright⟩ := List.sublist_append_iff.1 h
  have hnil : left = [] := List.eq_nil_iff_forall_not_mem.2 fun a ha ↦
    hnot a (List.mem_append_left _ ha) (hleft.subset ha)
  rw [hnil]
  exact hright

/-- What stands before a member of the first part is in the first part. -/
theorem mem_left_of_pair_sublist (h : [a, b].Sublist (l₁ ++ l₂)) (hb : b ∉ l₂) : a ∈ l₁ := by
  obtain ⟨left, right, hsplit, hleft, hright⟩ := List.sublist_append_iff.1 h
  rcases left with - | ⟨first, left⟩
  · have hmem : b ∈ right := by
      rw [← List.nil_append right, ← hsplit]
      simp
    exact absurd (hright.subset hmem) hb
  · obtain ⟨rfl, -⟩ := List.cons.inj hsplit
    exact hleft.subset List.mem_cons_self

end Append

namespace Layers

variable {α : Type} [Scalar α]

/-- Overlays that agree in group, layer and start stand in the order of the clips. -/
def KeepsDocumentOrder (clips overlays : List (Clip α)) : Prop :=
  ∀ a b, [a, b].Sublist overlays → a.paintKey = b.paintKey → [a, b].Sublist clips

/-- The order of the overlays of some clips. -/
structure PaintsInOrder (clips overlays : List (Clip α)) : Prop where
  /-- They are in the order of group, layer and start. -/
  sorted : overlays.Pairwise fun a b ↦ a.group.rank < b.group.rank ∨
    a.group.rank = b.group.rank ∧ (a.layer < b.layer ∨
      a.layer = b.layer ∧ precedes a.startTime b.startTime = true)
  /-- Tied videos stand in the order of the clips, and so does everything else that ties. -/
  alike : ∀ tied : List (Clip α), tied.Sublist overlays →
    (∀ a ∈ tied, ∀ b ∈ tied, a.paintKey = b.paintKey ∧ a.isVideo = b.isVideo) →
      tied.Sublist clips
  /-- Videos are painted before what else ties with them. -/
  videos_first : ∀ a b, [a, b].Sublist overlays → a.paintKey = b.paintKey → b.isVideo = true →
    a.isVideo = true

/-! ### The list that is sorted -/

/-- The videos that are no candidates for the base. -/
def above {β : Type} (clips : List (Clip β)) : List (Clip β) :=
  (clips.filter Clip.isVideo).filter (!some ·.layer == lowest? (clips.filter Clip.isVideo))

/-- The candidates for the base that are not placed in it. -/
def demoted (clips : List (Clip α)) (fps : α) : List (Clip α) :=
  (refused (scanOf clips fps)).map Prod.fst

section Kinds

variable {β : Type} {clips : List (Clip β)} {clip : Clip β}

theorem above_sublist (clips : List (Clip β)) : (above clips).Sublist clips :=
  List.filter_sublist.trans List.filter_sublist

theorem isVideo_of_mem_above (h : clip ∈ above clips) : clip.isVideo = true :=
  (List.mem_filter.1 (List.mem_filter.1 h).1).2

/-- The videos above the base are not on the lowest layer of videos. -/
theorem layer_of_mem_above (h : clip ∈ above clips) :
    some clip.layer ≠ lowest? (clips.filter Clip.isVideo) := by
  have hlayer := (List.mem_filter.1 h).2
  simpa using hlayer

theorem isVideo_of_mem_graphics (h : clip ∈ clips.filter Clip.isGraphic) :
    clip.isVideo = false := by
  have hgraphic := (Bool.and_eq_true_iff.1 (List.mem_filter.1 h).2).1
  simpa using hgraphic

end Kinds

section Parts

variable {clips tied : List (Clip α)} {fps : α} {clip : Clip α}

/-- What is sorted is the videos above the base, then the demoted ones, then the graphics. -/
theorem overlays_eq (clips : List (Clip α)) (fps : α) :
    (ofClips clips fps).overlays =
      (above clips ++ demoted clips fps ++ clips.filter Clip.isGraphic).mergeSort paintsBefore := by
  rw [ofClips_eq]
  rfl

theorem refused_sublist {β : Type} (scan : List (Clip β × Option β)) :
    ((refused scan).map Prod.fst).Sublist (scan.map Prod.fst) := by
  induction scan with
  | nil => exact .slnil
  | cons turn rest ih =>
    rcases turn with ⟨clip, - | cursor⟩
    · exact ih.cons clip
    · exact ih.cons_cons clip

/-- The demoted videos keep the order of starts. -/
theorem demoted_sublist (clips : List (Clip α)) (fps : α) :
    (demoted clips fps).Sublist (sortByStart (clips.filter (isCandidate clips))) := by
  rw [← map_fst_scanOf]
  exact refused_sublist _

/-- A demoted video is a video of the lowest layer. -/
theorem mem_of_mem_demoted (h : clip ∈ demoted clips fps) :
    clip ∈ (clips.filter Clip.isVideo).filter
      fun clip ↦ some clip.layer == lowest? (clips.filter Clip.isVideo) := by
  rw [filter_lowest]
  exact (sortByStart_perm _).subset ((demoted_sublist clips fps).subset h)

theorem isVideo_of_mem_demoted (h : clip ∈ demoted clips fps) : clip.isVideo = true :=
  (List.mem_filter.1 (List.mem_filter.1 (mem_of_mem_demoted h)).1).2

theorem layer_of_mem_demoted (h : clip ∈ demoted clips fps) :
    some clip.layer = lowest? (clips.filter Clip.isVideo) :=
  beq_iff_eq.1 (List.mem_filter.1 (mem_of_mem_demoted h)).2

/-- Graphics that tie stand in the order of the clips, as they all come from the last part. -/
theorem sublist_of_not_videos
    (hsub : tied.Sublist (above clips ++ demoted clips fps ++ clips.filter Clip.isGraphic))
    (hvideo : ∀ a ∈ tied, a.isVideo = false) : tied.Sublist clips := by
  refine (sublist_of_append_right hsub fun a ha hmem ↦ ?_).trans List.filter_sublist
  have htrue : a.isVideo = true :=
    (List.mem_append.1 hmem).elim isVideo_of_mem_above isVideo_of_mem_demoted
  exact Bool.false_ne_true ((hvideo a ha).symm.trans htrue)

end Parts

/-! ### Ties -/

section Ties

variable [SeparatedScalar α] {clips tied : List (Clip α)} {fps : α}

/-- Of overlays that tie, each comes before the other. -/
theorem paintsBefore_of_paintKey_eq {a b : Clip α} (h : a.paintKey = b.paintKey) :
    paintsBefore a b = true := by
  obtain ⟨hrank, hrest⟩ := Prod.mk.inj h
  obtain ⟨hlayer, hstart⟩ := Prod.mk.inj hrest
  rw [paintsBefore_iff]
  refine .inr ⟨hrank, .inr ⟨hlayer, ?_⟩⟩
  rw [hstart]
  exact (Bool.or_self _).symm.trans (LawfulScalar.precedes_total _ _)

/-- Overlays that tie stood in the same order before they were sorted. -/
theorem sublist_parts (hsub : tied.Sublist (ofClips clips fps).overlays)
    (h : ∀ a ∈ tied, ∀ b ∈ tied, a.paintKey = b.paintKey) :
    tied.Sublist (above clips ++ demoted clips fps ++ clips.filter Clip.isGraphic) := by
  rw [overlays_eq] at hsub
  exact sublist_of_sublist_mergeSort paintsBefore_trans paintsBefore_total hsub
    fun a ha b hb ↦ paintsBefore_of_paintKey_eq (h a ha b hb)

/-- Demoted videos that start together keep their order. -/
theorem sublist_of_sublist_demoted (hsub : tied.Sublist (demoted clips fps))
    (h : ∀ a ∈ tied, ∀ b ∈ tied, a.startTime = b.startTime) : tied.Sublist clips := by
  have hsorted := hsub.trans (demoted_sublist clips fps)
  refine (sublist_of_sublist_mergeSort
    (fun a b c ↦ LawfulScalar.precedes_trans a.startTime b.startTime c.startTime)
    (fun a b ↦ LawfulScalar.precedes_total a.startTime b.startTime) hsorted
    fun a ha b hb ↦ ?_).trans List.filter_sublist
  show precedes a.startTime b.startTime = true
  rw [h a ha b hb]
  exact (Bool.or_self _).symm.trans (LawfulScalar.precedes_total _ _)

/-- Videos that tie stand in the order of the clips, as they all come from one of the first two
parts. -/
theorem sublist_of_videos
    (hsub : tied.Sublist (above clips ++ demoted clips fps ++ clips.filter Clip.isGraphic))
    (h : ∀ a ∈ tied, ∀ b ∈ tied, a.paintKey = b.paintKey) (hvideo : ∀ a ∈ tied, a.isVideo = true) :
    tied.Sublist clips := by
  have hvideos : tied.Sublist (above clips ++ demoted clips fps) :=
    sublist_of_append_left hsub fun a ha hgraphic ↦
      Bool.false_ne_true ((isVideo_of_mem_graphics hgraphic).symm.trans (hvideo a ha))
  -- on the lowest layer none comes from above, and on any other none was demoted
  by_cases hlowest : ∀ a ∈ tied, some a.layer = lowest? (clips.filter Clip.isVideo)
  · refine sublist_of_sublist_demoted (sublist_of_append_right hvideos fun a ha habove ↦
      layer_of_mem_above habove (hlowest a ha)) fun a ha b hb ↦ ?_
    exact congrArg (fun key ↦ key.2.2) (h a ha b hb)
  · push Not at hlowest
    obtain ⟨b, hb, hlayer⟩ := hlowest
    refine (sublist_of_append_left hvideos fun a ha hdemoted ↦ hlayer ?_).trans
      (above_sublist clips)
    have hsame : b.layer = a.layer := congrArg (fun key ↦ key.2.1) (h b hb a ha)
    rw [hsame]
    exact layer_of_mem_demoted hdemoted

/-- Overlays are painted by group, layer and start, and of those that tie the videos come first;
otherwise ties are painted in the order of the clips. -/
theorem paintsInOrder_ofClips (clips : List (Clip α)) (fps : α) :
    PaintsInOrder clips (ofClips clips fps).overlays where
  sorted := by
    rw [overlays_eq]
    exact (List.pairwise_mergeSort paintsBefore_trans paintsBefore_total _).imp paintsBefore_iff.1
  alike tied hsub h := by
    have hparts := sublist_parts hsub fun a ha b hb ↦ (h a ha b hb).1
    rcases tied with - | ⟨first, rest⟩
    · exact List.nil_sublist clips
    have hkind (a : Clip α) (ha : a ∈ first :: rest) : a.isVideo = first.isVideo :=
      (h a ha first List.mem_cons_self).2
    rcases hvideo : first.isVideo
    · exact sublist_of_not_videos hparts fun a ha ↦ (hkind a ha).trans hvideo
    · exact sublist_of_videos hparts (fun a ha b hb ↦ (h a ha b hb).1) fun a ha ↦
        (hkind a ha).trans hvideo
  videos_first a b hsub h hvideo := by
    have hparts := sublist_parts hsub (by simp [h])
    have hb : b ∉ clips.filter Clip.isGraphic := fun hgraphic ↦
      Bool.false_ne_true ((isVideo_of_mem_graphics hgraphic).symm.trans hvideo)
    exact (List.mem_append.1 (mem_left_of_pair_sublist hparts hb)).elim isVideo_of_mem_above
      isVideo_of_mem_demoted

end Ties

/-! ### A tie between a title and a video -/

/-- A title that is painted with the videos. -/
def title : Clip α :=
  { Sample.text "title" 0.0 1.0 with layer := 5, layerGroup? := some "video" }

/-- A video that ties with the title. -/
def pip : Clip α := { Sample.video "pip" 0.0 1.0 none {} with layer := 5 }

/-- The title stands before the video. -/
def titled : List (Clip α) :=
  [{ Sample.video "base" 0.0 4.0 none {} with layer := 1 }, title, pip]

/-- The order of painting of these clips, in doubles. -/
theorem paintsInOrder_titled :
    PaintsInOrder (titled : List (Clip Float)) (ofClips titled 30.0).overlays :=
  paintsInOrder_ofClips titled 30.0

/-- The list that is sorted has the video first, and the two tie. -/
theorem overlays_titled : (ofClips titled 30.0 : Layers Float).overlays = [pip, title] := by
  rw [ofClips_of_sorted (by decide +kernel) (by decide +kernel) (by decide +kernel)]
  rfl

/-- The video is painted under the title that stands before it. -/
theorem not_keepsDocumentOrder_titled :
    ¬ KeepsDocumentOrder (titled : List (Clip Float)) (ofClips titled 30.0).overlays := by
  rw [overlays_titled]
  intro h
  have hids : ["pip", "title"].Sublist ["base", "title", "pip"] :=
    (h pip title (List.Sublist.refl _) rfl).map Clip.id
  exact absurd hids (by decide)

end Layers

end Splice
