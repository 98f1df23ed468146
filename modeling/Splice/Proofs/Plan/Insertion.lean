import Splice.Proofs.Plan.PaintOrder

/-!
# Inserting a clip

A clip that is no part of the cut can be put anywhere into a project without changing the cut: a
picture, a text, a shape or a sound, or a video above the base layer, that ends before the timeline
does. The base, the demotions, the transitions and the entries stay, and the clip joins the overlays
or the sounds at one place (`Layers.KeepsBase`, `Composition.KeepsCut`).

A list that has one member more at some place `Gains` it. Filtering, concatenation and sorting let
that through, so the proof follows the lists of `Layers.ofClips` from the clips to the shares. For
the sort it is an induction along insertion sort: what is inserted later goes to the same side of
the new member in both lists (`Gains.orderedInsert`).
-/

namespace Splice

open Scalar (isNaN)

/-- A list has one member more than another, at some place. -/
def Gains {β : Type} (x : β) (l l' : List β) : Prop :=
  ∃ before after, l = before ++ after ∧ l' = before ++ x :: after

/-! ### Lists that gain a member -/

namespace Gains

variable {β : Type} {x : β} {l l' : List β}

theorem cons (h : Gains x l l') (a : β) : Gains x (a :: l) (a :: l') := by
  obtain ⟨before, after, rfl, rfl⟩ := h
  exact ⟨a :: before, after, rfl, rfl⟩

theorem append_left (h : Gains x l l') (first : List β) : Gains x (first ++ l) (first ++ l') := by
  obtain ⟨before, after, rfl, rfl⟩ := h
  exact ⟨first ++ before, after, by simp, by simp⟩

theorem append_right (h : Gains x l l') (last : List β) : Gains x (l ++ last) (l' ++ last) := by
  obtain ⟨before, after, rfl, rfl⟩ := h
  exact ⟨before, after ++ last, by simp, by simp⟩

/-- The longer list has the members of the other one, and the new one. -/
theorem mem_iff (h : Gains x l l') (a : β) : a ∈ l' ↔ a = x ∨ a ∈ l := by
  obtain ⟨before, after, rfl, rfl⟩ := h
  simp only [List.mem_append, List.mem_cons]
  exact or_left_comm

/-- A filter that lets the new member pass keeps it. -/
theorem filter (h : Gains x l l') {p : β → Bool} (hx : p x = true) :
    Gains x (l.filter p) (l'.filter p) := by
  obtain ⟨before, after, rfl, rfl⟩ := h
  refine ⟨before.filter p, after.filter p, List.filter_append _ _, ?_⟩
  rw [List.filter_append, List.filter_cons_of_pos hx]

/-- Any other filter drops it, and nothing of the rest. -/
theorem filter_eq (h : Gains x l l') {p : β → Bool} (hx : p x = false) :
    l'.filter p = l.filter p := by
  obtain ⟨before, after, rfl, rfl⟩ := h
  rw [List.filter_append, List.filter_append, List.filter_cons_of_neg (Bool.eq_false_iff.1 hx)]

section Sorting

variable {le : β → β → Bool}

/-- What is inserted goes to the same side of the new member. -/
theorem orderedInsert (htrans : ∀ a b c, le a b = true → le b c = true → le a c = true)
    (h : Gains x l l') (hsorted : l'.Pairwise fun a b ↦ le a b = true) (a : β) :
    Gains x (l.orderedInsert (le · · = true) a) (l'.orderedInsert (le · · = true) a) := by
  obtain ⟨before, after, rfl, rfl⟩ := h
  induction before with
  | nil =>
    show Gains x (after.orderedInsert _ a) ((x :: after).orderedInsert _ a)
    rw [List.orderedInsert_cons]
    split_ifs with hax
    · have hfirst : after.orderedInsert (le · · = true) a = a :: after := by
        rcases after with - | ⟨next, rest⟩
        · rfl
        · have hnext : le x next = true := (List.pairwise_cons.1 hsorted).1 next List.mem_cons_self
          rw [List.orderedInsert_cons, if_pos (htrans a x next hax hnext)]
      rw [hfirst]
      exact ⟨[a], after, rfl, rfl⟩
    · exact ⟨[], after.orderedInsert _ a, rfl, rfl⟩
  | cons b before ih =>
    show Gains x ((b :: (before ++ after)).orderedInsert _ a)
      ((b :: (before ++ x :: after)).orderedInsert _ a)
    rw [List.orderedInsert_cons, List.orderedInsert_cons]
    split_ifs
    · exact ⟨a :: b :: before, after, rfl, rfl⟩
    · exact (ih (List.pairwise_cons.1 hsorted).2).cons b

/-- Sorted lists gain the member as well. -/
theorem mergeSort (htrans : ∀ a b c, le a b = true → le b c = true → le a c = true)
    (htotal : ∀ a b, (le a b || le b a) = true) (h : Gains x l l') :
    Gains x (l.mergeSort le) (l'.mergeSort le) := by
  obtain ⟨before, after, rfl, rfl⟩ := h
  -- what stands before the new member is inserted into both sorted lists, one by one
  induction before with
  | nil =>
    obtain ⟨first, last, hmore, hless, -⟩ := List.mergeSort_cons htrans htotal x after
    exact ⟨first, last, hless, hmore⟩
  | cons a before ih =>
    show Gains x ((a :: (before ++ after)).mergeSort le)
      ((a :: (before ++ x :: after)).mergeSort le)
    rw [mergeSort_cons_eq htrans htotal, mergeSort_cons_eq htrans htotal]
    exact ih.orderedInsert htrans (List.pairwise_mergeSort htrans htotal _) a

end Sorting

end Gains

/-! ### Shares -/

namespace Layers

variable {α : Type}

section Lowest

variable {clips clips' : List (Clip α)} {clip : Clip α}

/-- A clip that is no video, or one above the lowest layer of videos. -/
def IsAboveBase (clips : List (Clip α)) (clip : Clip α) : Prop :=
  clip.isVideo = true → ∃ layer ∈ lowest? (clips.filter Clip.isVideo), layer < clip.layer

/-- The lowest layer of videos stays the lowest. -/
theorem lowest?_eq_of_gains (h : Gains clip clips clips') (habove : IsAboveBase clips clip) :
    lowest? (clips'.filter Clip.isVideo) = lowest? (clips.filter Clip.isVideo) := by
  rcases hvideo : clip.isVideo
  · rw [h.filter_eq hvideo]
  · obtain ⟨layer, hlowest, hlt⟩ := habove hvideo
    rw [hlowest]
    obtain ⟨hmem, hle⟩ := List.min?_eq_some_iff.1 hlowest
    have hvideos := h.filter hvideo
    refine List.min?_eq_some_iff.2 ⟨?_, fun other hother ↦ ?_⟩
    · obtain ⟨video, hvideo, heq⟩ := List.mem_map.1 hmem
      exact List.mem_map.2 ⟨video, (hvideos.mem_iff video).2 (.inr hvideo), heq⟩
    · obtain ⟨video, hvideo, rfl⟩ := List.mem_map.1 hother
      rcases (hvideos.mem_iff video).1 hvideo with rfl | hold
      · exact hlt.le
      · exact hle video.layer (List.mem_map_of_mem hold)

/-- The candidates for the base do not change. -/
theorem candidates_eq_of_gains (h : Gains clip clips clips') (habove : IsAboveBase clips clip) :
    clips'.filter (isCandidate clips') = clips.filter (isCandidate clips) := by
  rw [← filter_lowest, ← filter_lowest, lowest?_eq_of_gains h habove]
  rcases hvideo : clip.isVideo
  · rw [h.filter_eq hvideo]
  · obtain ⟨layer, hlowest, hlt⟩ := habove hvideo
    have hlayer : (some clip.layer == lowest? (clips.filter Clip.isVideo)) = false := by
      rw [Option.mem_def.1 hlowest, beq_eq_false_iff_ne]
      exact fun heq ↦ hlt.ne' (Option.some.inj heq)
    exact (h.filter hvideo).filter_eq hlayer

/-- What can be seen and is not in the base gains the clip. -/
theorem gains_visible (h : Gains clip clips clips') (habove : IsAboveBase clips clip)
    (hvisible : clip.isAudio = false) (demoted : List (Clip α)) :
    Gains clip (above clips ++ demoted ++ clips.filter Clip.isGraphic)
      (above clips' ++ demoted ++ clips'.filter Clip.isGraphic) := by
  rcases hvideo : clip.isVideo
  · have hgraphic : clip.isGraphic = true := by rw [Clip.isGraphic, hvideo, hvisible]; rfl
    rw [above, above, lowest?_eq_of_gains h habove, h.filter_eq hvideo]
    exact (h.filter hgraphic).append_left _
  · obtain ⟨layer, hlowest, hlt⟩ := habove hvideo
    have hgraphic : clip.isGraphic = false := by rw [Clip.isGraphic, hvideo]; rfl
    have hlayer : (!some clip.layer == lowest? (clips.filter Clip.isVideo)) = true := by
      rw [Option.mem_def.1 hlowest, Bool.not_eq_true', beq_eq_false_iff_ne]
      exact fun heq ↦ hlt.ne' (Option.some.inj heq)
    have hgains : Gains clip (above clips) (above clips') := by
      rw [above, above, lowest?_eq_of_gains h habove]
      exact (h.filter hvideo).filter hlayer
    rw [h.filter_eq hgraphic]
    exact (hgains.append_right _).append_right _

theorem isVideo_of_isAudio (h : clip.isAudio = true) : clip.isVideo = false := by
  rw [Clip.isAudio] at h
  rw [Clip.isVideo, Clip.video?]
  split at h
  · rename_i hcontent
    rw [hcontent]
    rfl
  · cases h

end Lowest

variable [Scalar α] {clips clips' : List (Clip α)} {clip : Clip α}

/-- Shares with the same base, of which the second ones have a clip more to paint or to mix in. -/
structure KeepsBase {β : Type} (clip : Clip β) (before after : Layers β) : Prop where
  baseLayer? : after.baseLayer? = before.baseLayer?
  base : after.base = before.base
  demotions : after.demotions = before.demotions
  /-- A clip that can be seen joins the overlays. -/
  visible : clip.isAudio = false →
    Gains clip before.overlays after.overlays ∧ after.audio = before.audio
  /-- A sound joins the sounds. -/
  audible : clip.isAudio = true →
    Gains clip before.audio after.audio ∧ after.overlays = before.overlays

/-- A clip above the base does not change what happens to the base. -/
theorem keepsBase_of_gains [SeparatedScalar α] (h : Gains clip clips clips')
    (habove : IsAboveBase clips clip) (fps : α) :
    KeepsBase clip (ofClips clips fps) (ofClips clips' fps) := by
  have hlowest := lowest?_eq_of_gains h habove
  have hscan : scanOf clips' fps = scanOf clips fps := by
    rw [scanOf, scanOf, candidates_eq_of_gains h habove]
  have hdemoted : demoted clips' fps = demoted clips fps := by rw [demoted, demoted, hscan]
  have haudio (clips : List (Clip α)) :
      (ofClips clips fps).audio = sortByStart (clips.filter Clip.isAudio) := rfl
  refine ⟨hlowest, ?_, ?_, fun hvisible ↦ ⟨?_, ?_⟩, fun haudible ↦ ⟨?_, ?_⟩⟩
  · rw [ofClips_eq, ofClips_eq, hscan]
  · rw [ofClips_eq, ofClips_eq, hscan]
  · rw [overlays_eq, overlays_eq, hdemoted]
    exact (gains_visible h habove hvisible _).mergeSort paintsBefore_trans paintsBefore_total
  · rw [haudio, haudio, h.filter_eq hvisible]
  · exact (h.filter haudible).mergeSort
      (fun a b c ↦ LawfulScalar.precedes_trans a.startTime b.startTime c.startTime)
      fun a b ↦ LawfulScalar.precedes_total a.startTime b.startTime
  · have hvideo := isVideo_of_isAudio haudible
    have hgraphic : clip.isGraphic = false := by
      rw [Clip.isGraphic, haudible]
      exact Bool.and_false _
    rw [overlays_eq, overlays_eq, hdemoted, above, above, hlowest, h.filter_eq hvideo,
      h.filter_eq hgraphic]

end Layers

/-! ### Projects -/

namespace Project

variable {α : Type} {clip : Clip α} {p q : Project α}

/-- A project has one clip more than another, at some place of one of its tracks. -/
def Gains (clip : Clip α) (p q : Project α) : Prop :=
  ∃ before after id? clips clips' settings?, Splice.Gains clip clips clips' ∧
    p = ⟨before ++ ⟨id?, clips⟩ :: after, settings?⟩ ∧
    q = ⟨before ++ ⟨id?, clips'⟩ :: after, settings?⟩

theorem Gains.clips (h : Gains clip p q) : Splice.Gains clip p.clips q.clips := by
  obtain ⟨before, after, id?, clips, clips', settings?, hclips, rfl, rfl⟩ := h
  rw [Project.clips, Project.clips, List.flatMap_append, List.flatMap_append, List.flatMap_cons,
    List.flatMap_cons]
  exact (hclips.append_right _).append_left _

/-- A clip that does not end after the timeline does not move its end. -/
theorem timelineEnd_of_gains [Scalar α] [LawfulScalar α]
    (h : Splice.Gains clip p.clips q.clips) (hend : ¬ p.timelineEnd < clip.endTime) :
    p.timelineEnd ≤ q.timelineEnd ∧ q.timelineEnd ≤ p.timelineEnd := by
  constructor
  · exact timelineEnd_le q.zero_le_timelineEnd fun other hother hnumber ↦
      endTime_le_timelineEnd ((h.mem_iff other).2 (.inr hother)) hnumber
  · refine timelineEnd_le p.zero_le_timelineEnd fun other hother hnumber ↦ ?_
    rcases (h.mem_iff other).1 hother with rfl | hold
    · exact Scalar.le_of_not_lt p.isNaN_timelineEnd hnumber hend
    · exact endTime_le_timelineEnd hold hnumber

end Project

/-! ### Compositions -/

/-- Two compositions of the same cut, of which the second one has a clip more to paint or to mix
in. -/
structure Composition.KeepsCut {α : Type} (clip : Clip α) (c d : Composition α) : Prop where
  shares : c.layers.KeepsBase clip d.layers
  entries : d.entries = c.entries
  decisions : d.decisions = c.decisions

/-- Wherever a clip is inserted that is no video, or a video above the base layer, and that does not
end after the timeline, the cut stays as it is. -/
theorem Composition.keepsCut_of_gains {α : Type} [Scalar α] [SeparatedScalar α] {clip : Clip α}
    {p q : Project α} (h : Project.Gains clip p q) (canvas : Canvas α)
    (habove : clip.isVideo = true →
      ∃ layer ∈ (ofProject p canvas).layers.baseLayer?, layer < clip.layer)
    (hend : ¬ (ofProject p canvas).timelineEnd < clip.endTime) :
    (ofProject p canvas).KeepsCut clip (ofProject q canvas) := by
  have hshares := Layers.keepsBase_of_gains h.clips habove canvas.fps
  obtain ⟨hle, hge⟩ := Project.timelineEnd_of_gains h.clips hend
  refine ⟨hshares, ?_, ?_⟩
  · show Entry.ofBase (Layers.ofClips q.clips canvas.fps).base _ _ = Entry.ofBase _ _ _
    rw [hshares.base]
    exact Entry.ofBase_congr hge hle _ _
  · show EdgeDecision.ofBase (Layers.ofClips q.clips canvas.fps).base _ = EdgeDecision.ofBase _ _
    rw [hshares.base]

/-- A video over the base of a small project, between two of its clips, in doubles. -/
theorem Composition.keepsCut_sample :
    let clip : Clip Float := { Sample.video "inset" 1.0 2.0 none {} with layer := 3 }
    let more : Project Float :=
      ⟨[⟨none, Sample.clips.take 2 ++ clip :: Sample.clips.drop 2⟩], none⟩
    Project.Gains clip Sample.project more ∧
      (∃ layer ∈ (ofProject (Sample.project : Project Float) Sample.canvas).layers.baseLayer?,
        layer < clip.layer) ∧
      ¬ (ofProject (Sample.project : Project Float) Sample.canvas).timelineEnd < clip.endTime ∧
      (ofProject Sample.project Sample.canvas).KeepsCut clip (ofProject more Sample.canvas) := by
  intro clip more
  have hgains : Project.Gains clip Sample.project more :=
    ⟨[], [], none, Sample.clips, _, none, ⟨Sample.clips.take 2, Sample.clips.drop 2, rfl, rfl⟩, rfl,
      rfl⟩
  have habove : ∃ layer ∈ (ofProject (Sample.project : Project Float)
      Sample.canvas).layers.baseLayer?, layer < clip.layer :=
    ⟨0, rfl, by decide⟩
  have hend : ¬ (ofProject (Sample.project : Project Float) Sample.canvas).timelineEnd <
      clip.endTime := by
    decide +kernel
  exact ⟨hgains, habove, hend, keepsCut_of_gains hgains Sample.canvas (fun _ ↦ habove) hend⟩

end Splice
