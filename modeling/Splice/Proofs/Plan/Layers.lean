import Mathlib.Data.List.Pairwise
import Splice.Plan.Layers
import Splice.Proofs.Number.Doubles
import Splice.Proofs.Samples

/-!
# Shares of the clips

What `Layers.ofClips` promises about its shares (`Layers.IsFairShare`). Two facts carry everything.

* The scan behind `Layers.split` places a clip only where it waits for the cursor, so the cursor
  always stands at the effective end of the last placed clip, also when a short clip moves it back.
  `Cursor.Admits` says so of the placed clips, and `Layers.turns` keeps every turn of the scan.
* A clip that does not wait for the clip placed last may still start after an earlier one has ended,
  so that placed clips keep apart in all pairs, not only as neighbours, needs the order of starts
  (`Cursor.Admits.pairwise`).

Everything holds of all lawful scalars, of doubles in particular.
-/

namespace Splice

open Scalar (isNaN isFinite)
open scoped List

/-- Only a video has a video to play. -/
theorem Clip.content_of_video? {β : Type} {clip : Clip β} {media : MediaClip β}
    (h : clip.video? = some media) : clip.content = .video media := by
  rw [Clip.video?] at h
  split at h
  · rename_i hcontent
    rw [hcontent, Option.some.inj h]
  · cases h

variable {α : Type} [Scalar α]

/-! ### Admitted clips -/

namespace Cursor

/-- Clips each of which waits for the cursor at its turn. -/
inductive Admits : Cursor α → List (Clip α) → Prop
  | nil (c : Cursor α) : Admits c []
  | cons {c : Cursor α} {clip : Clip α} {rest : List (Clip α)}
    (waits : c.overlaps clip.startTime = false) (later : Admits ⟨clip.effectiveEnd, c.fps⟩ rest) :
    Admits c (clip :: rest)

/-- After a clip that waits for it, the cursor stands at the effective end of the clip. -/
theorem place_eq {c : Cursor α} {clip : Clip α} (h : c.overlaps clip.startTime = false) :
    c.place clip.startTime clip.effectiveDuration = ⟨clip.effectiveEnd, c.fps⟩ := by
  rw [place, h]
  rfl

/-- What the scan places was admitted. -/
theorem admits_split (c : Cursor α) (clips : List (Clip α)) :
    c.Admits (Layers.split c clips).1 := by
  induction clips generalizing c with
  | nil => exact .nil c
  | cons clip rest ih =>
    rw [Layers.split]
    split_ifs with h
    · exact ih c
    · rw [Bool.not_eq_true] at h
      refine .cons h ?_
      rw [← place_eq h]
      exact ih _

end Cursor

/-! ### Numbers -/

/-- The end that follows from the effective duration is a number, if the clip has finite times. -/
theorem Clip.isNaN_effectiveEnd [LawfulScalar α] {clip : Clip α}
    (hstart : isFinite clip.startTime = true) (hduration : isFinite clip.duration = true) :
    isNaN clip.effectiveEnd = false := by
  have hwindow (media : MediaClip α) :
      isNaN (media.excerpt clip.duration).outputDuration = false :=
    Scalar.isNaN_max (Scalar.isNaN_of_isFinite LawfulScalar.isFinite_twentieth)
  have heffective : isNaN clip.effectiveDuration = false := by
    rw [Clip.effectiveDuration]
    split
    · split_ifs
      · exact hwindow _
      · exact Scalar.isNaN_of_isFinite hduration
    · exact Scalar.isNaN_of_isFinite hduration
  exact LawfulScalar.isNaN_add _ _ hstart heffective

namespace Cursor

variable [LawfulScalar α]

/-- A clip that waits starts at most the tolerance before the cursor. -/
theorem le_of_not_overlaps {c : Cursor α} {start : α} (hposition : isNaN c.position = false)
    (hstart : isNaN start = false) (h : c.overlaps start = false) :
    c.position - tolerance ≤ start :=
  Scalar.le_of_not_lt hstart
    (LawfulScalar.isNaN_sub _ _ hposition LawfulScalar.isFinite_hundredth) (of_decide_eq_false h)

/-- Admitted clips in the order of their starts keep apart, not only from their neighbours. -/
theorem Admits.pairwise {c : Cursor α} {clips : List (Clip α)} (h : c.Admits clips)
    (finite : ∀ clip ∈ clips, isFinite clip.startTime = true ∧ isFinite clip.duration = true)
    (sorted : clips.Pairwise fun a b ↦ a.startTime ≤ b.startTime) :
    clips.Pairwise fun a b ↦ a.effectiveEnd - tolerance ≤ b.startTime := by
  induction h with
  | nil => exact .nil
  | @cons c clip rest _ later ih =>
    rw [List.forall_mem_cons] at finite
    rw [List.pairwise_cons] at sorted
    refine .cons ?_ (ih finite.2 sorted.2)
    cases later with
    | nil => exact fun _ h ↦ nomatch h
    | @cons _ next _ waits _ =>
      rw [List.forall_mem_cons] at finite
      rw [List.pairwise_cons] at sorted
      have hnext : clip.effectiveEnd - tolerance ≤ next.startTime :=
        le_of_not_overlaps (Clip.isNaN_effectiveEnd finite.1.1 finite.1.2)
          (Scalar.isNaN_of_isFinite finite.2.1.1) waits
      -- only the next clip was compared with the cursor; later ones start no earlier
      intro b hb
      rcases List.mem_cons.1 hb with rfl | hb
      · exact hnext
      · exact Scalar.le_trans hnext (sorted.2.1 b hb)

end Cursor

/-! ### Turns of the scan -/

namespace Layers

/-- The clips in the order of the scan. A clip that is not placed comes with the cursor at its
turn. -/
def turns (c : Cursor α) : List (Clip α) → List (Clip α × Option α)
  | [] => []
  | clip :: rest =>
    if c.overlaps clip.startTime then (clip, some c.position) :: turns c rest
    else (clip, none) :: turns (c.place clip.startTime clip.effectiveDuration) rest

/-- The clips that are placed in a scan. -/
def placed {β : Type} (scan : List (Clip β × Option β)) : List (Clip β) :=
  scan.filterMap fun turn ↦ if turn.2.isNone then some turn.1 else none

/-- The clips that are not placed in a scan, with the cursor at their turn. -/
def refused {β : Type} (scan : List (Clip β × Option β)) : List (Clip β × β) :=
  scan.filterMap fun turn ↦ turn.2.map (turn.1, ·)

/-- The effective end of the last clip; a given time if there is none. -/
def lastEnd (initial : α) (clips : List (Clip α)) : α :=
  (clips.getLast?.map Clip.effectiveEnd).getD initial

@[simp] theorem lastEnd_nil (initial : α) : lastEnd initial [] = initial := rfl

@[simp] theorem lastEnd_cons (initial : α) (clip : Clip α) (clips : List (Clip α)) :
    lastEnd initial (clip :: clips) = lastEnd clip.effectiveEnd clips := by
  cases clips with
  | nil => rfl
  | cons next rest => rw [lastEnd, lastEnd, List.getLast?_cons_cons]; rfl

/-- Every clip has its turn, in the order of the list. -/
theorem map_fst_turns (c : Cursor α) (clips : List (Clip α)) :
    (turns c clips).map Prod.fst = clips := by
  induction clips generalizing c with
  | nil => rfl
  | cons clip rest ih =>
    rw [turns]
    split_ifs
    · rw [List.map_cons, ih]
    · rw [List.map_cons, ih]

/-- The scan of the code places and refuses at these turns. -/
theorem split_eq (c : Cursor α) (clips : List (Clip α)) :
    split c clips = (placed (turns c clips), refused (turns c clips)) := by
  induction clips generalizing c with
  | nil => rfl
  | cons clip rest ih =>
    rw [split, turns]
    split_ifs
    · rw [ih]
      rfl
    · rw [ih]
      rfl

/-- A clip is placed or refused, and not both. -/
theorem placed_perm_refused {β : Type} (scan : List (Clip β × Option β)) :
    (placed scan ++ (refused scan).map Prod.fst).Perm (scan.map Prod.fst) := by
  induction scan with
  | nil => exact .nil
  | cons turn rest ih =>
    rcases turn with ⟨clip, - | cursor⟩
    · exact ih.cons clip
    · exact List.perm_middle.trans (ih.cons clip)

/-- The placed clips keep their order. -/
theorem placed_sublist {β : Type} (scan : List (Clip β × Option β)) :
    (placed scan).Sublist (scan.map Prod.fst) := by
  induction scan with
  | nil => exact .slnil
  | cons turn rest ih =>
    rcases turn with ⟨clip, - | cursor⟩
    · exact ih.cons_cons clip
    · exact ih.cons clip

/-- A clip that is refused starts before the cursor, which stands at the end of the clip placed
last. -/
theorem lt_of_turns_eq {c : Cursor α} {clips : List (Clip α)} {pre post : List (Clip α × Option α)}
    {clip : Clip α} {cursor : α} (h : turns c clips = pre ++ (clip, some cursor) :: post) :
    clip.startTime < cursor - tolerance ∧ cursor = lastEnd c.position (placed pre) := by
  -- on the turns before, along which the cursor moves
  induction pre generalizing c clips with
  | nil =>
    cases clips with
    | nil => cases h
    | cons head rest =>
      rw [turns] at h
      split_ifs at h with hoverlaps
      · cases h
        exact ⟨of_decide_eq_true hoverlaps, rfl⟩
      · cases h
  | cons turn pre ih =>
    cases clips with
    | nil => cases h
    | cons head rest =>
      rw [turns] at h
      split_ifs at h with hoverlaps
      · obtain ⟨rfl, hrest⟩ := List.cons.inj h
        exact ih hrest
      · obtain ⟨rfl, hrest⟩ := List.cons.inj h
        rw [Cursor.place_eq (Bool.not_eq_true _ ▸ hoverlaps)] at hrest
        show _ ∧ cursor = lastEnd _ (head :: placed pre)
        rw [lastEnd_cons]
        exact ih hrest

/-! ### Shares -/

/-- Whether the clip is a video on the lowest layer that has a video. -/
def isCandidate {β : Type} (clips : List (Clip β)) (clip : Clip β) : Bool :=
  clip.isVideo && clips.all fun other ↦ !other.isVideo || decide (clip.layer ≤ other.layer)

/-- The videos whose layer is the lowest one are the candidates. -/
theorem filter_lowest {β : Type} (clips : List (Clip β)) :
    (clips.filter Clip.isVideo).filter
        (fun clip ↦ some clip.layer == lowest? (clips.filter Clip.isVideo)) =
      clips.filter (isCandidate clips) := by
  rw [List.filter_filter]
  refine List.filter_congr fun clip hclip ↦ ?_
  rw [isCandidate, Bool.and_comm]
  cases hvideo : clip.isVideo with
  | false => rfl
  | true =>
    rw [Bool.true_and, Bool.true_and, Bool.eq_iff_iff, beq_iff_eq, eq_comm, lowest?,
      List.min?_eq_some_iff, List.all_eq_true]
    -- the least layer, and a layer that no video is below, are the same layer
    constructor
    · rintro ⟨-, hle⟩ other hother
      cases hv : other.isVideo with
      | false => rfl
      | true =>
        exact decide_eq_true (hle _ (List.mem_map_of_mem (List.mem_filter.2 ⟨hother, hv⟩)))
    · intro hall
      refine ⟨List.mem_map_of_mem (List.mem_filter.2 ⟨hclip, hvideo⟩), fun layer hlayer ↦ ?_⟩
      obtain ⟨other, hother, rfl⟩ := List.mem_map.1 hlayer
      obtain ⟨hmem, hv⟩ := List.mem_filter.1 hother
      have hle := hall other hmem
      rw [hv] at hle
      exact of_decide_eq_true hle

/-- With a video there is a candidate. -/
theorem candidates_ne_nil {β : Type} {clips : List (Clip β)} {video : Clip β}
    (hmem : video ∈ clips) (h : video.isVideo = true) :
    clips.filter (isCandidate clips) ≠ [] := by
  have hlayers : ((clips.filter Clip.isVideo).map Clip.layer) ≠ [] :=
    List.ne_nil_of_mem (List.mem_map_of_mem (List.mem_filter.2 ⟨hmem, h⟩))
  obtain ⟨layer, hlayer⟩ := Option.ne_none_iff_exists'.1 (mt List.min?_eq_none_iff.1 hlayers)
  obtain ⟨clip, hclip, rfl⟩ := List.mem_map.1 (List.min?_mem hlayer)
  rw [← filter_lowest]
  exact List.ne_nil_of_mem (List.mem_filter.2 ⟨hclip, beq_iff_eq.2 hlayer.symm⟩)

/-- Every clip is a video, a graphic or a sound, and only one of these. -/
theorem kinds_perm {β : Type} (clips : List (Clip β)) :
    (clips.filter Clip.isVideo ++ clips.filter Clip.isGraphic ++ clips.filter Clip.isAudio).Perm
      clips := by
  have hgraphic : clips.filter Clip.isGraphic =
      (clips.filter (!·.isVideo)).filter (!·.isAudio) := by
    rw [List.filter_filter]
    exact List.filter_congr fun clip _ ↦ Bool.and_comm _ _
  have haudio : clips.filter Clip.isAudio =
      (clips.filter (!·.isVideo)).filter Clip.isAudio := by
    rw [List.filter_filter]
    refine List.filter_congr fun clip _ ↦ ?_
    rw [Clip.isAudio, Clip.isVideo, Clip.video?]
    cases clip.content <;> rfl
  rw [List.append_assoc, hgraphic, haudio]
  exact ((List.perm_append_comm.trans (List.filter_append_perm _ _)).append_left _).trans
    (List.filter_append_perm _ _)

theorem sortByStart_perm (clips : List (Clip α)) : (sortByStart clips).Perm clips :=
  List.mergeSort_perm clips _

/-- Sorting by starts puts them in their order, if they are finite. -/
theorem pairwise_sortByStart [LawfulScalar α] {clips : List (Clip α)}
    (finite : ∀ clip ∈ clips, isFinite clip.startTime = true) :
    (sortByStart clips).Pairwise fun a b ↦ a.startTime ≤ b.startTime := by
  have hsorted : (sortByStart clips).Pairwise fun a b ↦ startsBefore a b = true :=
    List.pairwise_mergeSort
      (fun a b c ↦ LawfulScalar.precedes_trans a.startTime b.startTime c.startTime)
      (fun a b ↦ LawfulScalar.precedes_total a.startTime b.startTime) clips
  refine hsorted.imp_of_mem fun ha hb h ↦ ?_
  exact Scalar.le_of_precedes
    (Scalar.isNaN_of_isFinite (finite _ ((sortByStart_perm clips).mem_iff.1 ha)))
    (Scalar.isNaN_of_isFinite (finite _ ((sortByStart_perm clips).mem_iff.1 hb))) h

/-- What the shares of clips have to be. -/
structure IsFairShare (clips : List (Clip α)) (l : Layers α) : Prop where
  /-- No clip is lost, and none has two shares. -/
  perm : (l.base ++ l.overlays ++ l.audio).Perm clips
  /-- The sounds are mixed in. -/
  audio : l.audio.Perm (clips.filter Clip.isAudio)
  /-- The base consists of videos of the lowest video layer. -/
  base_lowest : ∀ clip ∈ l.base, isCandidate clips clip = true
  /-- There is a base if there is a video. -/
  base_ne_nil : l.base ≠ [] ↔ ∃ clip ∈ clips, clip.isVideo = true
  /-- The base is in the order of starts. -/
  sorted : l.base.Pairwise fun a b ↦ a.startTime ≤ b.startTime
  /-- Every base clip starts after all earlier ones have ended, up to the tolerance. -/
  apart : l.base.Pairwise fun a b ↦ a.effectiveEnd - tolerance ≤ b.startTime
  /-- The base and the demotions arise from one scan of the videos of the lowest layer in the order
  of their starts, and a clip is demoted only if it starts before the end of the clip placed
  last. -/
  greedy : ∃ scan : List (Clip α × Option α),
    (scan.map Prod.fst).Perm (clips.filter (isCandidate clips)) ∧
    (scan.map Prod.fst).Pairwise (fun a b ↦ a.startTime ≤ b.startTime) ∧
    l.base = placed scan ∧
    l.demotions =
      (refused scan).map (fun (clip, cursor) ↦ ⟨clip.id, clip.startTime, cursor⟩) ∧
    ∀ pre clip cursor post, scan = pre ++ (clip, some cursor) :: post →
      clip.startTime < cursor - tolerance ∧
        ∃ last ∈ (placed pre).getLast?, cursor = last.effectiveEnd

variable (clips : List (Clip α)) (fps : α)

/-- The scan of the videos of the lowest layer. -/
def scanOf : List (Clip α × Option α) :=
  turns (.start fps) (sortByStart (clips.filter (isCandidate clips)))

/-- The shares in terms of the scan. -/
theorem ofClips_eq : ofClips clips fps =
    { baseLayer? := lowest? (clips.filter Clip.isVideo)
      base := placed (scanOf clips fps)
      overlays := ((clips.filter Clip.isVideo).filter
          (!some ·.layer == lowest? (clips.filter Clip.isVideo)) ++
        (refused (scanOf clips fps)).map Prod.fst ++
          clips.filter Clip.isGraphic).mergeSort paintsBefore
      audio := sortByStart (clips.filter Clip.isAudio)
      demotions := (refused (scanOf clips fps)).map
        fun (clip, cursor) ↦ ⟨clip.id, clip.startTime, cursor⟩ } := by
  simp only [ofClips, List.partition_eq_filter_filter, filter_lowest, split_eq]
  rfl

/-- Clips that already stand in order are not moved. -/
theorem ofClips_of_sorted {clips : List (Clip α)} {fps : α}
    (hbase : (clips.filter (isCandidate clips)).Pairwise fun a b ↦ startsBefore a b = true)
    (hoverlays : ((clips.filter Clip.isVideo).filter
          (!some ·.layer == lowest? (clips.filter Clip.isVideo)) ++
        (refused (turns (.start fps) (clips.filter (isCandidate clips)))).map Prod.fst ++
          clips.filter Clip.isGraphic).Pairwise fun a b ↦ paintsBefore a b = true)
    (haudio : (clips.filter Clip.isAudio).Pairwise fun a b ↦ startsBefore a b = true) :
    ofClips clips fps =
      let scan := turns (.start fps) (clips.filter (isCandidate clips))
      { baseLayer? := lowest? (clips.filter Clip.isVideo)
        base := placed scan
        overlays := (clips.filter Clip.isVideo).filter
            (!some ·.layer == lowest? (clips.filter Clip.isVideo)) ++
          (refused scan).map Prod.fst ++ clips.filter Clip.isGraphic
        audio := clips.filter Clip.isAudio
        demotions := (refused scan).map fun (clip, cursor) ↦ ⟨clip.id, clip.startTime, cursor⟩ } := by
  rw [ofClips_eq, scanOf, sortByStart, List.mergeSort_of_pairwise hbase,
    List.mergeSort_of_pairwise hoverlays, sortByStart, List.mergeSort_of_pairwise haudio]

theorem map_fst_scanOf :
    (scanOf clips fps).map Prod.fst = sortByStart (clips.filter (isCandidate clips)) :=
  map_fst_turns _ _

/-- Every candidate is placed or refused. -/
theorem candidates_perm :
    (placed (scanOf clips fps) ++ (refused (scanOf clips fps)).map Prod.fst).Perm
      (clips.filter (isCandidate clips)) := by
  refine (placed_perm_refused _).trans ?_
  rw [map_fst_scanOf]
  exact sortByStart_perm _

/-- Every clip has one share. -/
theorem perm_ofClips :
    ((ofClips clips fps).base ++ (ofClips clips fps).overlays ++ (ofClips clips fps).audio).Perm
      clips := by
  rw [ofClips_eq]
  set base := placed (scanOf clips fps)
  set demoted := (refused (scanOf clips fps)).map Prod.fst
  set videos := clips.filter Clip.isVideo
  set above := videos.filter (!some ·.layer == lowest? videos)
  set graphics := clips.filter Clip.isGraphic
  have hvideos : (base ++ demoted ++ above).Perm videos := by
    refine ((candidates_perm clips fps).append_right _).trans ?_
    rw [← filter_lowest]
    exact List.filter_append_perm _ _
  have hswap : (base ++ (above ++ demoted)).Perm (base ++ demoted ++ above) := by
    rw [List.append_assoc]
    exact List.perm_append_comm.append_left base
  calc base ++ (above ++ demoted ++ graphics).mergeSort paintsBefore ++
        sortByStart (clips.filter Clip.isAudio)
    _ ~ base ++ (above ++ demoted ++ graphics) ++ clips.filter Clip.isAudio :=
      ((List.mergeSort_perm _ _).append_left base).append (sortByStart_perm _)
    _ = base ++ (above ++ demoted) ++ graphics ++ clips.filter Clip.isAudio := by
      simp only [List.append_assoc]
    _ ~ videos ++ graphics ++ clips.filter Clip.isAudio :=
      ((hswap.trans hvideos).append_right _).append_right _
    _ ~ clips := kinds_perm clips

theorem mem_of_mem_overlays {clip : Clip α} (h : clip ∈ (ofClips clips fps).overlays) :
    clip ∈ clips :=
  (perm_ofClips clips fps).subset (List.mem_append_left _ (List.mem_append_right _ h))

theorem mem_of_mem_audio {clip : Clip α} (h : clip ∈ (ofClips clips fps).audio) : clip ∈ clips :=
  (perm_ofClips clips fps).subset (List.mem_append_right _ h)

/-- No sound is painted. -/
theorem isAudio_of_mem_overlays {clip : Clip α} (h : clip ∈ (ofClips clips fps).overlays) :
    clip.isAudio = false := by
  have hvideo (hv : clip.isVideo = true) : clip.isAudio = false := by
    cases hcontent : clip.content with
    | audio =>
      rw [Clip.isVideo, Clip.video?, hcontent] at hv
      cases hv
    | _ => rw [Clip.isAudio, hcontent]
  rw [ofClips_eq, List.mem_mergeSort, List.mem_append, List.mem_append] at h
  rcases h with (habove | hdemoted) | hgraphic
  · exact hvideo (List.mem_filter.1 (List.mem_filter.1 habove).1).2
  · have hcandidate := (candidates_perm clips fps).subset (List.mem_append_right _ hdemoted)
    exact hvideo (Bool.and_eq_true_iff.1 (List.mem_filter.1 hcandidate).2).1
  · rw [List.mem_filter, Clip.isGraphic, Bool.and_eq_true_iff] at hgraphic
    simpa using hgraphic.2.2

/-- The base keeps the order of starts. -/
theorem base_sublist : (ofClips clips fps).base.Sublist
    (sortByStart (clips.filter (isCandidate clips))) := by
  rw [ofClips_eq, ← map_fst_scanOf clips fps]
  exact placed_sublist _

theorem mem_candidates_of_mem_base {clip : Clip α} (h : clip ∈ (ofClips clips fps).base) :
    clip ∈ clips ∧ isCandidate clips clip = true :=
  List.mem_filter.1 ((sortByStart_perm _).mem_iff.1 ((base_sublist clips fps).subset h))

/-- The base waits for the cursor. -/
theorem admits_base : (Cursor.start fps).Admits (ofClips clips fps).base := by
  rw [ofClips_eq]
  show (Cursor.start fps).Admits (placed (scanOf clips fps))
  rw [scanOf, ← show _ = placed _ from congrArg Prod.fst (split_eq _ _)]
  exact Cursor.admits_split _ _

section Lawful

variable [LawfulScalar α] {clips}

/-- A clip that starts at zero or later does not overlap the start of the timeline. -/
theorem not_lt_start {start : α} (h : 0.0 ≤ start) : ¬ start < 0.0 - tolerance := fun hlt ↦
  Scalar.not_lt_of_le (Scalar.le_of_lt LawfulScalar.zero_sub_hundredth_lt)
    (Scalar.lt_of_le_of_lt h hlt)

/-- A clip is refused for a clip before it, since the start of the timeline refuses none. -/
theorem exists_last_of_scanOf_eq (nonneg : ∀ clip ∈ clips, 0.0 ≤ clip.startTime)
    {pre post : List (Clip α × Option α)} {clip : Clip α} {cursor : α}
    (h : scanOf clips fps = pre ++ (clip, some cursor) :: post) :
    clip.startTime < cursor - tolerance ∧
      ∃ last ∈ (placed pre).getLast?, cursor = last.effectiveEnd := by
  obtain ⟨hlt, hcursor⟩ := lt_of_turns_eq h
  refine ⟨hlt, ?_⟩
  rcases hlast : (placed pre).getLast? with - | last
  · -- nothing is placed yet, so the cursor still stands at zero
    have hclip : clip ∈ clips := by
      have hmem : clip ∈ (scanOf clips fps).map Prod.fst := by
        rw [h]
        simp
      rw [map_fst_scanOf] at hmem
      exact (List.mem_filter.1 ((sortByStart_perm _).mem_iff.1 hmem)).1
    rw [lastEnd, hlast] at hcursor
    rw [hcursor] at hlt
    exact absurd hlt (not_lt_start (nonneg clip hclip))
  · rw [lastEnd, hlast] at hcursor
    exact ⟨last, rfl, hcursor⟩

/-- There is a base exactly if there is a video. -/
theorem base_ne_nil_iff (nonneg : ∀ clip ∈ clips, 0.0 ≤ clip.startTime) :
    (ofClips clips fps).base ≠ [] ↔ ∃ clip ∈ clips, clip.isVideo = true := by
  constructor
  · intro h
    obtain ⟨clip, hclip⟩ := List.exists_mem_of_ne_nil _ h
    obtain ⟨hmem, hcandidate⟩ := mem_candidates_of_mem_base clips fps hclip
    exact ⟨clip, hmem, (Bool.and_eq_true_iff.1 hcandidate).1⟩
  · rintro ⟨video, hvideo⟩ hnil
    have hcandidates : sortByStart (clips.filter (isCandidate clips)) ≠ [] := fun hempty ↦
      candidates_ne_nil hvideo.1 hvideo.2 (List.nil_perm.1 (hempty ▸ sortByStart_perm _))
    obtain ⟨head, rest, hsorted⟩ := List.exists_cons_of_ne_nil hcandidates
    have hhead : head ∈ clips := by
      have hmem : head ∈ sortByStart (clips.filter (isCandidate clips)) := by simp [hsorted]
      exact (List.mem_filter.1 ((sortByStart_perm _).mem_iff.1 hmem)).1
    rw [ofClips_eq] at hnil
    rw [scanOf, hsorted, turns, if_neg] at hnil
    · cases hnil
    · exact mt of_decide_eq_true (not_lt_start (nonneg head hhead))

/-- The shares of clips with finite times, none of which starts before zero. -/
theorem isFairShare_ofClips
    (finite : ∀ clip ∈ clips, isFinite clip.startTime = true ∧ isFinite clip.duration = true)
    (nonneg : ∀ clip ∈ clips, 0.0 ≤ clip.startTime) :
    IsFairShare clips (ofClips clips fps) := by
  have hsorted : (sortByStart (clips.filter (isCandidate clips))).Pairwise
      fun a b ↦ a.startTime ≤ b.startTime :=
    pairwise_sortByStart fun clip hclip ↦ (finite clip (List.mem_filter.1 hclip).1).1
  have hbase : (ofClips clips fps).base.Pairwise fun a b ↦ a.startTime ≤ b.startTime :=
    hsorted.sublist (base_sublist clips fps)
  refine ⟨perm_ofClips clips fps, ?_, fun clip hclip ↦ ?_, base_ne_nil_iff fps nonneg, hbase,
    ?_, ?_⟩
  · rw [ofClips_eq]
    exact sortByStart_perm _
  · exact (mem_candidates_of_mem_base clips fps hclip).2
  · exact (admits_base clips fps).pairwise
      (fun clip hclip ↦ finite clip (mem_candidates_of_mem_base clips fps hclip).1) hbase
  · refine ⟨scanOf clips fps, ?_, ?_, ?_, ?_, fun pre clip cursor post h ↦ ?_⟩
    · rw [map_fst_scanOf]
      exact sortByStart_perm _
    · rw [map_fst_scanOf]
      exact hsorted
    · rw [ofClips_eq]
    · rw [ofClips_eq]
    · exact exists_last_of_scanOf_eq fps nonneg h

/-- The shares of a few clips, in doubles. -/
theorem isFairShare_sample :
    (∀ clip ∈ (Sample.clips : List (Clip Float)),
      isFinite clip.startTime = true ∧ isFinite clip.duration = true) ∧
    (∀ clip ∈ (Sample.clips : List (Clip Float)), 0.0 ≤ clip.startTime) ∧
      IsFairShare (Sample.clips : List (Clip Float)) (ofClips Sample.clips 30.0) := by
  have finite : ∀ clip ∈ (Sample.clips : List (Clip Float)),
      isFinite clip.startTime = true ∧ isFinite clip.duration = true := by decide +kernel
  have nonneg : ∀ clip ∈ (Sample.clips : List (Clip Float)), 0.0 ≤ clip.startTime := by
    decide +kernel
  exact ⟨finite, nonneg, isFairShare_ofClips 30.0 finite nonneg⟩

end Lawful

end Layers

end Splice
