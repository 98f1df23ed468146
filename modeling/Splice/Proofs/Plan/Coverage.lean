import Splice.Plan.Composition
import Splice.Proofs.Plan.Layers
import Splice.Proofs.Samples
import Splice.Proofs.Timeline.Durations

/-!
# The base sequence covers the timeline

`Entry.fillFrom` measures gaps with a cursor of its own. On clips that the scan of the layers has
admitted, this cursor replays the one of the scan: it stands at the effective end of the clip before
(`Entry.fillFrom_eq`), so the entries are given by the clips alone, one `Entry.stretch` after
another. In exact numbers a stretch has a filler for the whole gap or none at all, and a gap without
a filler is short on both sides: the tolerance bounds it from below, the tolerance or half a frame
from above (`Coverage.abs_filled_sub_le`). Summing over all stretches bounds the drift between the
planned length and the timeline (`Coverage.abs_sum_sub_le`).
-/

namespace Splice

open Exact (number nearest)
open Layers (lastEnd)

/-! ### Stretches -/

namespace Entry

variable {α : Type}

/-- The base clip of an entry, with its index. -/
def clip? : Entry α → Option (Nat × Clip α)
  | clip index c => some (index, c)
  | filler _ => none

variable [Scalar α]

/-- The filler from the cursor up to a time, if the gap counts. -/
def filler? (kind : FillerKind) (cursor : Cursor α) (time : α) : Option (Filler α) :=
  (cursor.gapUntil? time).map fun gap ↦ ⟨kind, cursor.position, gap⟩

/-- Filling up to a time adds a filler or nothing. -/
theorem fill_eq (kind : FillerKind) (cursor : Cursor α) (time : α) :
    fill kind cursor time = ((filler? kind cursor time).map filler).toList := by
  rw [fill, filler?]
  cases cursor.gapUntil? time <;> rfl

/-- The filler before the clip at an index, or after the last clip. -/
def fillerAt? (timelineEnd : α) (c : Cursor α) (clips : List (Clip α)) (k : ℕ) :
    Option (Filler α) :=
  match clips[k]? with
  | some next => filler? .gap ⟨lastEnd c.position (clips.take k), c.fps⟩ next.startTime
  | none => filler? .tail ⟨lastEnd c.position (clips.take k), c.fps⟩ timelineEnd

/-- The clip at an index, with the filler before it; at the end only the filler. -/
def stretch (timelineEnd : α) (c : Cursor α) (index : ℕ) (clips : List (Clip α)) (k : ℕ) :
    List (Entry α) :=
  ((fillerAt? timelineEnd c clips k).map filler).toList ++
    (clips[k]?.map (clip (index + k))).toList

/-- Behind its first clip a list has the stretches of the rest. -/
theorem stretch_succ (timelineEnd : α) (c : Cursor α) (index : ℕ) (head : Clip α)
    (rest : List (Clip α)) (k : ℕ) :
    stretch timelineEnd c index (head :: rest) (k + 1) =
      stretch timelineEnd ⟨head.effectiveEnd, c.fps⟩ (index + 1) rest k := by
  rw [stretch, stretch, fillerAt?, fillerAt?, List.getElem?_cons_succ, List.take_succ_cons,
    Layers.lastEnd_cons, show index + (k + 1) = index + 1 + k by omega]

/-- The entries for admitted clips, stretch after stretch. -/
theorem fillFrom_eq {timelineEnd : α} {c : Cursor α} {clips : List (Clip α)} (h : c.Admits clips)
    (index : ℕ) : fillFrom timelineEnd c index clips =
      (List.range (clips.length + 1)).flatMap (stretch timelineEnd c index clips) := by
  induction h generalizing index with
  | nil c =>
    rw [fillFrom, fill_eq, List.length_nil, List.range_one, List.flatMap_singleton, stretch]
    exact (List.append_nil _).symm
  | @cons c head rest waits _ ih =>
    -- the stretches of the rest are those of the list, counted from one
    have hsucc : (fun k ↦ stretch timelineEnd c index (head :: rest) k.succ) =
        stretch timelineEnd ⟨head.effectiveEnd, c.fps⟩ (index + 1) rest :=
      funext (stretch_succ timelineEnd c index head rest)
    rw [List.length_cons, List.range_succ_eq_map, List.flatMap_cons, List.flatMap_map, hsucc, ← ih,
      fillFrom, fill_eq, Cursor.place_eq waits, stretch, List.append_assoc]
    rfl

/-- Fillers aside, the entries are the clips in their order. -/
theorem clip?_fillFrom (timelineEnd : α) (c : Cursor α) (index : ℕ) (clips : List (Clip α)) :
    (fillFrom timelineEnd c index clips).filterMap clip? =
      (clips.zipIdx index).map Prod.swap := by
  have hfill (kind : FillerKind) (cursor : Cursor α) (time : α) :
      (fill kind cursor time).filterMap clip? = [] := by
    rw [fill_eq]
    cases filler? kind cursor time <;> rfl
  induction clips generalizing c index with
  | nil => exact hfill _ _ _
  | cons head rest ih =>
    rw [fillFrom, List.filterMap_append, hfill, List.nil_append, List.zipIdx_cons, List.map_cons,
      ← ih]
    rfl

/-- The base clips stand among the entries in their order, with their indices. -/
theorem clip?_ofBase (base : List (Clip α)) (timelineEnd fps : α) :
    (ofBase base timelineEnd fps).filterMap clip? = base.zipIdx.map Prod.swap := by
  cases base with
  | nil => rfl
  | cons first rest => exact clip?_fillFrom timelineEnd (.start fps) 0 (first :: rest)

/-- A clip among the entries is the base clip of its index. -/
theorem getElem?_of_mem_ofBase {base : List (Clip α)} {timelineEnd fps : α} {index : ℕ}
    {c : Clip α} (h : clip index c ∈ ofBase base timelineEnd fps) : base[index]? = some c := by
  have hmem : (index, c) ∈ (ofBase base timelineEnd fps).filterMap clip? :=
    List.mem_filterMap.2 ⟨_, h, rfl⟩
  rw [clip?_ofBase] at hmem
  obtain ⟨⟨c', index'⟩, hzip, heq⟩ := List.mem_map.1 hmem
  obtain ⟨rfl, rfl⟩ := Prod.mk.inj heq
  exact List.mem_zipIdx_iff_getElem?.1 hzip

end Entry

/-! ### Gaps in exact numbers -/

namespace Coverage

/-- Whether a gap counts: it exceeds the tolerance and rounds to at least one frame. -/
def Counts (fps gap : ℚ) : Prop := 1 / 100 < gap ∧ 1 ≤ nearest (gap * fps)

instance (fps gap : ℚ) : Decidable (Counts fps gap) :=
  inferInstanceAs (Decidable (1 / 100 < gap ∧ 1 ≤ nearest (gap * fps)))

/-- The length of a gap that does not count is below this. -/
def slack (fps : ℚ) : ℚ := max (1 / 100) (1 / (2 * fps))

theorem tolerance_eq : (tolerance : Exact) = number (1 / 100) := by
  rw [tolerance, Exact.ofScientific_eq]
  norm_num

theorem start_eq (rate : Exact) : Cursor.start rate = ⟨number 0, rate⟩ := by
  rw [← zero_eq]
  rfl

variable (fps previous next : ℚ)

/-- A gap between rationals is one of the code if it counts. -/
theorem gapUntil?_number : (⟨number previous, number fps⟩ : Cursor Exact).gapUntil? (number next) =
    if Counts fps (next - previous) then some (number (next - previous)) else none := by
  refine if_congr ?_ rfl rfl
  have hcast (z : ℤ) : (1 : ℚ) ≤ z ↔ 1 ≤ z := by norm_cast
  rw [tolerance_eq, one_eq, Exact.number_sub, Exact.number_mul, Exact.round_number,
    Exact.number_lt, Exact.number_le, hcast, Counts]

/-- It has a filler if it counts. -/
theorem filler?_number (kind : FillerKind) :
    Entry.filler? kind ⟨number previous, number fps⟩ (number next) =
      if Counts fps (next - previous) then
        some ⟨kind, number previous, number (next - previous)⟩
      else none := by
  rw [Entry.filler?, gapUntil?_number]
  split_ifs <;> rfl

/-- The length of the filler in a gap, or zero. -/
def filled : ℚ := if Counts fps (next - previous) then next - previous else 0

/-- What is filled in has the length of the gap, or none. -/
theorem exists_lengths_fill (kind : FillerKind) : ∃ lengths : List ℚ,
    (Entry.fill kind ⟨number previous, number fps⟩ (number next)).map Entry.duration =
      lengths.map number ∧ lengths.sum = filled fps previous next := by
  rw [Entry.fill_eq, filler?_number, filled]
  split_ifs
  · exact ⟨[next - previous], rfl, List.sum_singleton⟩
  · exact ⟨[], rfl, rfl⟩

variable {fps previous next}

/-- A gap that does not count is short. -/
theorem le_slack (hfps : 0 < fps) {gap : ℚ} (h : ¬ Counts fps gap) : gap ≤ slack fps := by
  rw [Counts, Exact.one_le_nearest_iff, not_and_or, not_lt, not_le] at h
  rcases h with h | h
  · exact h.trans (le_max_left _ _)
  · refine le_trans ?_ (le_max_right _ _)
    rw [le_div_iff₀ (by positivity)]
    linarith

/-- What a filler leaves of a gap is short, if the gap is no long overlap. -/
theorem abs_filled_sub_le (hfps : 0 < fps) (h : previous - 1 / 100 ≤ next) :
    |filled fps previous next - (next - previous)| ≤ slack fps := by
  have hslack : 1 / 100 ≤ slack fps := le_max_left _ _
  rw [filled]
  split_ifs with hcounts
  · rw [sub_self, abs_zero]
    linarith
  · have := le_slack hfps hcounts
    rw [abs_le]
    constructor <;> linarith

/-- At the end of the timeline there is no gap to speak of after a clip that ends later. -/
theorem abs_filled_sub_max_le (hfps : 0 < fps) (previous stop : ℚ) :
    |filled fps previous stop - (max stop previous - previous)| ≤ slack fps := by
  have hslack : 1 / 100 ≤ slack fps := le_max_left _ _
  rcases le_total previous stop with h | h
  · rw [max_eq_left h]
    exact abs_filled_sub_le hfps (by linarith)
  · have hcounts : ¬ Counts fps (stop - previous) := fun hcounts ↦ by linarith [hcounts.1]
    rw [max_eq_right h, sub_self, sub_zero, filled, if_neg hcounts, abs_zero]
    linarith

/-- On admitted clips the planned length stays close to what is left of the timeline. -/
theorem abs_sum_sub_le (hfps : 0 < fps) (stop : ℚ) {first : ℚ} {clips : List (Clip Exact)}
    (h : (⟨number first, number fps⟩ : Cursor Exact).Admits clips)
    (times : ∀ clip ∈ clips, ∃ s d e, clip.HasTimes s d e) (index : ℕ) :
    ∃ (lengths : List ℚ) (last : ℚ), lastEnd (number first) clips = number last ∧
      (Entry.fillFrom (number stop) ⟨number first, number fps⟩ index clips).map Entry.duration =
        lengths.map number ∧
      |lengths.sum - (max stop last - first)| ≤ (clips.length + 1) * slack fps := by
  induction clips generalizing first index with
  | nil =>
    obtain ⟨lengths, hlengths, hsum⟩ := exists_lengths_fill fps first stop .tail
    refine ⟨lengths, first, rfl, hlengths, ?_⟩
    rw [hsum, List.length_nil, Nat.cast_zero, zero_add, one_mul]
    exact abs_filled_sub_max_le hfps first stop
  | cons head rest ih =>
    rw [List.forall_mem_cons] at times
    obtain ⟨s, d, e, head_times⟩ := times.1
    cases h with
    | cons waits later =>
      have hend := head_times.effectiveEnd_eq
      have hwaits : first - 1 / 100 ≤ s := by
        have := Cursor.le_of_not_overlaps (by rfl)
          (by rw [head_times.start_eq]; rfl) waits
        simpa [tolerance_eq, head_times.start_eq] using this
      rw [hend] at later
      obtain ⟨restLengths, last, hlast, hrest, hdrift⟩ := ih later times.2 (index + 1)
      obtain ⟨lengths, hlengths, hsum⟩ := exists_lengths_fill fps first s .gap
      refine ⟨lengths ++ e :: restLengths, last, ?_, ?_, ?_⟩
      · rw [Layers.lastEnd_cons, hend, hlast]
      · rw [Entry.fillFrom, Cursor.place_eq waits, hend, List.map_append, List.map_cons,
          head_times.start_eq, hlengths, hrest, Entry.duration, head_times.effective_eq,
          List.map_append, List.map_cons]
      · -- the drift of this stretch and the drift of all later ones add up
        have hgap := abs_filled_sub_le hfps hwaits
        rw [List.sum_append, List.sum_cons, hsum, List.length_cons]
        calc |filled fps first s + (e + restLengths.sum) - (max stop last - first)|
            = |(filled fps first s - (s - first)) +
                (restLengths.sum - (max stop last - (s + e)))| := by congr 1; ring
          _ ≤ slack fps + (rest.length + 1) * slack fps :=
            (abs_add_le _ _).trans (add_le_add hgap hdrift)
          _ = ((rest.length + 1 : ℕ) + 1) * slack fps := by push_cast; ring

/-- The end of the last clip is a rational, as the ends of all clips are. -/
theorem exists_lastEnd (first : ℚ) {clips : List (Clip Exact)}
    (times : ∀ clip ∈ clips, ∃ s d e, clip.HasTimes s d e) :
    ∃ last : ℚ, lastEnd (number first) clips = number last := by
  induction clips generalizing first with
  | nil => exact ⟨first, rfl⟩
  | cons head rest ih =>
    rw [List.forall_mem_cons] at times
    obtain ⟨s, d, e, head_times⟩ := times.1
    rw [Layers.lastEnd_cons, head_times.effectiveEnd_eq]
    exact ih (s + e) times.2

/-- Every filler between clips with times lasts for more than the tolerance, at any frame rate. -/
theorem exists_duration_of_mem_fillFrom {rate : Exact} {stop first : ℚ} {clips : List (Clip Exact)}
    (h : (⟨number first, rate⟩ : Cursor Exact).Admits clips)
    (times : ∀ clip ∈ clips, ∃ s d e, clip.HasTimes s d e) {index : ℕ} {f : Filler Exact}
    (hf : .filler f ∈ Entry.fillFrom (number stop) ⟨number first, rate⟩ index clips) :
    ∃ d : ℚ, 1 / 100 < d ∧ f.duration = number d := by
  have hfill {kind : FillerKind} {previous next : ℚ}
      (hf : .filler f ∈ Entry.fill kind ⟨number previous, rate⟩ (number next)) :
      ∃ d : ℚ, 1 / 100 < d ∧ f.duration = number d := by
    rw [Entry.fill, Cursor.gapUntil?] at hf
    split at hf
    · rename_i gap hgap
      split_ifs at hgap with hcounts
      obtain rfl := Option.some.inj hgap
      rw [tolerance_eq, Exact.number_sub, Exact.number_lt] at hcounts
      cases List.mem_singleton.1 hf
      exact ⟨next - previous, hcounts.1, rfl⟩
    · cases hf
  -- on the clips, for a cursor at any rational
  induction clips generalizing first index with
  | nil => exact hfill hf
  | cons head rest ih =>
    rw [List.forall_mem_cons] at times
    obtain ⟨s, d, e, head_times⟩ := times.1
    cases h with
    | cons waits later =>
      rw [Entry.fillFrom, Cursor.place_eq waits, head_times.start_eq,
        head_times.effectiveEnd_eq] at hf
      rw [head_times.effectiveEnd_eq] at later
      rcases List.mem_append.1 hf with hf | hf
      · exact hfill hf
      · rcases List.mem_cons.1 hf with hf | hf
        · cases hf
        · exact ih later times.2 hf

/-- So does every filler of a base. -/
theorem exists_duration_of_mem_ofBase {rate : Exact} {stop : ℚ} {base : List (Clip Exact)}
    (h : (Cursor.start rate).Admits base) (times : ∀ clip ∈ base, ∃ s d e, clip.HasTimes s d e)
    {f : Filler Exact} (hf : .filler f ∈ Entry.ofBase base (number stop) rate) :
    ∃ d : ℚ, 1 / 100 < d ∧ f.duration = number d := by
  rw [Entry.ofBase] at hf
  split_ifs at hf
  · cases List.mem_singleton.1 hf
    refine ⟨max stop 1, lt_max_of_lt_right (by norm_num), ?_⟩
    show Scalar.max (number stop) Entry.leastBlank = _
    rw [Entry.leastBlank, one_eq, Exact.max_number]
  · rw [start_eq] at h hf
    exact exists_duration_of_mem_fillFrom h times hf

/-! ### Coverage -/

/-- What stands in a gap between two times: one filler for all of it if it counts, else nothing. -/
structure FillsGap (fps previous next : ℚ) (kind : FillerKind) (f? : Option (Filler Exact)) :
    Prop where
  isSome_iff : f?.isSome = true ↔ Counts fps (next - previous)
  kind_eq : ∀ f ∈ f?, f.kind = kind
  start_eq : ∀ f ∈ f?, f.start = number previous
  stop_eq : ∀ f ∈ f?, f.stop = number next
  duration_pos : ∀ f ∈ f?, ∃ d : ℚ, 0 < d ∧ f.duration = number d

/-- The filler of the code fills its gap. -/
theorem fillsGap_filler? (kind : FillerKind) :
    FillsGap fps previous next kind
      (Entry.filler? kind ⟨number previous, number fps⟩ (number next)) := by
  rw [filler?_number]
  split_ifs with hcounts
  · refine ⟨iff_of_true rfl hcounts, ?_, ?_, ?_, ?_⟩ <;> rintro f ⟨⟩
    · rfl
    · rfl
    · rw [Filler.stop, Exact.number_add, add_sub_cancel]
    · exact ⟨next - previous, by linarith [hcounts.1], rfl⟩
  · exact ⟨iff_of_false nofun hcounts, nofun, nofun, nofun, nofun⟩

/-- The entries for base clips cover a timeline up to its end. -/
structure Covers (base : List (Clip Exact)) (stop fps : ℚ) (entries : List (Entry Exact)) :
    Prop where
  /-- The base clips stand in their order, with their indices. -/
  clips : entries.filterMap Entry.clip? = base.zipIdx.map Prod.swap
  /-- Without a clip one blank covers everything. -/
  blank : base = [] → entries = [.filler ⟨.blank, number 0, number (max stop 1)⟩]
  /-- Before each clip and after the last one, the gap from the clip before is filled if it
  counts. -/
  layout : base ≠ [] → ∃ fillers : ℕ → Option (Filler Exact),
    (entries = (List.range (base.length + 1)).flatMap fun k ↦
      ((fillers k).map .filler).toList ++ (base[k]?.map (.clip k)).toList) ∧
    ∀ k ≤ base.length, ∃ previous next : ℚ,
      lastEnd (number 0) (base.take k) = number previous ∧
      (base[k]?.map Clip.startTime).getD (number stop) = number next ∧
      FillsGap fps previous next (if k < base.length then .gap else .tail) (fillers k)
  /-- The planned length differs from that of the timeline by at most one short gap for every clip
  and one for the end. -/
  drift : base ≠ [] → ∃ (lengths : List ℚ) (last : ℚ),
    lastEnd (number 0) base = number last ∧
    entries.map Entry.duration = lengths.map number ∧
    |lengths.sum - max stop last| ≤ (base.length + 1) * max (1 / 100) (1 / (2 * fps))

/-- The entries for admitted clips cover the timeline. -/
theorem covers_ofBase (hfps : 0 < fps) (stop : ℚ) {base : List (Clip Exact)}
    (h : (Cursor.start (number fps)).Admits base)
    (times : ∀ clip ∈ base, ∃ s d e, clip.HasTimes s d e) :
    Covers base stop fps (Entry.ofBase base (number stop) (number fps)) := by
  rw [start_eq] at h
  have hentries (hbase : base ≠ []) : Entry.ofBase base (number stop) (number fps) =
      Entry.fillFrom (number stop) ⟨number 0, number fps⟩ 0 base := by
    rw [Entry.ofBase, if_neg (mt List.isEmpty_iff.1 hbase), start_eq]
  refine ⟨?_, ?_, fun hbase ↦ ?_, fun hbase ↦ ?_⟩
  · exact Entry.clip?_ofBase base _ _
  · rintro rfl
    show [Entry.filler ⟨.blank, 0.0, Scalar.max (number stop) Entry.leastBlank⟩] = _
    rw [zero_eq, Entry.leastBlank, one_eq, Exact.max_number]
  -- before a clip a filler reaches to its start, and behind the last one to the end of the timeline
  · refine ⟨Entry.fillerAt? (number stop) ⟨number 0, number fps⟩ base, ?_, fun k hk ↦ ?_⟩
    · rw [hentries hbase, Entry.fillFrom_eq h]
      exact List.flatMap_congr fun k _ ↦ by rw [Entry.stretch, Nat.zero_add]
    · obtain ⟨previous, hprevious⟩ := exists_lastEnd 0
        fun clip (hclip : clip ∈ base.take k) ↦ times clip (List.mem_of_mem_take hclip)
      rw [Entry.fillerAt?, hprevious]
      rcases hnext : base[k]? with - | next
      · have hlength : ¬ k < base.length := by
          simpa using hnext
        rw [if_neg hlength]
        exact ⟨previous, stop, rfl, rfl, fillsGap_filler? .tail⟩
      · obtain ⟨s, d, e, next_times⟩ := times next (List.mem_of_getElem? hnext)
        have hlength : k < base.length := (List.getElem?_eq_some_iff.1 hnext).1
        rw [if_pos hlength]
        refine ⟨previous, s, rfl, next_times.start_eq, ?_⟩
        show FillsGap fps previous s .gap (Entry.filler? .gap _ next.startTime)
        rw [next_times.start_eq]
        exact fillsGap_filler? .gap
  · obtain ⟨lengths, last, hlast, hlengths, hdrift⟩ := abs_sum_sub_le hfps stop h times 0
    rw [hentries hbase]
    rw [sub_zero] at hdrift
    exact ⟨lengths, last, hlast, hlengths, hdrift⟩

/-- The entries of a project without faults cover its timeline, at every frame rate. -/
theorem covers_ofProject {project : Project Exact} {canvas : Canvas Exact} {fps : ℚ}
    (hvalid : project.issues = []) (hcanvas : canvas.fps = number fps) (hfps : 0 < fps) :
    ∃ stop : ℚ, project.timelineEnd = number stop ∧
      Covers (Layers.ofClips project.clips canvas.fps).base stop fps
        (Composition.ofProject project canvas).entries := by
  obtain ⟨stop, hstop⟩ := Project.exists_timelineEnd hvalid
  refine ⟨stop, hstop, ?_⟩
  show Covers _ stop fps (Entry.ofBase _ project.timelineEnd canvas.fps)
  rw [hstop, hcanvas]
  refine covers_ofBase hfps stop (Layers.admits_base _ _) fun clip hclip ↦ ?_
  exact Clip.exists_times
    (project.issues_clip hvalid clip (Layers.mem_candidates_of_mem_base _ _ hclip).1)

/-- The sample is covered. -/
theorem covers_sample :
    (Sample.project : Project Exact).issues = [] ∧ (Sample.canvas : Canvas Exact).fps = number 30 ∧
      (0 : ℚ) < 30 ∧
      ∃ stop : ℚ, (Sample.project : Project Exact).timelineEnd = number stop ∧
        Covers (Layers.ofClips Sample.project.clips Sample.canvas.fps).base stop 30
          (Composition.ofProject (Sample.project : Project Exact) Sample.canvas).entries := by
  have hvalid : (Sample.project : Project Exact).issues = [] := by decide +kernel
  have hcanvas : (Sample.canvas : Canvas Exact).fps = number 30 := by decide +kernel
  have hfps : (0 : ℚ) < 30 := by norm_num
  exact ⟨hvalid, hcanvas, hfps, covers_ofProject hvalid hcanvas hfps⟩

end Coverage

end Splice
