import Mathlib
import Splice.Proofs.Plan.Coverage
import Splice.Proofs.Render.Assembly
import Splice.Proofs.Render.Decoration
import Splice.Proofs.Render.Success

/-!
# Duration of a render

In exact numbers, a render is as long as its entries, less the blends between them, and neither
bound in a merge ever applies: no blend begins before its first file does, and no result is held up
by the shortest length of a blend. The invariant of the merges is that what is there is never
shorter than the piece merged last (`MergeRun.account`). Since a blend is no longer than either of
its clips as they are planned, and a segment is no shorter than its clip (`Piece.Measured`), the
invariant carries over every merge (`SequenceRun.account`), with the fallback or without it.
-/

namespace Splice

open Exact (number)

/-! ### Accounts -/

/-- The length of the file that is rendered for an entry. -/
def Entry.renderedDuration {α : Type} [Scalar α] : Entry α → α
  | clip _ c => match c.video? with
    | some media => (media.excerpt c.duration).outputDuration
    | none => c.duration
  | filler f => f.duration

/-- The length of an entry, in the step that says it is rendered. -/
def MergeStep.rendered? {α : Type} : MergeStep α → Option α
  | filler f => some f.duration
  | clip _ duration => some duration
  | _ => none

/-- A step after which the lengths add up. -/
def MergeStep.AddsUp : MergeStep Exact → Prop
  | transition _ _ _ duration left right result _ => ∃ d l r : ℚ,
    duration = number d ∧ left = number l ∧ right = number r ∧
      result = number (l + r - d) ∧ 1 / 100 < l + r - d
  | concat left right result => ∃ l r : ℚ,
    left = number l ∧ right = number r ∧ result = number (l + r)
  | _ => True

/-- Whether the event is a job that blends files. -/
def Event.isBlend {α : Type} : Event α → Bool
  | .ran (.transition _) _ => true
  | _ => false

theorem Event.filterMap_step?_of_quiet {α : Type} {events : List (Event α)}
    (h : ∀ e ∈ events, e.isQuiet = true) : events.filterMap Event.step? = [] := by
  refine List.filterMap_eq_nil_iff.2 fun e he ↦ ?_
  have hquiet := h e he
  cases e with
  | merged => cases hquiet
  | _ => rfl

/-- A quiet event is no blend. -/
theorem Event.isBlend_of_isQuiet {α : Type} {e : Event α} (h : e.isQuiet = true) :
    e.isBlend = false := by
  cases e with
  | ran job failure? =>
    cases job with
    | transition => cases h
    | _ => rfl
  | _ => rfl

/-- A job that blends as a step says, and begins inside the file on the left. -/
def Job.Transition.Fits (job : Job.Transition Exact) (step : MergeStep Exact) : Prop :=
  ∃ (fromId toId : String) (style : TransitionStyle) (d l : ℚ) (right result : Exact)
    (usedFallback : Bool),
    step = .transition fromId toId style (number d) (number l) right result usedFallback ∧
      job.duration = number d ∧ job.offset = number (l - d) ∧ 0 ≤ l - d

/-- Every job that blends fits the next step. -/
def JobsFit (events : List (Event Exact)) : Prop :=
  ∀ pre job failure? post, events = pre ++ .ran (.transition job) failure? :: post →
    ∃ step ∈ (post.filterMap Event.step?).head?, job.Fits step

namespace JobsFit

/-- Blends that fit the next step in each of two runs fit in both, one after the other. -/
theorem append {a b : List (Event Exact)} (ha : JobsFit a) (hb : JobsFit b) : JobsFit (a ++ b) := by
  intro pre job failure? post h
  rcases List.append_eq_append_iff.1 h with ⟨middle, rfl, hmiddle⟩ | ⟨middle, rfl, hmiddle⟩
  · exact hb middle job failure? post hmiddle
  · cases middle with
    | nil => exact hb [] job failure? post hmiddle.symm
    | cons e rest =>
      obtain ⟨rfl, rfl⟩ := List.cons.inj hmiddle
      obtain ⟨step, hstep, hfits⟩ := ha pre job failure? rest rfl
      refine ⟨step, ?_, hfits⟩
      show step ∈ ((rest ++ b).filterMap Event.step?).head?
      rw [List.filterMap_append, List.head?_append, Option.mem_def.1 hstep]
      rfl

/-- A blend may come first if it fits the first step that follows. -/
theorem cons {job : Job.Transition Exact} {failure? : Option Failure} {events : List (Event Exact)}
    {step : MergeStep Exact} (hnext : (events.filterMap Event.step?).head? = some step)
    (hjob : job.Fits step) (h : JobsFit events) :
    JobsFit (.ran (.transition job) failure? :: events) := by
  intro pre job' failure?' post hevents
  cases pre with
  | nil =>
    cases hevents
    exact ⟨step, hnext, hjob⟩
  | cons e pre =>
    obtain ⟨rfl, rfl⟩ := List.cons.inj hevents
    exact h pre job' failure?' post rfl

/-- Without a blend there is nothing to fit. -/
theorem of_no_blend {events : List (Event Exact)} (h : ∀ e ∈ events, e.isBlend = false) :
    JobsFit events := by
  intro pre job failure? post hevents
  rw [hevents] at h
  exact nomatch h _ (List.mem_append_right pre List.mem_cons_self)

theorem nil : JobsFit [] := of_no_blend (List.forall_mem_nil _)

theorem merged (step : MergeStep Exact) : JobsFit [.merged step] :=
  of_no_blend (List.forall_mem_singleton.2 rfl)

theorem of_quiet {events : List (Event Exact)} (h : ∀ e ∈ events, e.isQuiet = true) :
    JobsFit events :=
  of_no_blend fun e he ↦ Event.isBlend_of_isQuiet (h e he)

end JobsFit

/-! ### Merges -/

theorem leastMerged_eq : (leastMerged : Exact) = number (1 / 100) := Coverage.tolerance_eq

/-- A seam joins neighbours of the base by the transition between them. -/
theorem Piece.transitionTo?_eq_some {α : Type} {blendAfter? : ℕ → Option (TransitionStyle × α)}
    {last? next? : Option (ℕ × String)} {style : TransitionStyle} {duration : α}
    {fromId toId : String}
    (h : Piece.transitionTo? blendAfter? last? next? = some (style, duration, fromId, toId)) :
    ∃ i, last? = some (i, fromId) ∧ next? = some (i + 1, toId) ∧
      blendAfter? i = some (style, duration) := by
  rcases last? with - | ⟨i, _⟩
  · cases h
  rcases next? with - | ⟨j, _⟩
  · cases h
  rw [Piece.transitionTo?] at h
  split_ifs at h with hij
  obtain ⟨⟨style', duration'⟩, hblend, heq⟩ := Option.map_eq_some_iff.1 h
  obtain ⟨rfl, rfl, rfl, rfl⟩ : style' = style ∧ duration' = duration ∧ _ = fromId ∧ _ = toId := by
    simpa using heq
  exact ⟨i, rfl, by rw [hij], hblend⟩

/-- A seam that fits between a file of length `l` and one of length `r`. -/
def Seam.FitsBetween (l r : ℚ) (seam : Seam Exact) : Prop :=
  ∃ d : ℚ, seam.2.1 = number d ∧ d ≤ l ∧ d ≤ r

/-- A blend that is no longer than its first file begins inside it. -/
theorem Job.Transition.Blends.fits {job : Job.Transition Exact} {l d : ℚ} {style : TransitionStyle}
    (h : job.Blends (number l) (number d) style) (hd : d ≤ l) (fromId toId : String)
    (used : TransitionStyle) (right result : Exact) (usedFallback : Bool) :
    job.Fits (.transition fromId toId used (number d) (number l) right result usedFallback) := by
  refine ⟨_, _, _, d, l, _, _, _, rfl, h.duration_eq, ?_, by linarith⟩
  rw [h.offset_eq, Exact.number_sub, zero_eq, Exact.max_number, max_eq_left (by linarith)]

/-- Where enough is left, the shortest length does not show. -/
theorem blendedLength_eq {l r d : ℚ} (h : 1 / 100 < l + r - d) :
    blendedLength (number l) (number r) (number d) = number (l + r - d) := by
  rw [blendedLength, Exact.number_add, Exact.number_sub, leastMerged_eq, Exact.max_number,
    max_eq_left h.le]

/-- What a seam that fits takes off leaves more than the shortest length, and no less than the file
on the right. -/
theorem Seam.FitsBetween.exists_blended {l r : ℚ} {style : TransitionStyle} {duration : Exact}
    {fromId toId : String} (h : FitsBetween l r (style, duration, fromId, toId))
    (hr : 1 / 100 < r) :
    ∃ d : ℚ, duration = number d ∧ d ≤ l ∧ r ≤ l + r - d ∧ 1 / 100 < l + r - d ∧
      blendedLength (number l) (number r) duration = number (l + r - d) := by
  obtain ⟨d, hd, hdl, -⟩ := h
  obtain rfl : duration = number d := hd
  have hle : r ≤ l + r - d := by linarith
  have hfloor : 1 / 100 < l + r - d := hr.trans_le hle
  exact ⟨d, rfl, hdl, hle, hfloor, blendedLength_eq hfloor⟩

/-- One merge: the lengths add up, and the result is no shorter than what was merged last. -/
theorem MergeRun.account {l r : ℚ} {seam? : Option (Seam Exact)} {merged : Exact}
    {events : List (Event Exact)} (h : MergeRun (number l) (number r) seam? merged events)
    (hl : 0 ≤ l) (hr : 1 / 100 < r) (hseam : ∀ seam ∈ seam?, seam.FitsBetween l r) :
    ∃ blends : List ℚ, seam?.toList.map (·.2.1) = blends.map number ∧
      merged = number (l + r - blends.sum) ∧ r ≤ l + r - blends.sum ∧
      (∀ step ∈ events.filterMap Event.step?, step.AddsUp) ∧ JobsFit events := by
  cases h with
  | @blend style duration fromId toId job hjob =>
    obtain ⟨d, rfl, hdl, hle, hfloor, hlength⟩ := (hseam _ rfl).exists_blended hr
    rw [hlength]
    refine ⟨[d], rfl, by rw [List.sum_singleton], by rwa [List.sum_singleton], ?_, ?_⟩
    · exact List.forall_mem_singleton.2 ⟨d, l, r, rfl, rfl, rfl, rfl, hfloor⟩
    · exact .cons rfl (hjob.fits hdl _ _ _ _ _ _) (.merged _)
  | @fallback style duration fromId toId job second e hjob hsecond =>
    obtain ⟨d, rfl, hdl, hle, hfloor, hlength⟩ := (hseam _ rfl).exists_blended hr
    rw [hlength]
    refine ⟨[d], rfl, by rw [List.sum_singleton], by rwa [List.sum_singleton], ?_, ?_⟩
    · exact List.forall_mem_singleton.2 ⟨d, l, r, rfl, rfl, rfl, rfl, hfloor⟩
    · -- the job that failed and the second one both fit the only step
      exact .cons rfl (hjob.fits hdl _ _ _ _ _ _)
        (.cons rfl (hsecond.fits hdl _ _ _ _ _ _) (.merged _))
  | concat =>
    refine ⟨[], rfl, ?_, ?_, ?_, ?_⟩
    · rw [Exact.number_add, List.sum_nil, sub_zero]
    · rw [List.sum_nil]
      linarith
    · exact List.forall_mem_singleton.2 ⟨l, r, rfl, rfl, rfl⟩
    · exact .of_no_blend (List.forall_mem_cons.2 ⟨rfl, List.forall_mem_singleton.2 rfl⟩)

/-! ### Sequences of merges -/

/-- A rendered piece of a known length, no shorter than the blends at its edges. -/
structure Piece.Measured (blendAfter? : ℕ → Option (TransitionStyle × Exact))
    (piece : Piece Exact) (r : ℚ) : Prop where
  duration_eq : piece.rendered.duration = number r
  floor_lt : 1 / 100 < r
  outgoing : ∀ i id style duration, piece.clip? = some (i, id) →
    blendAfter? i = some (style, duration) → ∃ d : ℚ, duration = number d ∧ d ≤ r
  incoming : ∀ i id style duration, piece.clip? = some (i + 1, id) →
    blendAfter? i = some (style, duration) → ∃ d : ℚ, duration = number d ∧ d ≤ r

/-- A seam before a measured piece fits, if it is no longer than what is there. -/
theorem Piece.Measured.fitsBetween {blendAfter? : ℕ → Option (TransitionStyle × Exact)} {l r : ℚ}
    {last? : Option (ℕ × String)} {next : Piece Exact} (hnext : next.Measured blendAfter? r)
    (hlast : ∀ i id style duration, last? = some (i, id) →
      blendAfter? i = some (style, duration) → ∃ d : ℚ, duration = number d ∧ d ≤ l) :
    ∀ seam ∈ Piece.transitionTo? blendAfter? last? next.clip?, Seam.FitsBetween l r seam := by
  rintro ⟨style, duration, fromId, toId⟩ hseam
  obtain ⟨i, hi, hj, hblend⟩ := Piece.transitionTo?_eq_some hseam
  obtain ⟨d, rfl, hdl⟩ := hlast i fromId style duration hi hblend
  obtain ⟨d', hd', hdr⟩ := hnext.incoming i toId style _ hj hblend
  obtain rfl := Exact.number.inj hd'
  exact ⟨d, rfl, hdl, hdr⟩

/-- All merges: the result is as long as the pieces, less the seams that blend. -/
theorem SequenceRun.account {blendAfter? : ℕ → Option (TransitionStyle × Exact)} {l : ℚ}
    {last? : Option (ℕ × String)} {pieces : List (Piece Exact)} {result : Exact}
    {events : List (Event Exact)}
    (h : SequenceRun blendAfter? (number l) last? pieces result events) (hl : 0 ≤ l)
    (hlast : ∀ i id style duration, last? = some (i, id) →
      blendAfter? i = some (style, duration) → ∃ d : ℚ, duration = number d ∧ d ≤ l)
    (hpieces : ∀ piece ∈ pieces, ∃ r, piece.Measured blendAfter? r) :
    ∃ lengths blends : List ℚ,
      pieces.map (·.rendered.duration) = lengths.map number ∧
      (Seam.between blendAfter? last? (pieces.map Piece.clip?)).reduceOption.map (·.2.1) =
        blends.map number ∧
      result = number (l + lengths.sum - blends.sum) ∧
      (∀ step ∈ events.filterMap Event.step?, step.AddsUp) ∧ JobsFit events := by
  induction pieces generalizing l last? events with
  | nil =>
    cases h
    refine ⟨[], [], rfl, rfl, ?_, List.forall_mem_nil _, .nil⟩
    rw [List.sum_nil, add_zero, sub_zero]
  | cons next rest ih =>
    rw [List.forall_mem_cons] at hpieces
    obtain ⟨⟨r, hnext⟩, hrest⟩ := hpieces
    cases h with
    | @cons _ merged _ _ _ _ first more head tail =>
      rw [hnext.duration_eq] at head
      -- what is there is no shorter than the clip on its right edge, so the seam fits
      obtain ⟨blends, hblends, rfl, hle, hsteps, hjobs⟩ :=
        head.account hl hnext.floor_lt (hnext.fitsBetween hlast)
      obtain ⟨lengths, blends', hlengths, hblends', hresult, hsteps', hjobs'⟩ :=
        -- the result of this merge is no shorter than `next`, which is now on the right edge
        ih tail (by linarith [hnext.floor_lt]) (fun i id style duration hi hblend ↦ by
          obtain ⟨d, hd, hdr⟩ := hnext.outgoing i id style duration hi hblend
          exact ⟨d, hd, hdr.trans hle⟩) hrest
      refine ⟨r :: lengths, blends ++ blends', ?_, ?_, ?_, ?_, hjobs.append hjobs'⟩
      · rw [List.map_cons, hnext.duration_eq, hlengths, List.map_cons]
      · rw [List.map_cons, Seam.between, List.map_append, ← hblends, ← hblends']
        cases Piece.transitionTo? blendAfter? last? next.clip? <;> rfl
      · rw [hresult, List.sum_cons, List.sum_append]
        congr 1
        ring
      · rw [List.filterMap_append]
        exact List.forall_mem_append.2 ⟨hsteps, hsteps'⟩

/-! ### Pieces of a project -/

namespace Composition

variable {project : Project Exact} {canvas : Canvas Exact}

/-- In a faultless project the clips of the base have times without faults. -/
theorem exists_times_of_mem_base (hvalid : project.issues = []) :
    ∀ clip ∈ (ofProject project canvas).layers.base, clip.issues = [] ∧
      ∃ s d e, clip.HasTimes s d e := fun clip hclip ↦
  have hissues := project.issues_clip hvalid clip
    (Layers.mem_candidates_of_mem_base project.clips canvas.fps hclip).1
  ⟨hissues, Clip.exists_times hissues⟩

/-- An accepted transition takes some time, and is no longer than either of its clips. -/
theorem exists_length_of_blendAfter? (hvalid : project.issues = []) {i : ℕ}
    {style : TransitionStyle} {duration : Exact}
    (h : (ofProject project canvas).blendAfter? i = some (style, duration)) :
    ∃ d : ℚ, duration = number d ∧ 0 < d ∧
      ∀ k, k = i ∨ k = i + 1 → ∀ clip, (ofProject project canvas).layers.base[k]? = some clip →
        ∀ e, clip.effectiveDuration = number e → d ≤ e := by
  obtain ⟨decision, hdecision, htransition⟩ := Option.bind_eq_some_iff.1 h
  have haccepted := (EdgeDecision.transition?_eq_some_iff.1 htransition).1
  rw [show (ofProject project canvas).decisions = EdgeDecision.decideFrom canvas.fps 0
      (ofProject project canvas).layers.base from rfl,
    EdgeDecision.getElem?_decideFrom, Option.bind_eq_some_iff] at hdecision
  obtain ⟨previous, hprevious, hdecide⟩ := hdecision
  obtain ⟨next, hnext, rfl⟩ := Option.map_eq_some_iff.1 hdecide
  obtain ⟨-, _, _, e, times⟩ := exists_times_of_mem_base hvalid _ (List.mem_of_getElem? hprevious)
  obtain ⟨-, _, _, e', times'⟩ := exists_times_of_mem_base hvalid _ (List.mem_of_getElem? hnext)
  obtain ⟨q, hq⟩ := Exact.exists_finiteElse 0 previous.effects.transitionDuration?
  obtain ⟨style', hrequested, hlength⟩ := EdgeDecision.transition?_decide haccepted
  -- the length is the requested one, cut down to that of either clip
  have hduration : duration = number (min q (min e e')) := by
    rw [htransition, Effects.transitionDuration, zero_eq, hq, times.effective_eq,
      times'.effective_eq, Exact.min_number, Exact.min_number] at hlength
    exact (Prod.mk.inj (Option.some.inj hlength)).2
  have hpos : 0 < q := by
    rw [Effects.transitionDuration, zero_eq, hq] at hrequested
    exact (Exact.number_lt 0 q).1 hrequested
  refine ⟨min q (min e e'), hduration, lt_min hpos (lt_min times.effective_pos
    times'.effective_pos), fun k hk clip hclip e₀ he₀ ↦ ?_⟩
  rcases hk with rfl | rfl
  · obtain rfl := Option.some.inj (hprevious.symm.trans hclip)
    obtain rfl := Exact.number.inj (times.effective_eq.symm.trans he₀)
    exact (min_le_right _ _).trans (min_le_left _ _)
  · obtain rfl := Option.some.inj (hnext.symm.trans hclip)
    obtain rfl := Exact.number.inj (times'.effective_eq.symm.trans he₀)
    exact (min_le_right _ _).trans (min_le_right _ _)

/-- A filler is longer than the shortest gap that counts. -/
theorem exists_duration_of_mem_entries (hvalid : project.issues = []) {filler : Filler Exact}
    (h : .filler filler ∈ (ofProject project canvas).entries) :
    ∃ d : ℚ, 1 / 100 < d ∧ filler.duration = number d := by
  obtain ⟨stop, hstop⟩ := Project.exists_timelineEnd hvalid
  have hmem : .filler filler ∈
      Entry.ofBase (ofProject project canvas).layers.base (number stop) canvas.fps := by
    rw [← hstop]
    exact h
  exact Coverage.exists_duration_of_mem_ofBase (Layers.admits_base project.clips canvas.fps)
    (fun clip hclip ↦ (exists_times_of_mem_base hvalid clip hclip).2) hmem

/-- The piece that is rendered for an entry is no shorter than the blends at its edges. -/
theorem exists_measured (hvalid : project.issues = []) {entry : Entry Exact}
    (hentry : entry ∈ (ofProject project canvas).entries) {piece : Piece Exact}
    {events : List (Event Exact)} (h : EntryRun entry piece events) :
    ∃ r, piece.Measured (ofProject project canvas).blendAfter? r := by
  cases h with
  | @clip index clip media path job hcontent =>
    have hbase : (ofProject project canvas).layers.base[index]? = some clip :=
      Entry.getElem?_of_mem_ofBase hentry
    obtain ⟨hissues, s, d, e, times⟩ :=
      exists_times_of_mem_base hvalid clip (List.mem_of_getElem? hbase)
    -- transitions are clamped to the planned length `e`; the segment can only be longer
    refine ⟨max e (1 / 20), Clip.outputDuration_eq hissues hcontent times,
      lt_max_of_lt_right (by norm_num), ?_, ?_⟩
    · rintro i id style duration hi hblend
      obtain ⟨length, rfl, -, hle⟩ := exists_length_of_blendAfter? hvalid hblend
      obtain rfl : index = i := congrArg Prod.fst (Option.some.inj hi)
      exact ⟨length, rfl, le_max_of_le_left (hle _ (.inl rfl) clip hbase e times.effective_eq)⟩
    · rintro i id style duration hi hblend
      obtain ⟨length, rfl, -, hle⟩ := exists_length_of_blendAfter? hvalid hblend
      obtain rfl : index = i + 1 := congrArg Prod.fst (Option.some.inj hi)
      exact ⟨length, rfl, le_max_of_le_left (hle _ (.inr rfl) clip hbase e times.effective_eq)⟩
  | @filler filler path job =>
    obtain ⟨d, hd, hduration⟩ := exists_duration_of_mem_entries hvalid hentry
    exact ⟨d, hduration, hd, nofun, nofun⟩

/-- All pieces that are rendered for the entries are measured. -/
theorem exists_measured_of_run (hvalid : project.issues = []) {entries : List (Entry Exact)}
    (hentries : ∀ entry ∈ entries, entry ∈ (ofProject project canvas).entries)
    {pieces : List (Piece Exact)} {events : List (Event Exact)}
    (h : EntriesRun entries pieces events) :
    ∀ piece ∈ pieces, ∃ r, piece.Measured (ofProject project canvas).blendAfter? r := by
  induction h with
  | nil => exact List.forall_mem_nil _
  | cons head _ ih =>
    rw [List.forall_mem_cons] at hentries
    exact List.forall_mem_cons.2 ⟨exists_measured hvalid hentries.1 head, ih hentries.2⟩

end Composition

/-- A rendered entry leaves one step, with the length of its file. -/
theorem EntryRun.account {entry : Entry Exact} {piece : Piece Exact} {events : List (Event Exact)}
    (h : EntryRun entry piece events) : ∃ step, events.filterMap Event.step? = [step] ∧
      step.rendered? = some entry.renderedDuration ∧
      piece.rendered.duration = entry.renderedDuration ∧ step.AddsUp ∧ JobsFit events := by
  cases h with
  | @clip index clip media path job hcontent =>
    have hduration : (Entry.clip index clip).renderedDuration =
        (media.excerpt clip.duration).outputDuration := by
      rw [Entry.renderedDuration, Clip.video?, hcontent]
    refine ⟨_, rfl, by rw [hduration]; rfl, hduration.symm, trivial, .of_no_blend ?_⟩
    exact List.forall_mem_cons.2 ⟨rfl, List.forall_mem_singleton.2 rfl⟩
  | filler =>
    refine ⟨_, rfl, rfl, rfl, trivial, .of_no_blend ?_⟩
    exact List.forall_mem_cons.2 ⟨rfl, List.forall_mem_singleton.2 rfl⟩

/-- The rendered entries leave one step each, with the length of its file. -/
theorem EntriesRun.account {entries : List (Entry Exact)} {pieces : List (Piece Exact)}
    {events : List (Event Exact)} (h : EntriesRun entries pieces events) :
    pieces.map (·.rendered.duration) = entries.map Entry.renderedDuration ∧
      (events.filterMap Event.step?).filterMap MergeStep.rendered? =
        entries.map Entry.renderedDuration ∧
      (∀ step ∈ events.filterMap Event.step?, step.AddsUp) ∧ JobsFit events := by
  induction h with
  | nil => exact ⟨rfl, rfl, List.forall_mem_nil _, .nil⟩
  | cons head _ ih =>
    obtain ⟨step, hstep, hrendered, hpiece, haddsUp, hjobs⟩ := head.account
    obtain ⟨hpieces, hrest, hsteps, hjobs'⟩ := ih
    refine ⟨?_, ?_, ?_, hjobs.append hjobs'⟩
    · rw [List.map_cons, List.map_cons, hpiece, hpieces]
    · rw [List.filterMap_append, hstep, List.singleton_append, List.filterMap_cons, hrendered,
        hrest, List.map_cons]
    · rw [List.filterMap_append, hstep, List.singleton_append]
      exact List.forall_mem_cons.2 ⟨haddsUp, hsteps⟩

/-! ### Accounts of a composition -/

namespace Composition

/-- What the events of a render have to add up to. -/
structure Accounts (c : Composition Exact) (total : Exact) (events : List (Event Exact)) : Prop where
  /-- For every entry there is a step with the length of its file. -/
  recorded : (events.filterMap Event.step?).filterMap MergeStep.rendered? =
    c.entries.map Entry.renderedDuration
  /-- The total is the length of all these files, less that of all accepted transitions. -/
  total_eq : ∃ lengths blends : List ℚ,
    c.entries.map Entry.renderedDuration = lengths.map number ∧
    (c.decisions.filter EdgeDecision.isAccepted).map EdgeDecision.duration? =
      blends.map (fun d ↦ some (number d)) ∧
    total = number (lengths.sum - blends.sum)
  /-- No merge hits the shortest length. -/
  steps : ∀ step ∈ events.filterMap Event.step?, step.AddsUp
  /-- Every blend begins where its first file has as much left as the blend takes. -/
  jobs : JobsFit events

variable {project : Project Exact} {canvas : Canvas Exact}

/-- The lengths of the accepted transitions are those of the seams. -/
theorem map_duration?_accepted (project : Project Exact) (canvas : Canvas Exact) :
    ((ofProject project canvas).decisions.filter EdgeDecision.isAccepted).map
        EdgeDecision.duration? =
      (Seam.all (ofProject project canvas).blendAfter?
        ((ofProject project canvas).entries.map Entry.label)).reduceOption.map
          fun seam ↦ some seam.2.1 := by
  have hdecisions := congrArg (List.map fun x : String × String × Option Exact ↦ x.2.2)
    (EdgeDecision.map_filterMap_seam? (ofProject project canvas).layers.base canvas.fps)
  rw [List.map_map, List.map_map] at hdecisions
  rw [seams_eq]
  exact hdecisions.symm

/-- The account of a run that renders the entries and merges them. -/
theorem accounts_of_runs (hvalid : project.issues = []) {first : Piece Exact}
    {rest : List (Piece Exact)} {total : Exact} {rendering between merging : List (Event Exact)}
    (hentries : EntriesRun (ofProject project canvas).entries (first :: rest) rendering)
    (hbetween : ∀ e ∈ between, e.isQuiet = true)
    (hmerges : SequenceRun (ofProject project canvas).blendAfter? first.rendered.duration
      first.clip? rest total merging) :
    (ofProject project canvas).Accounts total (rendering ++ (between ++ merging)) := by
  obtain ⟨hpieces, hrecorded, hsteps, hjobs⟩ := hentries.account
  have hmeasured := exists_measured_of_run hvalid (fun _ h ↦ h) hentries
  rw [List.forall_mem_cons] at hmeasured
  obtain ⟨⟨l, hfirst⟩, hrest⟩ := hmeasured
  -- merges record no entry
  have hplain : (merging.filterMap Event.step?).filterMap MergeStep.rendered? = [] := by
    refine List.filterMap_eq_nil_iff.2 fun step hstep ↦ ?_
    have hconcat := hmerges.isConcat_of_blend?_eq_none step hstep
    cases step with
    | transition | concat => rfl
    | filler | clip => exact nomatch hconcat rfl
  rw [hfirst.duration_eq] at hmerges
  obtain ⟨lengths, blends, hlengths, hblends, htotal, hsteps', hjobs'⟩ :=
    hmerges.account (by linarith [hfirst.floor_lt]) hfirst.outgoing hrest
  have hall : (rendering ++ (between ++ merging)).filterMap Event.step? =
      rendering.filterMap Event.step? ++ merging.filterMap Event.step? := by
    rw [List.filterMap_append, List.filterMap_append, Event.filterMap_step?_of_quiet hbetween,
      List.nil_append]
  refine ⟨?_, ⟨l :: lengths, blends, ?_, ?_, ?_⟩, ?_,
    hjobs.append ((JobsFit.of_quiet hbetween).append hjobs')⟩
  · rw [hall, List.filterMap_append, hrecorded, hplain, List.append_nil]
  · rw [← hpieces, List.map_cons, hfirst.duration_eq, hlengths, List.map_cons]
  · rw [map_duration?_accepted, ← hentries.labels_eq]
    have hsome := congrArg (List.map some) hblends
    rw [List.map_map, List.map_map] at hsome
    exact hsome
  · rw [htotal, List.sum_cons]
  · rw [hall]
    exact List.forall_mem_append.2 ⟨hsteps, hsteps'⟩

/-- Quiet events around it change nothing in an account. -/
theorem Accounts.surround {c : Composition Exact} {total : Exact}
    {before events after : List (Event Exact)} (h : c.Accounts total events)
    (hbefore : ∀ e ∈ before, e.isQuiet = true) (hafter : ∀ e ∈ after, e.isQuiet = true) :
    c.Accounts total (before ++ (events ++ after)) := by
  have hall : (before ++ (events ++ after)).filterMap Event.step? =
      events.filterMap Event.step? := by
    rw [List.filterMap_append, List.filterMap_append, Event.filterMap_step?_of_quiet hbefore,
      Event.filterMap_step?_of_quiet hafter, List.nil_append, List.append_nil]
  refine ⟨?_, h.total_eq, ?_,
    (JobsFit.of_quiet hbefore).append (h.jobs.append (JobsFit.of_quiet hafter))⟩
  · rw [hall]
    exact h.recorded
  · rw [hall]
    exact h.steps

end Composition

/-! ### Renders -/

namespace Studio

open RenderT (ends_bind_ok)
open Session (adds_of_ends_perform)

variable {σ : Type} {α : Type} {p q : Situation α σ}

/-- Reaching a stage is a quiet event. -/
theorem quietly_of_ends_reach {studio : Studio (StateM σ) α} {stage : Stage} {r : Unit}
    (h : (studio.reach stage).Ends p (.ok r) q) : p.AddsQuietly q :=
  (adds_of_ends_reach h).quietly_singleton rfl

/-- A successful assembly renders the entries and merges them, and all else is quiet. -/
theorem exists_runs_of_ends_assemble [Scalar α] {studio : Studio (StateM σ) α}
    {session : Session (StateM σ) α} {c : Composition α} {file : RenderedFile α}
    (h : (studio.assemble session c).Ends p (.ok file) q) :
    ∃ first rest rendering merging, EntriesRun c.entries (first :: rest) rendering ∧
      SequenceRun c.blendAfter? first.rendered.duration first.clip? rest file.duration merging ∧
      ∃ before between after : List (Event α), (∀ e ∈ before, e.isQuiet = true) ∧
        (∀ e ∈ between, e.isQuiet = true) ∧ (∀ e ∈ after, e.isQuiet = true) ∧
        p.Adds (before ++ ((rendering ++ (between ++ merging)) ++ after)) q := by
  obtain ⟨pieces, base, painted, p₁, p₂, p₃, p₄, p₅, p₆, p₇, hreach₁, hentries, hreach₂, hmerge,
    hreach₃, hoverlays, hreach₄, hsounds⟩ := ends_assemble h
  obtain ⟨rendering, hrendering, hadds⟩ := Session.ends_renderEntries hentries
  obtain ⟨first, rest, merging, rfl, hmerging, hadds'⟩ := Session.ends_mergePieces hmerge
  obtain ⟨hpainted, hquiet₃⟩ := Session.keeps_addOverlays hoverlays
  obtain ⟨hfile, hquiet₄⟩ := Session.keeps_addSounds hsounds
  obtain ⟨before, hbefore, hquiet⟩ := hreach₁.quietly_singleton rfl
  obtain ⟨between, hbetween, hquiet₂⟩ := hreach₂.quietly_singleton rfl
  obtain ⟨after, hafter, hquiet'⟩ := ((hreach₃.quietly_singleton rfl).trans hquiet₃).trans
    ((hreach₄.quietly_singleton rfl).trans hquiet₄)
  rw [← hpainted, ← hfile] at hmerging
  exact ⟨first, rest, rendering, merging, hrendering, hmerging, before, between, after, hquiet,
    hquiet₂, hquiet', hbefore.trans ((hadds.trans (hbetween.trans hadds')).trans hafter)⟩

section Exact

variable {studio : Studio (StateM σ) Exact} {p q : Situation Exact σ} {project : Project Exact}
  {canvas : Canvas Exact}

/-- An assembly of a faultless project adds up. -/
theorem accounts_of_ends_assemble {session : Session (StateM σ) Exact}
    {file : RenderedFile Exact} (hvalid : project.issues = [])
    (h : (studio.assemble session (.ofProject project canvas)).Ends p (.ok file) q) :
    ∃ events, p.Adds events q ∧
      (Composition.ofProject project canvas).Accounts file.duration events := by
  obtain ⟨first, rest, rendering, merging, hrendering, hmerging, before, between, after, hbefore,
    hbetween, hafter, hadds⟩ := exists_runs_of_ends_assemble h
  exact ⟨_, hadds,
    (Composition.accounts_of_runs hvalid hrendering hbetween hmerging).surround hbefore hafter⟩

/-- So does a render after its plan is made. -/
theorem accounts_of_ends_renderPlanned {media : Manifest} {destination workdir : Path}
    {options : RenderOptions} {report : RenderReport Exact} (hvalid : project.issues = [])
    (h : (studio.renderPlanned project media (.ofProject project canvas) destination options
      workdir).Ends p (.ok report) q) :
    report.canvas = canvas ∧ ∃ events, p.Adds events q ∧
      (Composition.ofProject project canvas).Accounts report.duration events := by
  obtain ⟨hcanvas, rendered, t, hassemble, hduration, hfinished⟩ := ends_renderPlanned h
  obtain ⟨events, hevents, haccounts⟩ := accounts_of_ends_assemble hvalid hassemble
  refine ⟨hcanvas, _, hevents.trans hfinished, ?_⟩
  rw [hduration]
  exact haccounts.surround (List.forall_mem_nil _) (by simp [Event.isQuiet])

/-- A project that passes the check has no faults. -/
theorem issues_of_check {settings : OutputSettings Exact} (h : project.check settings = .ok ()) :
    project.issues = [] := by
  rw [Project.check] at h
  split_ifs at h with hempty hfaults
  have hmessages := (List.append_eq_nil_iff.1 (List.isEmpty_iff.1 hfaults)).1
  exact List.map_eq_nil_iff.1 hmessages

/-- Every successful render adds up. -/
theorem accounts_of_ends_render {media : Manifest} {destination : Path}
    {settings : OutputSettings Exact} {options : RenderOptions} {report : RenderReport Exact}
    (h : (studio.render project media destination settings options).Ends p (.ok report) q) :
    ∃ events, p.Adds events q ∧
      (Composition.ofProject project report.canvas).Accounts report.duration events := by
  obtain ⟨_, p₁, hreach₁, h⟩ := ends_bind_ok.1 h
  obtain ⟨_, p₂, hcheck, h⟩ := ends_bind_ok.1 h
  obtain ⟨_, p₃, hreach₂, h⟩ := ends_bind_ok.1 h
  obtain ⟨canvas, p₄, hcanvas, h⟩ := ends_bind_ok.1 h
  obtain ⟨_, p₅, hreach₃, h⟩ := ends_bind_ok.1 h
  obtain ⟨dir, t, u, hopen, hplanned, hclose⟩ := ends_inFreshDir h
  obtain ⟨hpassed, rfl⟩ := RenderT.ends_ofExcept.1 hcheck
  have hvalid := issues_of_check hpassed.symm
  obtain ⟨rfl, events, hevents, haccounts⟩ := accounts_of_ends_renderPlanned hvalid hplanned
  obtain ⟨before, hbefore, hquiet⟩ := ((quietly_of_ends_reach hreach₁).trans
    ((quietly_of_ends_reach hreach₂).trans ((adds_of_ends_perform hcanvas).quietly.trans
      (quietly_of_ends_reach hreach₃)))).trans hopen.quietly
  exact ⟨_, hbefore.trans (hevents.trans hclose),
    haccounts.surround hquiet (List.forall_mem_nil _)⟩

/-- A render with a fallback, an overlay and a sound. -/
theorem accounts_sample : ∃ report q,
    (Sample.studio.render (Sample.project : Project Exact) Sample.media ⟨"out.mp4"⟩ {} {}).Ends
      ⟨{}, ()⟩ (.ok report) q ∧
    ∃ events, Situation.Adds ⟨{}, ()⟩ events q ∧
      (Composition.ofProject Sample.project report.canvas).Accounts report.duration events := by
  obtain ⟨report, q, hrender⟩ := Sample.exists_ends_render
  exact ⟨report, q, hrender, accounts_of_ends_render hrender⟩

end Exact

end Studio

end Splice
