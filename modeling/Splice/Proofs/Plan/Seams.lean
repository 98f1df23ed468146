import Mathlib.Data.List.ReduceOption
import Splice.Proofs.Plan.Layers
import Splice.Render.Assembly

/-!
# Seams between entries

Three passes measure the gap between two base clips: the scan of the layers, the pass that fills
gaps, and the decision on a transition. On admitted clips the first two have their cursor at the
effective end of the clip before, where the third one measures from, so all three see the same gap.
A gap that gets a filler rounds to at least one frame, and the decision counts those frames and
refuses. Hence no filler stands where a transition is accepted
(`EdgeDecision.fill_eq_nil_of_isAccepted`), and the seams of the entries that blend are the accepted
decisions, in their order (`Composition.seams_eq`).
-/

namespace Splice

variable {α : Type}

/-- What names an entry when its file is merged: the index and the id of a clip, or nothing. -/
def Entry.label : Entry α → Option (ℕ × String)
  | clip index c => some (index, c.id)
  | filler _ => none

/-- A transition between two clips: its style, its length, and the ids of the clips. -/
abbrev Seam (α : Type) : Type := TransitionStyle × α × String × String

namespace Seam

/-- The transitions between neighbours, from a first label on. -/
def between (blendAfter? : ℕ → Option (TransitionStyle × α)) (last? : Option (ℕ × String)) :
    List (Option (ℕ × String)) → List (Option (Seam α))
  | [] => []
  | next? :: rest =>
    Piece.transitionTo? blendAfter? last? next? :: between blendAfter? next? rest

/-- The transitions between all neighbours. -/
def all (blendAfter? : ℕ → Option (TransitionStyle × α)) :
    List (Option (ℕ × String)) → List (Option (Seam α))
  | [] => []
  | first? :: rest => between blendAfter? first? rest

end Seam

/-! ### Decisions -/

namespace EdgeDecision

/-- The transition that a decision asks for, between its clips. -/
def seam? (d : EdgeDecision α) : Option (Seam α) :=
  d.transition?.map fun (style, duration) ↦ (style, duration, d.fromClipId, d.toClipId)

/-- A decision has a transition if it is accepted. -/
theorem transition?_eq_some_iff {d : EdgeDecision α} {style : TransitionStyle} {duration : α} :
    d.transition? = some (style, duration) ↔
      d.isAccepted = true ∧ d.style? = some style ∧ d.duration? = some duration := by
  rw [transition?]
  split_ifs with h
  · rcases d.style? with - | style' <;> rcases d.duration? with - | duration' <;> simp [h]
  · simp [h]

variable [Scalar α]

/-- There is one decision for every two clips in a row. -/
theorem getElem?_decideFrom (fps : α) (index : ℕ) (clips : List (Clip α)) (k : ℕ) :
    (decideFrom fps index clips)[k]? =
      clips[k]?.bind fun previous ↦ clips[k + 1]?.map fun next ↦
        decide (index + k) previous next fps := by
  induction clips generalizing index k with
  | nil => rfl
  | cons previous rest ih =>
    cases rest with
    | nil => cases k <;> rfl
    | cons next rest =>
      cases k with
      | zero => rfl
      | succ k =>
        rw [decideFrom, List.getElem?_cons_succ, ih, show index + 1 + k = index + (k + 1) by omega]
        rfl

/-- Between clips in a row there is one edge less than there are clips. -/
theorem length_ofBase (base : List (Clip α)) (fps : α) :
    (ofBase base fps).length = base.length - 1 := by
  have hfrom (index : ℕ) : (decideFrom fps index base).length = base.length - 1 := by
    induction base generalizing index with
    | nil => rfl
    | cons previous rest ih =>
      cases rest with
      | nil => rfl
      | cons next rest =>
        rw [decideFrom, List.length_cons, ih]
        rfl
  exact hfrom 0

variable {index : ℕ} {previous next : Clip α} {fps : α}

/-- An accepted transition has a style, and a positive length within that of both clips. -/
theorem transition?_decide (h : (decide index previous next fps).isAccepted = true) :
    ∃ style, 0.0 < previous.effects.transitionDuration ∧
      (decide index previous next fps).transition? = some (style,
        Scalar.min previous.effects.transitionDuration
          (Scalar.min previous.effectiveDuration next.effectiveDuration)) := by
  have husable : ((previous.effects.transition?.bind TransitionStyle.ofName?).isSome &&
      Decidable.decide (0.0 < previous.effects.transitionDuration)) = true := by
    by_contra hnot
    rw [isAccepted, decide] at h
    simp only [if_neg hnot] at h
    split_ifs at h <;> cases h
  obtain ⟨hstyle, hpos⟩ := Bool.and_eq_true_iff.1 husable
  obtain ⟨style, hstyle⟩ := Option.isSome_iff_exists.1 hstyle
  refine ⟨style, of_decide_eq_true hpos, ?_⟩
  have hstyle : (decide index previous next fps).style? = some style := hstyle
  have hduration : (decide index previous next fps).duration? = some _ := if_pos husable
  rw [transition?, if_pos h, hstyle, hduration]
  rfl

/-- A transition is accepted only where the gap counts no frame. -/
theorem gapFrames_eq_zero (h : (decide index previous next fps).isAccepted = true) :
    Scalar.toInt64 (Scalar.round ((next.startTime - previous.effectiveEnd) * fps)) = 0 := by
  by_contra hframes
  -- a count other than zero is a reason to refuse, before any other one is looked for
  rw [isAccepted, decide] at h
  simp only [if_pos hframes] at h
  cases h

/-- The accepted decisions of a base, with the ids of their clips and their lengths. -/
theorem map_filterMap_seam? (base : List (Clip α)) (fps : α) :
    ((ofBase base fps).filterMap seam?).map (fun (_, duration, fromId, toId) ↦
        (fromId, toId, some duration)) =
      ((ofBase base fps).filter isAccepted).map fun d ↦ (d.fromClipId, d.toClipId, d.duration?) := by
  have hlist (decisions : List (EdgeDecision α)) (h : ∀ d ∈ decisions, d.isAccepted = true →
      ∃ style duration, d.transition? = some (style, duration)) :
      (decisions.filterMap seam?).map (fun (_, duration, fromId, toId) ↦
          (fromId, toId, some duration)) =
        (decisions.filter isAccepted).map fun d ↦ (d.fromClipId, d.toClipId, d.duration?) := by
    induction decisions with
    | nil => rfl
    | cons d rest ih =>
      rw [List.forall_mem_cons] at h
      rw [List.filterMap_cons, List.filter_cons, seam?]
      by_cases haccepted : d.isAccepted = true
      · obtain ⟨style, duration, htransition⟩ := h.1 haccepted
        rw [if_pos haccepted, List.map_cons, ← ih h.2, htransition,
          (transition?_eq_some_iff.1 htransition).2.2]
        rfl
      · rw [if_neg haccepted, ← ih h.2, transition?, if_neg haccepted]
        rfl
  -- every decision of a base was made by `decide` on two neighbours
  refine hlist _ fun d hd haccepted ↦ ?_
  obtain ⟨k, hk⟩ := List.mem_iff_getElem?.1 hd
  rw [ofBase, getElem?_decideFrom, Option.bind_eq_some_iff] at hk
  obtain ⟨previous, -, hdecide⟩ := hk
  obtain ⟨next, -, rfl⟩ := Option.map_eq_some_iff.1 hdecide
  obtain ⟨style, -, htransition⟩ := transition?_decide haccepted
  exact ⟨style, _, htransition⟩

/-- Where a transition is accepted there is no filler. -/
theorem fill_eq_nil_of_isAccepted [LawfulScalar α] (kind : FillerKind)
    (h : (decide index previous next fps).isAccepted = true) :
    Entry.fill kind ⟨previous.effectiveEnd, fps⟩ next.startTime = [] := by
  have hgap : (⟨previous.effectiveEnd, fps⟩ : Cursor α).gapUntil? next.startTime = none := by
    refine if_neg fun hcounts ↦ ?_
    have hone := Scalar.one_le_toInt64 hcounts.2
    rw [gapFrames_eq_zero h] at hone
    exact absurd hone (by decide)
  rw [Entry.fill, hgap]

end EdgeDecision

/-! ### Entries -/

namespace Entry

variable [Scalar α] [LawfulScalar α] (timelineEnd : α) {c : Cursor α} {clips : List (Clip α)}

/-- The clips of an accepted transition stand next to each other. -/
theorem exists_fillFrom_eq (h : c.Admits clips) {index i : ℕ} {previous next : Clip α}
    (hprevious : clips[i]? = some previous) (hnext : clips[i + 1]? = some next)
    (haccepted : (EdgeDecision.decide (index + i) previous next c.fps).isAccepted = true) :
    ∃ before after, fillFrom timelineEnd c index clips =
      before ++ clip (index + i) previous :: clip (index + i + 1) next :: after := by
  induction h generalizing index i with
  | nil => cases hprevious
  | @cons c head rest waits later ih =>
    cases i with
    | zero =>
      -- the gap at the seam counts no frame, so there is no filler between the two
      obtain rfl : head = previous := Option.some.inj hprevious
      cases later with
      | nil => cases hnext
      | @cons _ second rest waits' later =>
        obtain rfl : second = next := Option.some.inj hnext
        rw [fillFrom, Cursor.place_eq waits, fillFrom,
          EdgeDecision.fill_eq_nil_of_isAccepted .gap haccepted]
        exact ⟨_, _, rfl⟩
    | succ i =>
      rw [show index + (i + 1) = index + 1 + i by omega] at haccepted
      obtain ⟨before, after, hentries⟩ := ih hprevious hnext haccepted
      rw [fillFrom, Cursor.place_eq waits, hentries,
        show index + 1 + i = index + (i + 1) by omega]
      exact ⟨fill .gap c head.startTime ++ clip index head :: before, after,
        (List.append_assoc _ (_ :: _) _).symm⟩

variable {blendAfter? : ℕ → Option (TransitionStyle × α)}

/-- The seams after a clip are the accepted decisions from it on. -/
theorem between_fillFrom {index : ℕ} {last : Clip α} {fps : α}
    (h : Cursor.Admits ⟨last.effectiveEnd, fps⟩ clips)
    (hblend : ∀ k, blendAfter? (index + k) =
      (EdgeDecision.decideFrom fps index (last :: clips))[k]?.bind EdgeDecision.transition?) :
    (Seam.between blendAfter? (some (index, last.id))
        ((fillFrom timelineEnd ⟨last.effectiveEnd, fps⟩ (index + 1) clips).map label)).reduceOption =
      (EdgeDecision.decideFrom fps index (last :: clips)).filterMap EdgeDecision.seam? := by
  induction clips generalizing index last with
  | nil =>
    rw [fillFrom, fill]
    cases Cursor.gapUntil? _ timelineEnd <;> rfl
  | cons next rest ih =>
    cases h with
    | cons waits later =>
      have hshift (k : ℕ) : blendAfter? (index + 1 + k) =
          (EdgeDecision.decideFrom fps (index + 1) (next :: rest))[k]?.bind
            EdgeDecision.transition? := by
        rw [show index + 1 + k = index + (k + 1) by omega, hblend]
        rfl
      have hseam : Piece.transitionTo? blendAfter? (some (index, last.id))
          (some (index + 1, next.id)) = (EdgeDecision.decide index last next fps).seam? := by
        rw [Piece.transitionTo?, if_pos rfl, show blendAfter? index = _ from hblend 0]
        rfl
      rw [fillFrom, Cursor.place_eq waits, EdgeDecision.decideFrom, List.filterMap_cons,
        ← ih later hshift]
      -- with a filler between the clips there are two seams, neither of which blends
      rcases hgap : (⟨last.effectiveEnd, fps⟩ : Cursor α).gapUntil? next.startTime with - | gap
      · rw [fill, hgap]
        show (Piece.transitionTo? blendAfter? _ (some (index + 1, next.id)) :: _).reduceOption = _
        rw [hseam]
        cases (EdgeDecision.decide index last next fps).seam? <;> rfl
      · have hrefused : ¬ (EdgeDecision.decide index last next fps).isAccepted = true := by
          intro haccepted
          have hfill := EdgeDecision.fill_eq_nil_of_isAccepted .gap haccepted
          rw [fill, hgap] at hfill
          cases hfill
        rw [fill, hgap, EdgeDecision.seam?, EdgeDecision.transition?, if_neg hrefused]
        rfl

/-- The seams of all entries are the accepted decisions. -/
theorem seams_ofBase {base : List (Clip α)} {fps : α} (h : (Cursor.start fps).Admits base)
    (hblend : ∀ k, blendAfter? k =
      (EdgeDecision.ofBase base fps)[k]?.bind EdgeDecision.transition?) :
    (Seam.all blendAfter? ((ofBase base timelineEnd fps).map label)).reduceOption =
      (EdgeDecision.ofBase base fps).filterMap EdgeDecision.seam? := by
  cases h with
  | nil => rfl
  | @cons _ first rest waits later =>
    have hshift (k : ℕ) : blendAfter? (0 + k) =
        (EdgeDecision.decideFrom fps 0 (first :: rest))[k]?.bind EdgeDecision.transition? := by
      rw [Nat.zero_add, hblend]
      rfl
    rw [ofBase, if_neg (by simp), fillFrom, Cursor.place_eq waits, EdgeDecision.ofBase, fill]
    refine Eq.trans ?_ (between_fillFrom timelineEnd later hshift)
    cases Cursor.gapUntil? _ first.startTime <;> rfl

end Entry

/-! ### Compositions -/

namespace Composition

variable [Scalar α] [LawfulScalar α] (project : Project α) (canvas : Canvas α)

/-- The entries of a composition blend where its transitions are accepted, in their order. -/
theorem seams_eq :
    (Seam.all (ofProject project canvas).blendAfter?
        ((ofProject project canvas).entries.map Entry.label)).reduceOption =
      (ofProject project canvas).decisions.filterMap EdgeDecision.seam? :=
  Entry.seams_ofBase _ (Layers.admits_base _ _) fun _ ↦ rfl

/-- The clips of an accepted transition are neighbours, in the base and among the entries. -/
theorem exists_neighbours {i : ℕ} {d : EdgeDecision α}
    (hd : (ofProject project canvas).decisions[i]? = some d) (haccepted : d.isAccepted = true) :
    ∃ previous next, (ofProject project canvas).layers.base[i]? = some previous ∧
      (ofProject project canvas).layers.base[i + 1]? = some next ∧
      ∃ before after, (ofProject project canvas).entries =
        before ++ .clip i previous :: .clip (i + 1) next :: after := by
  have hdecision := hd
  rw [show (ofProject project canvas).decisions =
    EdgeDecision.decideFrom canvas.fps 0 (Layers.ofClips project.clips canvas.fps).base from rfl,
    EdgeDecision.getElem?_decideFrom, Option.bind_eq_some_iff] at hdecision
  obtain ⟨previous, hprevious, hdecide⟩ := hdecision
  obtain ⟨next, hnext, rfl⟩ := Option.map_eq_some_iff.1 hdecide
  have hne : (Layers.ofClips project.clips canvas.fps).base ≠ [] := by
    intro hnil
    rw [hnil] at hprevious
    cases hprevious
  refine ⟨previous, next, hprevious, hnext, ?_⟩
  have hentries : (ofProject project canvas).entries = Entry.fillFrom project.timelineEnd
      (.start canvas.fps) 0 (Layers.ofClips project.clips canvas.fps).base :=
    if_neg (mt List.isEmpty_iff.1 hne)
  obtain ⟨before, after, h⟩ := Entry.exists_fillFrom_eq project.timelineEnd
    (Layers.admits_base project.clips canvas.fps) hprevious hnext haccepted
  refine ⟨before, after, ?_⟩
  rw [hentries, h, Nat.zero_add]

end Composition

end Splice
