import Splice.Proofs.Plan.Coverage
import Splice.Proofs.Render.Duration
import Splice.Proofs.Render.Tasks

/-!
# Blended edges

Whether an edge of a base clip blends is asked twice. Before anything is rendered the decisions are
asked, by the index of the clip in the base (`Composition.blendedEdges`); it decides on the fades.
Later the seams are asked, by the place of the clip among the entries, between which there may be
fillers (`Seam.blendsAt`); it decides on the merges. The two answers are the same for every clip of
the base (`Composition.blendsAt_eq`).

From the seam to the decision this holds by definition. Back from the decision it holds since the
clips of an accepted transition are neighbours among the entries (`Composition.exists_neighbours`),
and since no clip stands among the entries twice (`Entry.place_unique`).
-/

namespace Splice

variable {α : Type}

/-! ### Seams by their places -/

/-- The edges that blend at a place, where it is known after which places there is a blend. -/
def BlendedEdges.around (blends : ℕ → Bool) (place : ℕ) : BlendedEdges where
  incoming := match place with
    | 0 => false
    | before + 1 => blends before
  outgoing := blends place

namespace Seam

/-- Whether a list of seams has a transition at a place. -/
def isAt (seams : List (Option (Seam α))) (place : ℕ) : Bool := seams[place]?.any Option.isSome

/-- The edges of the entry at a place that blend, where seams join the entries. -/
def blendsAt (seams : List (Option (Seam α))) (place : ℕ) : BlendedEdges :=
  .around (isAt seams) place

variable {blendAfter? : ℕ → Option (TransitionStyle × α)} {labels : List (Option (ℕ × String))}

/-- The seam at a place joins the label there with the one before it. -/
theorem getElem?_between (last? : Option (ℕ × String)) (k : ℕ) :
    (between blendAfter? last? labels)[k]? =
      (last? :: labels)[k]?.bind fun left? ↦ labels[k]?.map fun right? ↦
        Piece.transitionTo? blendAfter? left? right? := by
  induction labels generalizing last? k with
  | nil => cases k <;> rfl
  | cons next? rest ih =>
    rcases k with - | k
    · rfl
    · exact ih next? k

/-- The same, where the first label has nothing before it. -/
theorem getElem?_all (k : ℕ) : (all blendAfter? labels)[k]? =
    labels[k]?.bind fun left? ↦ labels[k + 1]?.map fun right? ↦
      Piece.transitionTo? blendAfter? left? right? := by
  rcases labels with - | ⟨first?, rest⟩
  · rfl
  · exact getElem?_between first? k

/-- There is a transition where two neighbours are clips in a row, and the decision says so. -/
theorem isAt_all_iff {k : ℕ} : isAt (all blendAfter? labels) k = true ↔
    ∃ i fromId toId, labels[k]? = some (some (i, fromId)) ∧
      labels[k + 1]? = some (some (i + 1, toId)) ∧ (blendAfter? i).isSome = true := by
  rw [isAt, getElem?_all, Option.any_eq_true]
  constructor
  · rintro ⟨seam?, hseam, hsome⟩
    obtain ⟨left?, hleft, hright⟩ := Option.bind_eq_some_iff.1 hseam
    obtain ⟨right?, hnext, rfl⟩ := Option.map_eq_some_iff.1 hright
    obtain ⟨⟨style, duration, fromId, toId⟩, htransition⟩ := Option.isSome_iff_exists.1 hsome
    obtain ⟨i, rfl, rfl, hblend⟩ := Piece.transitionTo?_eq_some htransition
    exact ⟨i, fromId, toId, hleft, hnext, Option.isSome_iff_exists.2 ⟨_, hblend⟩⟩
  · rintro ⟨i, fromId, toId, hleft, hright, hblend⟩
    rw [hleft, hright]
    refine ⟨_, rfl, ?_⟩
    show (if i + 1 = i + 1 then _ else none : Option (Seam α)).isSome = true
    rw [if_pos rfl, Option.isSome_map]
    exact hblend

end Seam

/-! ### Places of clips -/

namespace Entry

/-- An entry has the label of a clip exactly if it is that clip. -/
theorem getElem?_map_label {entries : List (Entry α)} {k i : ℕ} {id : String} :
    (entries.map label)[k]? = some (some (i, id)) ↔
      ∃ c, entries[k]? = some (.clip i c) ∧ c.id = id := by
  rw [List.getElem?_map, Option.map_eq_some_iff]
  constructor
  · rintro ⟨⟨_, c⟩ | _, hentry, heq⟩
    · obtain ⟨rfl, rfl⟩ := Prod.mk.inj (Option.some.inj heq)
      exact ⟨c, hentry, rfl⟩
    · cases heq
  · rintro ⟨c, hentry, rfl⟩
    exact ⟨_, hentry, rfl⟩

variable [Scalar α] {base : List (Clip α)} {timelineEnd fps : α} {index : ℕ}

/-- A clip of the base stands among the entries. -/
theorem exists_place {clip : Clip α} (h : base[index]? = some clip) :
    ∃ place : ℕ, (ofBase base timelineEnd fps)[place]? = some (Entry.clip index clip) := by
  have hmem : (index, clip) ∈ (ofBase base timelineEnd fps).filterMap clip? := by
    rw [clip?_ofBase]
    exact List.mem_map.2 ⟨(clip, index), List.mem_zipIdx_iff_getElem?.2 h, rfl⟩
  obtain ⟨entry, hentry, heq⟩ := List.mem_filterMap.1 hmem
  rcases entry with ⟨_, _⟩ | _
  · obtain ⟨rfl, rfl⟩ := Prod.mk.inj (Option.some.inj heq)
    exact List.mem_iff_getElem?.1 hentry
  · cases heq

/-- Of two entries the later one has another index. -/
theorem pairwise_ofBase (base : List (Clip α)) (timelineEnd fps : α) :
    (ofBase base timelineEnd fps).Pairwise fun a b ↦ ∀ i c j d, a = .clip i c → b = .clip j d →
      i ≠ j := by
  have hindices : (((ofBase base timelineEnd fps).filterMap clip?).map Prod.fst).Nodup := by
    rw [clip?_ofBase, List.map_map]
    show (base.zipIdx.map Prod.snd).Nodup
    rw [List.zipIdx_map_snd]
    exact List.nodup_range'
  rw [List.Nodup, List.pairwise_map, List.pairwise_filterMap] at hindices
  refine hindices.imp fun {a b} h i c j d ha hb ↦ ?_
  subst ha hb
  exact h (i, c) rfl (j, d) rfl

/-- No index stands at two places. -/
theorem place_unique {k l : ℕ} {c d : Clip α}
    (hk : (ofBase base timelineEnd fps)[k]? = some (.clip index c))
    (hl : (ofBase base timelineEnd fps)[l]? = some (.clip index d)) : k = l := by
  have hpairwise := List.pairwise_iff_getElem.1 (pairwise_ofBase base timelineEnd fps)
  obtain ⟨hklt, hk⟩ := List.getElem?_eq_some_iff.1 hk
  obtain ⟨hllt, hl⟩ := List.getElem?_eq_some_iff.1 hl
  rcases lt_trichotomy k l with hlt | heq | hlt
  · exact absurd rfl (hpairwise k l hklt hllt hlt index c index d hk hl)
  · exact heq
  · exact absurd rfl (hpairwise l k hllt hklt hlt index d index c hl hk)

end Entry

/-! ### Compositions -/

namespace Composition

variable [Scalar α] [LawfulScalar α] {project : Project α} {canvas : Canvas α}

/-- The clips of a blend stand next to each other. -/
theorem exists_places_of_blendAfter? {i : ℕ}
    (h : ((ofProject project canvas).blendAfter? i).isSome = true) :
    ∃ place previous next, (ofProject project canvas).entries[place]? = some (.clip i previous) ∧
      (ofProject project canvas).entries[place + 1]? = some (.clip (i + 1) next) := by
  obtain ⟨⟨style, duration⟩, hblend⟩ := Option.isSome_iff_exists.1 h
  obtain ⟨d, hd, htransition⟩ := Option.bind_eq_some_iff.1 hblend
  obtain ⟨previous, next, -, -, before, after, hentries⟩ :=
    exists_neighbours project canvas hd (EdgeDecision.transition?_eq_some_iff.1 htransition).1
  refine ⟨before.length, previous, next, ?_, ?_⟩
  · rw [hentries]
    simp
  · rw [hentries]
    simp

omit [LawfulScalar α] in
/-- There is a transition after a place exactly if two clips in a row stand there and blend. -/
theorem isAt_seams_iff {k : ℕ} : Seam.isAt (ofProject project canvas).seams k = true ↔
    ∃ i previous next, (ofProject project canvas).entries[k]? = some (.clip i previous) ∧
      (ofProject project canvas).entries[k + 1]? = some (.clip (i + 1) next) ∧
      ((ofProject project canvas).blendAfter? i).isSome = true := by
  rw [seams, Seam.isAt_all_iff]
  simp only [Entry.getElem?_map_label]
  constructor
  · rintro ⟨i, _, _, ⟨previous, hprevious, -⟩, ⟨next, hnext, -⟩, hblend⟩
    exact ⟨i, previous, next, hprevious, hnext, hblend⟩
  · rintro ⟨i, previous, next, hprevious, hnext, hblend⟩
    exact ⟨i, previous.id, next.id, ⟨previous, hprevious, rfl⟩, ⟨next, hnext, rfl⟩, hblend⟩

section Clip

variable {index place : ℕ} {clip : Clip α}

/-- After the place of a clip there is a transition exactly if the clip blends into the next one. -/
theorem isAt_place_iff (h : (ofProject project canvas).entries[place]? = some (.clip index clip)) :
    Seam.isAt (ofProject project canvas).seams place = true ↔
      ((ofProject project canvas).blendAfter? index).isSome = true := by
  rw [isAt_seams_iff]
  constructor
  · rintro ⟨i, previous, next, hplace, -, hblend⟩
    obtain ⟨rfl, -⟩ := Entry.clip.inj (Option.some.inj (h.symm.trans hplace))
    exact hblend
  · intro hblend
    obtain ⟨found, previous, next, hprevious, hnext⟩ := exists_places_of_blendAfter? hblend
    obtain rfl : found = place := Entry.place_unique hprevious h
    exact ⟨index, previous, next, hprevious, hnext, hblend⟩

/-- Before its place there is one exactly if the clip before it blends into it. -/
theorem isAt_before_iff (h : (ofProject project canvas).entries[place]? = some (.clip index clip)) :
    (∃ before, place = before + 1 ∧ Seam.isAt (ofProject project canvas).seams before = true) ↔
      ∃ previous, index = previous + 1 ∧
        ((ofProject project canvas).blendAfter? previous).isSome = true := by
  simp only [isAt_seams_iff]
  constructor
  · rintro ⟨before, rfl, i, previous, next, -, hplace, hblend⟩
    obtain ⟨rfl, -⟩ := Entry.clip.inj (Option.some.inj (h.symm.trans hplace))
    exact ⟨i, rfl, hblend⟩
  · rintro ⟨i, rfl, hblend⟩
    obtain ⟨found, previous, next, hprevious, hnext⟩ := exists_places_of_blendAfter? hblend
    exact ⟨found, Entry.place_unique h hnext, i, previous, next, hprevious, hnext, hblend⟩

/-- The edges of a clip blend at its place as was decided by its index. -/
theorem blendsAt_eq (h : (ofProject project canvas).entries[place]? = some (.clip index clip)) :
    Seam.blendsAt (ofProject project canvas).seams place =
      (ofProject project canvas).blendedEdges index := by
  have houtgoing := Bool.eq_iff_iff.2 (isAt_place_iff h)
  have hincoming := isAt_before_iff h
  refine congrArg₂ BlendedEdges.mk (Bool.eq_iff_iff.2 ?_) houtgoing
  -- without an entry before it, or without a clip before it, there is nothing to blend with
  rcases place with - | before <;> rcases index with - | previous
  · exact Iff.rfl
  · simpa using hincoming
  · simpa using hincoming
  · simpa using hincoming

end Clip

end Composition

end Splice
