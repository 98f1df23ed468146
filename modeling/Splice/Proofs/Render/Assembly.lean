import Splice.Proofs.Number.Doubles
import Splice.Proofs.Plan.Seams
import Splice.Proofs.Render.Run
import Splice.Proofs.Samples

/-!
# Runs of the assembly

What a successful assembly of the base sequence leaves in the journal, whatever the engine and the
storage answer. The code is taken apart once: `Session.EntryDone`, `Session.BlendDone` and
`Session.MergeDone` say how an entry is rendered, how two files blend and how they are merged, and
what any later module says of an assembly starts from these.

Here the relations `EntryRun`, `MergeRun` and `SequenceRun` list the events of one rendered entry,
of one merge, and of all merges; `Session.ends_renderEntry`, `Session.MergeDone.exists_mergeRun` and
`Session.ends_mergeOnto` derive them, and the statements about whole renders are inductions on them.
-/

namespace Splice

variable {α : Type} [Scalar α]

/-! ### Entries -/

/-- The events of a rendered entry, and the piece that comes out. -/
inductive EntryRun : Entry α → Piece α → List (Event α) → Prop
  | clip {index : ℕ} {clip : Clip α} {media : MediaClip α} {path : Path} {job : Job.Segment α}
    (hcontent : clip.content = .video media) :
    EntryRun (.clip index clip)
      ⟨⟨path, (media.excerpt clip.duration).outputDuration⟩, some (index, clip.id)⟩
      [.ran (.segment job) none,
        .merged (.clip clip.id (media.excerpt clip.duration).outputDuration)]
  | filler {filler : Filler α} {path : Path} {job : Job.Blank α} :
    EntryRun (.filler filler) ⟨⟨path, filler.duration⟩, none⟩
      [.ran (.blank job) none, .merged (.filler filler)]

/-- The events of rendered entries, one after another. -/
inductive EntriesRun : List (Entry α) → List (Piece α) → List (Event α) → Prop
  | nil : EntriesRun [] [] []
  | cons {entry : Entry α} {piece : Piece α} {entries : List (Entry α)} {pieces : List (Piece α)}
    {first rest : List (Event α)} (head : EntryRun entry piece first)
    (tail : EntriesRun entries pieces rest) :
    EntriesRun (entry :: entries) (piece :: pieces) (first ++ rest)

/-! ### Merges -/

/-- A job that blends files, the first of the given length, for some seconds. -/
structure Job.Transition.Blends (job : Job.Transition α) (left duration : α)
    (style : TransitionStyle) : Prop where
  style_eq : job.style = style
  duration_eq : job.duration = duration
  offset_eq : job.offset = Scalar.max (left - duration) 0.0

/-- The length of two blended files. -/
def blendedLength (left right duration : α) : α :=
  Scalar.max (left + right - duration) leastMerged

/-- The events of a merge of files of the given lengths, and the length of the result. -/
inductive MergeRun (left right : α) : Option (Seam α) → α → List (Event α) → Prop
  | blend {style : TransitionStyle} {duration : α} {fromId toId : String} {job : Job.Transition α}
    (hjob : job.Blends left duration style) :
    MergeRun left right (some (style, duration, fromId, toId)) (blendedLength left right duration)
      [.ran (.transition job) none,
        .merged (.transition fromId toId style duration left right
          (blendedLength left right duration) false)]
  | fallback {style : TransitionStyle} {duration : α} {fromId toId : String}
    {job second : Job.Transition α} {e : Failure} (hjob : job.Blends left duration style)
    (hsecond : second.Blends left duration .fallback) :
    MergeRun left right (some (style, duration, fromId, toId)) (blendedLength left right duration)
      [.ran (.transition job) (some e), .ran (.transition second) none,
        .merged (.transition fromId toId .fallback duration left right
          (blendedLength left right duration) true)]
  | concat {job : Job.Concat} :
    MergeRun left right none (left + right)
      [.ran (.concat job) none, .merged (.concat left right (left + right))]

/-- The events of merging pieces onto a file of the given length, and the length of the result. -/
inductive SequenceRun (blendAfter? : ℕ → Option (TransitionStyle × α)) :
    α → Option (ℕ × String) → List (Piece α) → α → List (Event α) → Prop
  | nil {running : α} {last? : Option (ℕ × String)} :
    SequenceRun blendAfter? running last? [] running []
  | cons {running merged result : α} {last? : Option (ℕ × String)} {next : Piece α}
    {pieces : List (Piece α)} {first rest : List (Event α)}
    (head : MergeRun running next.rendered.duration
      (Piece.transitionTo? blendAfter? last? next.clip?) merged first)
    (tail : SequenceRun blendAfter? merged next.clip? pieces result rest) :
    SequenceRun blendAfter? running last? (next :: pieces) result (first ++ rest)

/-! ### Runs of the code -/

namespace Session

open RenderT (ends_bind_ok ends_pure not_ends_throw)

variable {σ : Type} {s : Session (StateM σ) α} {p q : Situation α σ}

/-- How an entry is rendered: as a segment of what its clip plays, or as a filler. -/
inductive EntryDone (s : Session (StateM σ) α) (c : Composition α) (p q : Situation α σ) :
    Entry α → Piece α → Prop
  | clip {index : ℕ} {clip : Clip α} {media : MediaClip α} {input : Path}
    {rendered : RenderedFile α} {t u : Situation α σ} (hcontent : clip.content = .video media)
    (hsource : p.Adds [] t)
    (hsegment : (s.makeSegment clip media input (c.blendedEdges index)).Ends t (.ok rendered) u)
    (hstep : u.Adds [.merged (.clip clip.id rendered.duration)] q) :
    EntryDone s c p q (.clip index clip) ⟨rendered, some (index, clip.id)⟩
  | filler {filler : Filler α} {rendered : RenderedFile α} {t : Situation α σ}
    (hfiller : (s.renderFiller filler).Ends p (.ok rendered) t)
    (hstep : t.Adds [.merged (.filler filler)] q) :
    EntryDone s c p q (.filler filler) ⟨rendered, none⟩

/-- Every rendered entry is done in one of the two ways. A clip that is no video ends the run
instead. -/
theorem entryDone_of_ends_renderEntry {c : Composition α} {entry : Entry α} {piece : Piece α}
    (h : (s.renderEntry c entry).Ends p (.ok piece) q) : EntryDone s c p q entry piece := by
  cases entry with
  | clip index clip =>
    rw [renderEntry] at h
    -- the code looks at the content only through `video?`, so this is what is split on
    rcases hvideo : clip.video? with - | media
    · rw [hvideo] at h
      exact absurd h not_ends_throw
    · rw [hvideo] at h
      obtain ⟨input, t, hsource, h⟩ := ends_bind_ok.1 h
      obtain ⟨rendered, u, hsegment, h⟩ := ends_bind_ok.1 h
      obtain ⟨_, v, hrecord, h⟩ := ends_bind_ok.1 h
      obtain ⟨hpiece, rfl⟩ := ends_pure.1 h
      rw [Except.ok.inj hpiece]
      exact .clip (Clip.content_of_video? hvideo) (adds_of_ends_source hsource) hsegment
        (adds_of_ends_record hrecord)
  | filler filler =>
    obtain ⟨rendered, t, hfiller, h⟩ := ends_bind_ok.1 h
    obtain ⟨_, u, hrecord, h⟩ := ends_bind_ok.1 h
    obtain ⟨hpiece, rfl⟩ := ends_pure.1 h
    rw [Except.ok.inj hpiece]
    exact .filler hfiller (adds_of_ends_record hrecord)

/-- The events of a rendered entry: the job of its segment or filler, and the step that notes it. -/
theorem ends_renderEntry {c : Composition α} {entry : Entry α} {piece : Piece α}
    (h : (s.renderEntry c entry).Ends p (.ok piece) q) :
    ∃ events, EntryRun entry piece events ∧ p.Adds events q := by
  cases entryDone_of_ends_renderEntry h with
  | @clip _ _ _ _ rendered _ _ hcontent hsource hsegment hstep =>
    obtain ⟨path, duration⟩ := rendered
    obtain ⟨rfl, job, -, -, hadds⟩ := ends_makeSegment hsegment
    exact ⟨_, .clip hcontent, (hsource.trans hadds).trans hstep⟩
  | @filler _ rendered _ hfiller hstep =>
    obtain ⟨path, duration⟩ := rendered
    obtain ⟨rfl, job, -, -, hadds⟩ := ends_renderFiller hfiller
    exact ⟨_, .filler, hadds.trans hstep⟩

/-- The events of all rendered entries, by induction on the entries. -/
theorem ends_renderEntries {c : Composition α} {entries : List (Entry α)} {pieces : List (Piece α)}
    (h : (entries.mapM (s.renderEntry c)).Ends p (.ok pieces) q) :
    ∃ events, EntriesRun entries pieces events ∧ p.Adds events q := by
  induction entries generalizing p pieces with
  | nil =>
    obtain ⟨hpieces, rfl⟩ := ends_pure.1 h
    rw [Except.ok.inj hpieces]
    exact ⟨[], .nil, .refl _⟩
  | cons entry rest ih =>
    obtain ⟨piece, t, hentry, pieces, hrest, rfl⟩ := RenderT.ends_mapM_cons_ok.1 h
    obtain ⟨first, hfirst, hadds⟩ := ends_renderEntry hentry
    obtain ⟨events, hevents, hadds'⟩ := ih hrest
    exact ⟨first ++ events, .cons hfirst hevents, hadds.trans hadds'⟩

variable {left right file : RenderedFile α}

/-- The job of a blend starts where the first file has just so much left. -/
theorem ends_blendJob {style : TransitionStyle} {duration : α} {job : Job.Transition α}
    (h : (s.blendJob left right style duration).Ends p (.ok job) q) :
    job.Blends left.duration duration style ∧ p.Adds [] q := by
  obtain ⟨output, t, hfresh, h⟩ := ends_bind_ok.1 h
  obtain ⟨hjob, rfl⟩ := ends_pure.1 h
  rw [Except.ok.inj hjob]
  exact ⟨⟨rfl, rfl, rfl⟩, adds_of_ends_freshPath hfresh⟩

/-- How a blend of two files succeeds: its job is done, or the engine fails at it and a second job
is done in the fallback. -/
inductive BlendDone (s : Session (StateM σ) α) (left right : RenderedFile α)
    (style : TransitionStyle) (duration : α) (p q : Situation α σ) :
    Path × TransitionStyle × Bool → Prop
  | first {job : Job.Transition α} {t : Situation α σ}
    (hjob : (s.blendJob left right style duration).Ends p (.ok job) t)
    (hran : t.Adds [.ran (.transition job) none] q) :
    BlendDone s left right style duration p q (job.output, style, false)
  | second {job second : Job.Transition α} {e : Failure} {t u v : Situation α σ}
    (hjob : (s.blendJob left right style duration).Ends p (.ok job) t)
    (hfailed : t.Adds [.ran (.transition job) (some e)] u)
    (hsecond : (s.blendJob left right .fallback duration).Ends u (.ok second) v)
    (hran : v.Adds [.ran (.transition second) none] q) :
    BlendDone s left right style duration p q (second.output, .fallback, true)

theorem blendDone_of_ends_blendFiles {style : TransitionStyle} {duration : α}
    {blended : Path × TransitionStyle × Bool}
    (h : (s.blendFiles left right style duration).Ends p (.ok blended) q) :
    BlendDone s left right style duration p q blended := by
  rw [blendFiles, ends_bind_ok] at h
  obtain ⟨job, t, hjob, h⟩ := h
  obtain ⟨failure?, u, hattempt, h⟩ := ends_bind_ok.1 h
  have hattempted := adds_of_ends_attempt hattempt
  cases failure? with
  | none =>
    obtain ⟨hblended, rfl⟩ := ends_pure.1 h
    rw [Except.ok.inj hblended]
    exact .first hjob hattempted
  | some e =>
    dsimp only at h
    split_ifs at h
    · -- the style is not the fallback itself, so there is a second job
      obtain ⟨second, v, hsecond, h⟩ := ends_bind_ok.1 h
      obtain ⟨written, w, hrun, h⟩ := ends_bind_ok.1 h
      obtain ⟨hblended, rfl⟩ := ends_pure.1 h
      obtain ⟨rfl, hran⟩ := ends_run hrun
      rw [Except.ok.inj hblended]
      exact .second hjob hattempted hsecond hran
    · exact absurd h not_ends_throw

/-- A merge by a transition is a blend that is noted. -/
theorem exists_of_ends_mergeByTransition {style : TransitionStyle} {duration : α}
    {fromId toId : String}
    (h : (s.mergeByTransition left right style duration fromId toId).Ends p (.ok file) q) :
    ∃ path used usedFallback t,
      BlendDone s left right style duration p t (path, used, usedFallback) ∧
      file = ⟨path, blendedLength left.duration right.duration duration⟩ ∧
      t.Adds [.merged (.transition fromId toId used duration left.duration right.duration
        (blendedLength left.duration right.duration duration) usedFallback)] q := by
  obtain ⟨⟨path, used, usedFallback⟩, t, hblend, h⟩ := ends_bind_ok.1 h
  obtain ⟨_, u, hrecord, h⟩ := ends_bind_ok.1 h
  obtain ⟨hfile, rfl⟩ := ends_pure.1 h
  exact ⟨path, used, usedFallback, t, blendDone_of_ends_blendFiles hblend, Except.ok.inj hfile,
    adds_of_ends_record hrecord⟩

/-- A merge without a blend is one job that is noted. -/
theorem exists_of_ends_mergeByConcat (h : (s.mergeByConcat left right).Ends p (.ok file) q) :
    ∃ job : Job.Concat, job.inputs = [left.path, right.path] ∧
      file = ⟨job.output, left.duration + right.duration⟩ ∧
      p.Adds [.ran (.concat job) none, .merged (.concat left.duration right.duration
        (left.duration + right.duration))] q := by
  obtain ⟨listPath, t, hlist, h⟩ := ends_bind_ok.1 h
  obtain ⟨output, u, houtput, h⟩ := ends_bind_ok.1 h
  obtain ⟨path, v, hrun, h⟩ := ends_bind_ok.1 h
  obtain ⟨_, w, hrecord, h⟩ := ends_bind_ok.1 h
  obtain ⟨hfile, rfl⟩ := ends_pure.1 h
  obtain ⟨rfl, hadds⟩ := ends_run hrun
  exact ⟨_, rfl, Except.ok.inj hfile, (((adds_of_ends_freshPath hlist).trans
    (adds_of_ends_freshPath houtput)).trans hadds).trans (adds_of_ends_record hrecord)⟩

/-- How two files are merged: by a transition where there is a seam, and else without a blend. -/
inductive MergeDone (s : Session (StateM σ) α) (left right : RenderedFile α) (p q : Situation α σ)
    (file : RenderedFile α) : Option (Seam α) → Prop
  | transition {style : TransitionStyle} {duration : α} {fromId toId : String}
    (h : (s.mergeByTransition left right style duration fromId toId).Ends p (.ok file) q) :
    MergeDone s left right p q file (some (style, duration, fromId, toId))
  | concat (h : (s.mergeByConcat left right).Ends p (.ok file) q) :
    MergeDone s left right p q file none

/-- A seam or not, the first piece is merged and the others follow. -/
theorem exists_mergeDone_of_ends_mergeOnto {blendAfter? : ℕ → Option (TransitionStyle × α)}
    {last? : Option (ℕ × String)} {next : Piece α} {rest : List (Piece α)}
    (h : (s.mergeOnto blendAfter? left last? (next :: rest)).Ends p (.ok file) q) :
    ∃ merged t, MergeDone s left next.rendered p t merged
        (Piece.transitionTo? blendAfter? last? next.clip?) ∧
      (s.mergeOnto blendAfter? merged next.clip? rest).Ends t (.ok file) q := by
  rw [mergeOnto] at h
  rcases hseam : Piece.transitionTo? blendAfter? last? next.clip? with
    - | ⟨style, duration, fromId, toId⟩
  · rw [hseam] at h
    obtain ⟨merged, t, hmerge, h⟩ := ends_bind_ok.1 h
    exact ⟨merged, t, .concat hmerge, h⟩
  · rw [hseam] at h
    obtain ⟨merged, t, hmerge, h⟩ := ends_bind_ok.1 h
    exact ⟨merged, t, .transition hmerge, h⟩

/-- A merge by a transition, in the requested style or, if the engine fails, in the fallback. -/
theorem ends_mergeByTransition {style : TransitionStyle} {duration : α} {fromId toId : String}
    (h : (s.mergeByTransition left right style duration fromId toId).Ends p (.ok file) q) :
    ∃ events, MergeRun left.duration right.duration (some (style, duration, fromId, toId))
      file.duration events ∧ p.Adds events q := by
  obtain ⟨path, used, usedFallback, t, hdone, rfl, hstep⟩ := exists_of_ends_mergeByTransition h
  cases hdone with
  | first hjob hran =>
    obtain ⟨hblends, hadds⟩ := ends_blendJob hjob
    exact ⟨_, .blend hblends, (hadds.trans hran).trans hstep⟩
  | second hjob hfailed hsecond hran =>
    obtain ⟨hblends, hadds⟩ := ends_blendJob hjob
    obtain ⟨hblends', hadds'⟩ := ends_blendJob hsecond
    exact ⟨_, .fallback hblends hblends',
      ((hadds.trans hfailed).trans (hadds'.trans hran)).trans hstep⟩

/-- The events of a merge without a blend. -/
theorem ends_mergeByConcat (h : (s.mergeByConcat left right).Ends p (.ok file) q) :
    ∃ events, MergeRun left.duration right.duration none file.duration events ∧
      p.Adds events q := by
  obtain ⟨job, -, rfl, hadds⟩ := exists_of_ends_mergeByConcat h
  exact ⟨_, .concat, hadds⟩

/-- The events of a merge, whichever way it is done. -/
theorem MergeDone.exists_mergeRun {seam? : Option (Seam α)}
    (h : MergeDone s left right p q file seam?) :
    ∃ events, MergeRun left.duration right.duration seam? file.duration events ∧
      p.Adds events q := by
  cases h with
  | transition h => exact ends_mergeByTransition h
  | concat h => exact ends_mergeByConcat h

/-- The events of all merges, by induction on the pieces that are still to be merged. -/
theorem ends_mergeOnto {blendAfter? : ℕ → Option (TransitionStyle × α)}
    {last? : Option (ℕ × String)}
    {pieces : List (Piece α)}
    (h : (s.mergeOnto blendAfter? left last? pieces).Ends p (.ok file) q) :
    ∃ events, SequenceRun blendAfter? left.duration last? pieces file.duration events ∧
      p.Adds events q := by
  induction pieces generalizing p left last? with
  | nil =>
    obtain ⟨hfile, rfl⟩ := ends_pure.1 h
    rw [Except.ok.inj hfile]
    exact ⟨[], .nil, .refl _⟩
  | cons next rest ih =>
    obtain ⟨merged, t, hmerge, hrest⟩ := exists_mergeDone_of_ends_mergeOnto h
    obtain ⟨first, hfirst, hadds⟩ := hmerge.exists_mergeRun
    obtain ⟨events, hevents, hadds'⟩ := ih hrest
    exact ⟨first ++ events, .cons hfirst hevents, hadds.trans hadds'⟩

/-- The first piece is what the others are merged onto, so there has to be one. -/
theorem ends_mergePieces {blendAfter? : ℕ → Option (TransitionStyle × α)}
    {pieces : List (Piece α)} (h : (s.mergePieces blendAfter? pieces).Ends p (.ok file) q) :
    ∃ first rest events, pieces = first :: rest ∧
      SequenceRun blendAfter? first.rendered.duration first.clip? rest file.duration events ∧
      p.Adds events q := by
  cases pieces with
  | nil => exact absurd h not_ends_throw
  | cons first rest =>
    obtain ⟨events, hevents, hadds⟩ := ends_mergeOnto h
    exact ⟨first, rest, events, rfl, hevents, hadds⟩

end Session

/-! ### Steps -/

/-- The transition that a step carried out: the ids of the clips, and its length. -/
def MergeStep.blend? {α : Type} : MergeStep α → Option (String × String × α)
  | transition fromId toId _ duration _ _ _ _ => some (fromId, toId, duration)
  | _ => none

/-- Whether a step merges without a blend. -/
def MergeStep.isConcat {α : Type} : MergeStep α → Bool
  | concat .. => true
  | _ => false

/-- The ids and the length of a seam. -/
def Seam.blend {α : Type} : Seam α → String × String × α
  | (_, duration, fromId, toId) => (fromId, toId, duration)

/-- Rendering forgets neither which entries are clips nor their indices and ids. -/
theorem EntriesRun.labels_eq {entries : List (Entry α)} {pieces : List (Piece α)}
    {events : List (Event α)} (h : EntriesRun entries pieces events) :
    pieces.map Piece.clip? = entries.map Entry.label := by
  induction h with
  | nil => rfl
  | cons head _ ih =>
    rw [List.map_cons, List.map_cons, ih]
    cases head <;> rfl

/-- A merge leaves one step: the blend of a seam, or a merge without a blend. -/
theorem MergeRun.exists_step {left right result : α} {seam? : Option (Seam α)}
    {events : List (Event α)} (h : MergeRun left right seam? result events) :
    ∃ step, events.filterMap Event.step? = [step] ∧ step.blend? = seam?.map Seam.blend ∧
      step.isConcat = seam?.isNone := by
  cases h with
  | blend => exact ⟨_, rfl, rfl, rfl⟩
  | fallback => exact ⟨_, rfl, rfl, rfl⟩
  | concat => exact ⟨_, rfl, rfl, rfl⟩

namespace SequenceRun

variable {blendAfter? : ℕ → Option (TransitionStyle × α)} {running result : α}
  {last? : Option (ℕ × String)} {pieces : List (Piece α)} {events : List (Event α)}

/-- Every piece after the first one takes one step. -/
theorem length_steps (h : SequenceRun blendAfter? running last? pieces result events) :
    (events.filterMap Event.step?).length = pieces.length := by
  induction h with
  | nil => rfl
  | cons head _ ih =>
    obtain ⟨step, hstep, -, -⟩ := head.exists_step
    rw [List.filterMap_append, hstep, List.singleton_append, List.length_cons, ih,
      List.length_cons]

/-- The steps that blend are the seams between neighbouring pieces, in their order. -/
theorem blends_eq (h : SequenceRun blendAfter? running last? pieces result events) :
    (events.filterMap Event.step?).filterMap MergeStep.blend? =
      (Seam.between blendAfter? last? (pieces.map Piece.clip?)).reduceOption.map Seam.blend := by
  -- the seam in front of a piece depends on the piece before it, which the relation carries along
  induction h with
  | nil => rfl
  | cons head _ ih =>
    obtain ⟨step, hstep, hblend, -⟩ := head.exists_step
    rw [List.filterMap_append, hstep, List.singleton_append, List.filterMap_cons, hblend, ih,
      List.map_cons, Seam.between]
    cases Piece.transitionTo? blendAfter? _ _ <;> rfl

/-- A step that blends nothing is a plain merge; no filler and no rendered clip is noted while
pieces are merged. -/
theorem isConcat_of_blend?_eq_none
    (h : SequenceRun blendAfter? running last? pieces result events) :
    ∀ step ∈ events.filterMap Event.step?, step.blend? = none → step.isConcat = true := by
  induction h with
  | nil => exact fun _ h ↦ nomatch h
  | cons head _ ih =>
    obtain ⟨step, hstep, hblend, hconcat⟩ := head.exists_step
    rw [List.filterMap_append, hstep, List.singleton_append]
    refine List.forall_mem_cons.2 ⟨fun hnone ↦ ?_, ih⟩
    rw [hblend, Option.map_eq_none_iff] at hnone
    rw [hconcat, hnone]
    rfl

end SequenceRun

/-! ### Accepted transitions -/

namespace Composition

/-- The transitions that are carried out are the accepted ones. -/
structure ExecutesAccepted (c : Composition α) : Prop where
  /-- The clips of an accepted transition are neighbours, with no filler between them. -/
  neighbours : ∀ i d, c.decisions[i]? = some d → d.isAccepted = true →
    ∃ previous next, c.layers.base[i]? = some previous ∧ c.layers.base[i + 1]? = some next ∧
      ∃ before after, c.entries = before ++ .clip i previous :: .clip (i + 1) next :: after
  /-- Whenever the rendered entries are merged, every accepted transition is one step, in their
  order, and there is no other step but plain merges. -/
  steps : ∀ {σ : Type} (s : Session (StateM σ) α) (p p' : Situation α σ) (pieces : List (Piece α)),
    (c.entries.mapM (s.renderEntry c)).Ends p (.ok pieces) p' →
    ∀ (q q' : Situation α σ) (file : RenderedFile α),
      (s.mergePieces c.blendAfter? pieces).Ends q (.ok file) q' →
      ∃ merges, q'.journal.steps = q.journal.steps ++ merges ∧
        merges.length = c.entries.length - 1 ∧
        (merges.filterMap MergeStep.blend?).map
            (fun (fromId, toId, duration) ↦ (fromId, toId, some duration)) =
          (c.decisions.filter EdgeDecision.isAccepted).map
            (fun d ↦ (d.fromClipId, d.toClipId, d.duration?)) ∧
        ∀ step ∈ merges, step.blend? = none → step.isConcat = true

variable [LawfulScalar α] (project : Project α) (canvas : Canvas α)

/-- Whatever is on the timeline, the transitions that a render carries out are those that the plan
accepted, and no others. -/
theorem executesAccepted_ofProject : (ofProject project canvas).ExecutesAccepted where
  neighbours _ _ := exists_neighbours project canvas
  steps s p p' pieces hentries q q' file hmerge := by
    obtain ⟨events, hrun, -⟩ := Session.ends_renderEntries hentries
    obtain ⟨first, rest, merges, rfl, hsequence, hadds⟩ := Session.ends_mergePieces hmerge
    -- pieces are merged by their labels alone, and these are the labels of the entries
    have hlabels := hrun.labels_eq
    refine ⟨merges.filterMap Event.step?, hadds.steps_eq, ?_, ?_,
      hsequence.isConcat_of_blend?_eq_none⟩
    · have hlength := congrArg List.length hlabels
      rw [List.length_map, List.length_map, List.length_cons] at hlength
      rw [hsequence.length_steps, ← hlength, Nat.add_sub_cancel]
    · have hseams := seams_eq project canvas
      rw [← hlabels] at hseams
      rw [hsequence.blends_eq, List.map_map,
        show Seam.between _ first.clip? _ = Seam.all _ ((first :: rest).map Piece.clip?) from rfl,
        hseams]
      exact EdgeDecision.map_filterMap_seam? _ _

/-- In doubles, with an engine that refuses wipes: the wipe between the first two clips is accepted,
and the assembly succeeds. -/
theorem executesAccepted_sample :
    (∃ d ∈ (ofProject Sample.project Sample.canvas : Composition Float).decisions,
      d.isAccepted = true) ∧
    (∃ file q, ((ofProject Sample.project Sample.canvas : Composition Float).entries.mapM
        (Sample.session.renderEntry (ofProject Sample.project Sample.canvas)) >>=
          Sample.session.mergePieces
            (ofProject Sample.project Sample.canvas : Composition Float).blendAfter?).Ends
        ⟨{}, ()⟩ (.ok file) q) ∧
      (ofProject Sample.project Sample.canvas : Composition Float).ExecutesAccepted := by
  refine ⟨?_, RenderT.exists_ends ?_, executesAccepted_ofProject _ _⟩
  · rw [ofProject, Layers.ofClips_of_sorted (by decide +kernel) (by decide +kernel)
      (by decide +kernel)]
    decide +kernel
  · rw [ofProject, Layers.ofClips_of_sorted (by decide +kernel) (by decide +kernel)
      (by decide +kernel)]
    decide +kernel

end Composition

end Splice
