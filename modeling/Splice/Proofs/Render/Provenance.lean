import Mathlib.Data.List.Forall2
import Mathlib.Logic.Relation
import Splice.Proofs.Render.Exchanges
import Splice.Proofs.Render.FreshPaths
import Splice.Proofs.Render.Outcomes

/-!
# Provenance of files

Where the files that jobs read come from. In a log, a job reads only stored media of the clip that
it serves, drawn pictures, and what earlier jobs wrote; and a job that adds to what is there reads
that first (`IsSound`). `Session.Stands` describes where a run is between two jobs: which jobs are
done, which paths are set aside for the next one, and what was resolved or drawn. The lemmas
`stands_…` say what becomes of it, for everything from a name to a job; that a run is sound is part
of each.
-/

namespace Splice

open Exchange (done)

variable {α σ : Type}

/-! ### Jobs -/

namespace Job

/-- Whether a job merges two files of the base sequence. -/
def isMerge : Job α → Bool
  | transition _ => true
  | concat _ => true
  | _ => false

/-- Whether a job paints a clip. -/
def isPaint : Job α → Bool
  | overlay _ => true
  | text _ => true
  | _ => false

/-- Whether a job cuts a sound. -/
def isTrim : Job α → Bool
  | audioTrim _ => true
  | _ => false

/-- Whether a job adds to what is there. -/
def isComposite : Job α → Bool
  | audioMix _ => true
  | job => job.isMerge || job.isPaint

/-- A job that is done for a clip. -/
def Serves [Scalar α] (clip : Clip α) : Job α → Prop
  | segment job => ∃ media, clip.content = .video media ∧
      job.seek = (media.excerpt clip.duration).start ∧
      job.sourceDuration = (media.excerpt clip.duration).sourceDuration ∧
      job.outputDuration = (media.excerpt clip.duration).outputDuration
  | overlay job => job.start = clip.startTime
  | text job => job.start = clip.startTime ∧
      ∃ text, clip.content = .text text ∧ job.text = text.shownText
  | audioTrim job => ∃ audio, clip.content = .audio audio ∧
      job.start = Scalar.max audio.trimStart 0.0 ∧
      job.duration = Scalar.max clip.duration leastSegment ∧ job.volume = audio.effects.volume
  | audioMix job => job.time = clip.startTime
  | _ => False

/-- The file that is there after some jobs: that of the last one that added to what was there, or
else that of the first one. -/
def tip? (jobs : List (Job α)) : Option Path :=
  ((jobs.filter isComposite).getLast?.or jobs.head?).map output

/-- A job that adds nothing leaves the file that is there. -/
theorem tip?_append_leaf {jobs : List (Job α)} {job : Job α} {path : Path}
    (h : tip? jobs = some path) (hleaf : job.isComposite = false) :
    tip? (jobs ++ [job]) = some path := by
  cases jobs with
  | nil => cases h
  | cons first rest =>
    rw [← h]
    simp [tip?, hleaf]

/-- A job that adds to what is there puts its own file there. -/
theorem tip?_append_composite {jobs : List (Job α)} {job : Job α} (h : job.isComposite = true) :
    tip? (jobs ++ [job]) = some job.output := by
  rw [tip?, List.filter_append]
  simp [h]

/-- The file that is there was written by one of the jobs. -/
theorem mem_of_tip?_eq {jobs : List (Job α)} {path : Path} (h : tip? jobs = some path) :
    path ∈ jobs.map output := by
  obtain ⟨job, hjob, rfl⟩ := Option.map_eq_some_iff.1 h
  refine List.mem_map_of_mem ?_
  rcases Option.or_eq_some_iff.1 hjob with hlast | ⟨-, hhead⟩
  · exact (List.mem_filter.1 (List.mem_of_getLast? hlast)).1
  · exact List.mem_of_head? hhead

theorem output_mem_append (jobs : List (Job α)) (job : Job α) :
    job.output ∈ (jobs ++ [job]).map output :=
  List.mem_map_of_mem (List.mem_append_right _ (List.mem_singleton_self _))

end Job

/-- The stored reference that a clip means. -/
def Manifest.reference? (media : Manifest) (clip : Clip α) : Option String :=
  match clip.content with
  | .video video => media.sources.lookup video.sourceId
  | .image image => media.assets.lookup image.sourceId
  | .audio audio => media.assets.lookup audio.sourceId
  | _ => none

/-! ### Sound logs -/

section Sound

variable [Scalar α]

/-- A file that a job may read: one that a job wrote, a drawn picture, or the stored file of the
clip that it serves. -/
def Job.MayRead (clips : List (Clip α)) (media : Manifest) (jobs : List (Job α))
    (log : List (Exchange α)) (job : Job α) (path : Path) : Prop :=
  path ∈ jobs.map Job.output ∨ .drew path (.ok ()) ∈ log ∨
    ∃ clip ∈ clips, job.Serves clip ∧ ∃ reference, media.reference? clip = some reference ∧
      .resolved reference (.ok path) ∈ log

/-- A job that fits what was done and logged. -/
structure Job.Fitting (clips : List (Clip α)) (media : Manifest) (jobs : List (Job α))
    (log : List (Exchange α)) (job : Job α) : Prop where
  /-- It reads only what it may. -/
  reads : ∀ path ∈ job.inputs, job.MayRead clips media jobs log path
  /-- If it adds to what is there, it reads that first. -/
  base : job.isComposite = true → job.inputs.head? = Job.tip? jobs

/-- A job still fits when more is logged. -/
theorem Job.Fitting.mono {clips : List (Clip α)} {media : Manifest} {jobs : List (Job α)}
    {a b : List (Exchange α)} {job : Job α} (h : job.Fitting clips media jobs a) (hab : a ⊆ b) :
    job.Fitting clips media jobs b where
  reads path hpath := by
    rcases h.reads path hpath with hjob | hdrew | ⟨clip, hclip, hserves, reference, href, hmem⟩
    · exact .inl hjob
    · exact .inr (.inl (hab hdrew))
    · exact .inr (.inr ⟨clip, hclip, hserves, reference, href, hab hmem⟩)
  base := h.base

/-- A log in which every job fits what is before it, whether it was done or failed. -/
def IsSound (clips : List (Clip α)) (media : Manifest) (log : List (Exchange α)) : Prop :=
  ∀ pre job answer post, log = pre ++ .ran job answer :: post →
    job.Fitting clips media (done pre) pre

namespace IsSound

variable {clips : List (Clip α)} {media : Manifest} {log : List (Exchange α)}

theorem nil : IsSound clips media [] := by
  intro pre job answer post h
  simp at h

/-- A sound log stays sound when a job is logged that fits it. -/
theorem append_singleton {exchange : Exchange α} (h : IsSound clips media log)
    (hjob : ∀ job answer, exchange = .ran job answer → job.Fitting clips media (done log) log) :
    IsSound clips media (log ++ [exchange]) := by
  intro pre job answer post heq
  rcases List.append_eq_append_iff.1 heq with ⟨middle, rfl, hmiddle⟩ | ⟨middle, hlog, hmiddle⟩
  · rcases middle with - | ⟨x, rest⟩
    · obtain ⟨hexchange, -⟩ := List.cons.inj hmiddle
      rw [List.append_nil]
      exact hjob job answer hexchange
    · simp at hmiddle
  · rcases middle with - | ⟨x, rest⟩
    · obtain ⟨hexchange, -⟩ := List.cons.inj hmiddle
      rw [List.append_nil] at hlog
      exact hlog ▸ hjob job answer hexchange.symm
    · obtain ⟨rfl, -⟩ := List.cons.inj hmiddle
      exact h pre job answer rest hlog

/-- Anything that is no job may be logged. -/
theorem append {noted : List (Exchange α)} (h : IsSound clips media log)
    (hnoted : ∀ exchange ∈ noted, ∀ job answer, exchange ≠ .ran job answer) :
    IsSound clips media (log ++ noted) := by
  induction noted generalizing log with
  | nil => rwa [List.append_nil]
  | cons exchange rest ih =>
    rw [List.forall_mem_cons] at hnoted
    rw [List.append_cons]
    exact ih (h.append_singleton fun job answer heq ↦ absurd heq (hnoted.1 job answer)) hnoted.2

end IsSound

end Sound

/-! ### Numbered files -/

/-- Paths of intermediate files whose numbers go up, and stay below the next one. -/
def Numbered (dir : Path) (paths : List Path) (next : ℕ) : Prop :=
  ∃ names : List (ℕ × String × String),
    paths = names.map (fun (n, label, extension) ↦ dir.join (freshName n label extension)) ∧
      (names.map Prod.fst ++ [next]).Pairwise (· < ·)

namespace Numbered

variable {dir : Path} {paths rest : List Path} {next : ℕ}

theorem nil : Numbered dir [] next := ⟨[], rfl, List.pairwise_singleton _ _⟩

/-- A fresh path takes the next number. -/
theorem reserve (h : Numbered dir paths next) (label extension : String) :
    Numbered dir (paths ++ [dir.join (freshName next label extension)]) (next + 1) := by
  obtain ⟨names, rfl, hsorted⟩ := h
  refine ⟨names ++ [(next, label, extension)], by rw [List.map_append]; rfl, ?_⟩
  rw [List.map_append, List.pairwise_append]
  refine ⟨hsorted, List.pairwise_singleton _ _, fun n hn k hk ↦ ?_⟩
  rw [List.mem_singleton.1 hk]
  rcases List.mem_append.1 hn with hn | hn
  · exact Nat.lt_succ_of_lt
      ((List.pairwise_append.1 hsorted).2.2 n hn next (List.mem_singleton_self _))
  · rw [List.mem_singleton.1 hn]
    exact Nat.lt_succ_self next

/-- Paths may be forgotten. -/
theorem sublist (h : Numbered dir paths next) (hrest : rest.Sublist paths) :
    Numbered dir rest next := by
  obtain ⟨names, rfl, hsorted⟩ := h
  obtain ⟨kept, hkept, rfl⟩ := List.sublist_map_iff.1 hrest
  exact ⟨kept, rfl, hsorted.sublist ((hkept.map Prod.fst).append_right [next])⟩

/-- No two of the paths are the same, since no two numbers are. -/
theorem nodup (h : Numbered dir paths next) : paths.Nodup := by
  obtain ⟨names, rfl, hsorted⟩ := h
  refine ((List.pairwise_append.1 hsorted).1.of_map Prod.fst fun _ _ h ↦ h).map _ ?_
  intro a b hlt heq
  exact Nat.ne_of_lt hlt (eq_of_join_freshName_eq heq)

end Numbered

/-! ### Standing between jobs -/

section Standing

variable [Scalar α] {s : Session (StateM (σ × List (Exchange α))) α} {clips : List (Clip α)}

/-- A run whose log is sound. -/
def Session.Sound (s : Session (StateM (σ × List (Exchange α))) α) (clips : List (Clip α))
    (p : Situation α (σ × List (Exchange α))) : Prop :=
  IsSound clips s.media p.log

/-- Where a run is between two jobs: the jobs that are done, the paths that are set aside, and some
of what is in the log. -/
structure Session.Stands (s : Session (StateM (σ × List (Exchange α))) α) (clips : List (Clip α))
    (jobs : List (Job α)) (reserved : List Path) (facts : List (Exchange α))
    (p : Situation α (σ × List (Exchange α))) : Prop where
  sound : s.Sound clips p
  done_eq : done p.log = jobs
  numbered : Numbered s.workdir (jobs.map Job.output ++ reserved) p.journal.freshCount
  facts_subset : facts ⊆ p.log

namespace Session

open RenderT (Meets)

variable {jobs : List (Job α)} {reserved : List Path} {facts : List (Exchange α)}
  {p q : Situation α (σ × List (Exchange α))}

namespace Stands

/-- Where nothing is done or logged, a run stands where it stood. -/
theorem rests (h : s.Stands clips jobs reserved facts p) (hrest : p.Rests q) :
    s.Stands clips jobs reserved facts q where
  sound := by
    rw [Sound, hrest.log_eq]
    exact h.sound
  done_eq := by rw [hrest.log_eq, h.done_eq]
  numbered := by
    rw [hrest.count_eq]
    exact h.numbered
  facts_subset := by
    rw [hrest.log_eq]
    exact h.facts_subset

/-- Paths that were set aside, and facts, may be forgotten. -/
theorem forget {kept : List (Exchange α)} (h : s.Stands clips jobs reserved facts p)
    (hkept : kept ⊆ facts) : s.Stands clips jobs [] kept p where
  sound := h.sound
  done_eq := h.done_eq
  numbered := by
    rw [List.append_nil]
    exact h.numbered.sublist (List.sublist_append_left _ _)
  facts_subset := List.Subset.trans hkept h.facts_subset

/-- What is logged besides jobs becomes one more fact. -/
theorem note {exchange : Exchange α} (h : s.Stands clips jobs reserved facts p)
    (hnote : p.Notes exchange q) (hother : ∀ job answer, exchange ≠ .ran job answer) :
    s.Stands clips jobs reserved (exchange :: facts) q where
  sound := by
    rw [Sound, hnote.log_eq]
    exact h.sound.append_singleton fun job answer hjob ↦ absurd hjob (hother job answer)
  done_eq := by
    rw [hnote.log_eq, Exchange.done_append, h.done_eq]
    cases exchange with
    | ran job answer => exact absurd rfl (hother job answer)
    | _ => exact List.append_nil _
  numbered := by
    rw [hnote.count_eq]
    exact h.numbered
  facts_subset := by
    rw [hnote.log_eq]
    exact List.cons_subset.2 ⟨List.mem_append_right _ (List.mem_singleton_self _),
      List.Subset.trans h.facts_subset (List.subset_append_left _ _)⟩

end Stands

/-- A computation that does and logs nothing leaves a run where it stood. -/
theorem meets_of_rests {β : Type} {x : RenderT α (StateM (σ × List (Exchange α))) β}
    (h : s.Stands clips jobs reserved facts p) (hx : ∀ r q, x.Ends p r q → p.Rests q) :
    Meets (s.Sound clips) p x fun _ q ↦ s.Stands clips jobs reserved facts q :=
  fun r q hends ↦ ⟨(h.rests (hx r q hends)).sound, fun _ _ ↦ h.rests (hx r q hends)⟩

/-- A fresh path is set aside. -/
theorem stands_freshPath (h : s.Stands clips jobs reserved facts p) (label extension : String) :
    Meets (s.Sound clips) p (s.freshPath label extension)
      fun path q ↦ s.Stands clips jobs [path] facts q := by
  intro r q hends
  obtain ⟨rfl, rfl⟩ := ends_freshPath.1 hends
  refine ⟨h.sound, fun path hpath ↦ ⟨h.sound, h.done_eq, ?_, h.facts_subset⟩⟩
  rw [← Except.ok.inj hpath]
  have hjobs := (h.forget (List.Subset.refl facts)).numbered
  rw [List.append_nil] at hjobs
  exact hjobs.reserve label extension

/-- Asking whether a file has sound changes nothing. -/
theorem stands_hasAudio (hs : s.IsLogged) (h : s.Stands clips jobs reserved facts p) (path : Path) :
    Meets (s.Sound clips) p (s.hasAudio path)
      fun _ q ↦ s.Stands clips jobs reserved facts q := by
  refine (meets_of_rests h fun _ _ ↦ rests_of_ends_inspect hs).bind fun _ t ht ↦ ?_
  exact .pure ht.sound ht

/-- What is fetched has a reference, and its resolution is a fact from then on. -/
theorem stands_fetch (hs : s.IsLogged) (h : s.Stands clips jobs reserved facts p)
    (reference? : Option String) (missing : Failure) :
    Meets (s.Sound clips) p (RenderT.perform (s.storage.fetch reference? missing)) fun path q ↦
      ∃ reference, reference? = some reference ∧
        s.Stands clips jobs reserved (.resolved reference (.ok path) :: facts) q := by
  intro r q hends
  cases reference? with
  | none =>
    obtain ⟨rfl, rfl⟩ := RenderT.ends_perform.1 hends
    exact ⟨h.sound, nofun⟩
  | some reference =>
    obtain ⟨action, hresolve⟩ := hs.resolve reference
    simp only [Storage.fetch, hresolve] at hends
    have hq := h.note (RenderT.notes_of_ends_perform hends) (by simp)
    refine ⟨hq.sound, ?_⟩
    rintro path rfl
    exact ⟨reference, rfl, hq⟩

/-- The file of a source is resolved. -/
theorem stands_source (hs : s.IsLogged) (h : s.Stands clips jobs reserved facts p) (id : String) :
    Meets (s.Sound clips) p (s.source id) fun path q ↦
      ∃ reference, s.media.sources.lookup id = some reference ∧
        s.Stands clips jobs reserved (.resolved reference (.ok path) :: facts) q := by
  rw [source, Storage.source_eq]
  exact stands_fetch hs h _ _

/-- The file of an asset is resolved. -/
theorem stands_asset (hs : s.IsLogged) (h : s.Stands clips jobs reserved facts p) (id : String) :
    Meets (s.Sound clips) p (s.asset id) fun path q ↦
      ∃ reference, s.media.assets.lookup id = some reference ∧
        s.Stands clips jobs reserved (.resolved reference (.ok path) :: facts) q := by
  rw [asset, Storage.asset_eq]
  exact stands_fetch hs h _ _

/-- A drawing that succeeds is a fact from then on. -/
theorem stands_drawInto (hs : s.IsLogged) (h : s.Stands clips jobs reserved facts p) (path : Path)
    (picture : Picture) :
    Meets (s.Sound clips) p (s.drawInto path picture) fun _ q ↦
      s.Stands clips jobs reserved (.drew path (.ok ()) :: facts) q := by
  obtain ⟨action, hdraw⟩ := hs.draw path picture
  rw [drawInto, hdraw]
  have hdrew : Meets (s.Sound clips) p (RenderT.perform (Exchange.logging (.drew path) action))
      fun _ q ↦ s.Stands clips jobs reserved (.drew path (.ok ()) :: facts) q := by
    intro r q hends
    have hq := h.note (RenderT.notes_of_ends_perform hends) (by simp)
    refine ⟨hq.sound, ?_⟩
    rintro ⟨⟩ rfl
    exact hq
  exact hdrew.bind fun _ t ht ↦ meets_of_rests ht fun _ _ ↦ RenderT.rests_of_ends_record

/-- A job that fits, and writes to the path set aside, is done or fails. -/
theorem stands_attempt (hs : s.IsLogged) (job : Job α)
    (h : s.Stands clips jobs [job.output] facts p)
    (hjob : job.Fitting clips s.media jobs facts) :
    Meets (s.Sound clips) p (s.attempt job) fun failure? q ↦
      s.Stands clips (if failure? = none then jobs ++ [job] else jobs) [] facts q := by
  intro r q hends
  obtain ⟨action, hrun⟩ := hs.run job
  obtain ⟨hr, hq⟩ := ends_attempt.1 hends
  rw [hrun] at hr hq
  -- what the engine answers is logged
  obtain ⟨answer, hr, hlog⟩ : ∃ answer, r = .ok (RenderT.failureOf answer) ∧
      q.log = p.log ++ [.ran job answer] := ⟨_, hr, by rw [hq]; rfl⟩
  have hcount : q.journal.freshCount = p.journal.freshCount := by rw [hq]
  have hsound : s.Sound clips q := by
    rw [Sound, hlog]
    refine h.sound.append_singleton fun job' answer' heq ↦ ?_
    obtain ⟨rfl, -⟩ := Exchange.ran.inj heq
    rw [h.done_eq]
    exact hjob.mono h.facts_subset
  have hfacts : facts ⊆ q.log := by
    rw [hlog]
    exact List.Subset.trans h.facts_subset (List.subset_append_left _ _)
  refine ⟨hsound, ?_⟩
  rintro failure? rfl
  obtain rfl := Except.ok.inj hr
  cases answer with
  | ok _ =>
    refine ⟨hsound, ?_, ?_, hfacts⟩
    · rw [hlog, Exchange.done_append, h.done_eq]
      rfl
    · show Numbered _ ((jobs ++ [job]).map Job.output ++ []) _
      rw [hcount, List.map_append, List.append_nil]
      exact h.numbered
  | error e =>
    refine ⟨hsound, ?_, ?_, hfacts⟩
    · rw [hlog, Exchange.done_append, h.done_eq]
      exact List.append_nil jobs
    · rw [hcount]
      exact (h.forget (List.Subset.refl facts)).numbered

/-- A job that must succeed is one more job that is done. -/
theorem stands_run (hs : s.IsLogged) (job : Job α)
    (h : s.Stands clips jobs [job.output] facts p)
    (hjob : job.Fitting clips s.media jobs facts) :
    Meets (s.Sound clips) p (s.run job) fun path q ↦
      path = job.output ∧ s.Stands clips (jobs ++ [job]) [] facts q := by
  refine (stands_attempt hs job h hjob).bind fun failure? t ht ↦ ?_
  cases failure? with
  | none => exact .pure ht.sound ⟨rfl, ht⟩
  | some e => exact .throw ht.sound

end Session

end Standing

end Splice
