import Splice.Proofs.Job.FileLists
import Splice.Proofs.Render.Delivery
import Splice.Proofs.Render.Tasks

/-!
# Intermediate files are kept apart

Every intermediate file of a render is a file of its own, directly in the directory of the render,
whatever the ids of the clips are (`Studio.keepsApart_of_ends_render`).

A name begins with the number that a counter gives, and a label keeps nothing of an id but letters,
digits and hyphens (`isLabel_fileLabel`), so what stands after the directory is a single component
(`isChild_join_freshName`). That the files are all different rests on the numbers. It is not enough
to look at the jobs that are done: a name is also used up by a job that fails, and by a drawing or a
list of files. So the walk through the session (`RenderT.HandsOver`) keeps account of all paths:
those that the log shows as written and those that are set aside are, one after another, the paths
that were given out (`Consecutive`). Between a name and its use nothing fails, so wherever a run
ends, none is set aside.
-/

namespace Splice

variable {α σ β γ : Type}

/-! ### Names -/

/-- A character that a label may have: an ASCII letter or digit, a hyphen or an underscore. -/
def IsLabelChar (c : Char) : Prop := c.isAlphanum = true ∨ c = '-' ∨ c = '_'

/-- A text of such characters. -/
def IsLabel (label : String) : Prop := ∀ c ∈ label.toList, IsLabelChar c

/-- The extensions of intermediate files. -/
def freshExtensions : List String := ["mp4", "m4a", "png", "txt"]

/-- The name of an intermediate file: a number, an underscore and a label, and behind a point the
extension. -/
structure IsFreshName (digits label extension : List Char) (name : String) : Prop where
  eq : name.toList = digits ++ '_' :: (label ++ '.' :: extension)
  number : digits ≠ [] ∧ ∀ c ∈ digits, c.isDigit = true
  label : ∀ c ∈ label, IsLabelChar c
  extension : String.ofList extension ∈ freshExtensions

instance (c : Char) : Decidable (IsLabelChar c) :=
  inferInstanceAs (Decidable (c.isAlphanum = true ∨ c = '-' ∨ c = '_'))

instance (label : String) : Decidable (IsLabel label) :=
  List.decidableBAll IsLabelChar label.toList

/-- A label may be put together of labels. -/
theorem IsLabel.append {a b : String} (ha : IsLabel a) (hb : IsLabel b) : IsLabel (a ++ b) := by
  intro c hc
  rw [String.toList_append, List.mem_append] at hc
  exact hc.elim (ha c) (hb c)

/-- Of a clip's id only harmless characters are kept. -/
theorem isLabel_fileLabel (id : String) : IsLabel (fileLabel id) := by
  have hclip : IsLabel "clip" := by decide
  intro c hc
  rw [fileLabel] at hc
  split_ifs at hc
  · exact hclip c hc
  · rw [String.toList_ofList] at hc
    obtain ⟨d, -, rfl⟩ := List.mem_map.1 (List.mem_of_mem_take hc)
    split_ifs with hd
    · rw [Bool.or_eq_true, beq_iff_eq] at hd
      exact hd.imp_right .inl
    · exact .inr (.inr rfl)

/-- The names that are given are of the form that is claimed, if label and extension are. -/
theorem isFreshName_freshName (number : ℕ) {label extension : String} (hlabel : IsLabel label)
    (hextension : extension ∈ freshExtensions) :
    IsFreshName (Decimal.padded 3 number) label.toList extension.toList
      (freshName number label extension) where
  eq := toList_freshName number label extension
  number := ⟨Decimal.padded_ne_nil 3 number, fun _ ↦ Decimal.isDigit_of_mem_padded⟩
  label := hlabel
  extension := by rwa [String.ofList_toList]

/-! ### Children -/

namespace Path

/-- A path directly below a directory. -/
structure IsChild (p dir : Path) (name : String) : Prop where
  components_eq : p.components = dir.components ++ [name]
  isAbsolute_eq : p.isAbsolute = dir.isAbsolute

/-- A slash parts the components before it from those after it, even a second or a last slash. -/
theorem components_of_slash {p : Path} {front back : List Char}
    (hp : p.text.toList = front ++ '/' :: back) :
    p.components = (Path.mk (String.ofList front)).components ++
      (Path.mk (String.ofList back)).components := by
  rw [components, components, components, hp, String.toList_ofList, String.toList_ofList, pieces_eq,
    pieces_eq, pieces_eq, List.splitOn_append_cons_self, List.filter_append, List.map_append]

/-- A name without slashes is one component, unless it is idle. -/
theorem components_name {name : List Char} (h : IsName name) (hidle : isIdle name = false) :
    (Path.mk (String.ofList name)).components = [String.ofList name] := by
  have hkept : [name].filter (fun piece ↦ !piece.isEmpty && piece != ['.']) = [name] :=
    List.filter_eq_self.2 (List.forall_mem_singleton.2 (by simpa [isIdle] using hidle))
  rw [components, String.toList_ofList, pieces_eq, List.splitOn_eq_singleton h.2, hkept]
  rfl

/-- A name that is joined to a directory is one component more. -/
theorem isChild_join (dir : Path) {name : List Char} (h : IsName name)
    (hidle : isIdle name = false) :
    (dir.join (String.ofList name)).IsChild dir (String.ofList name) := by
  rw [join_name dir h]
  by_cases hempty : dir.text = ""
  · -- in the current directory a path is the name itself
    obtain rfl : dir = ⟨""⟩ := congrArg Path.mk hempty
    have hhead : name.head? ≠ some '/' := fun hhead ↦ h.2 (List.mem_of_head? hhead)
    refine ⟨components_name h hidle, ?_⟩
    simpa [isAbsolute] using hhead
  · obtain ⟨c, text, htext⟩ : ∃ c text, dir.text.toList = c :: text :=
      List.exists_cons_of_ne_nil (by simpa using hempty)
    have hisEmpty : dir.text.isEmpty = false := by simpa using hempty
    rw [hisEmpty, Bool.false_or]
    split_ifs with hslash
    · -- the slash at the end of the directory stands before the name
      obtain ⟨front, hfront⟩ : ∃ front, dir.text.toList = front ++ ['/'] :=
        List.getLast?_eq_some_iff.1 (by simpa [endsInSlash] using hslash)
      have hjoin : (dir.text ++ String.ofList name).toList = front ++ '/' :: name := by
        rw [String.toList_append, hfront, String.toList_ofList, List.append_assoc]
        rfl
      refine ⟨?_, ?_⟩
      · rw [components_of_slash hjoin, components_name h hidle, components_of_slash hfront]
        congr 1
        exact (List.append_nil _).symm
      · rw [isAbsolute, isAbsolute, String.toList_append, htext]
        rfl
    · have hjoin : (dir.text ++ "/" ++ String.ofList name).toList =
          dir.text.toList ++ '/' :: name := by
        rw [String.toList_append, String.toList_append, String.toList_ofList, List.append_assoc]
        exact congrArg _ (congrArg _ String.toList_ofList)
      refine ⟨?_, ?_⟩
      · rw [components_of_slash hjoin, components_name h hidle, String.ofList_toList]
      · rw [isAbsolute, isAbsolute, hjoin, htext]
        rfl

end Path

/-- So whatever the label, an intermediate file is directly in the directory. -/
theorem isChild_join_freshName (dir : Path) (number : ℕ) {label extension : String}
    (hlabel : IsLabel label) (hextension : extension ∈ freshExtensions) :
    (dir.join (freshName number label extension)).IsChild dir
      (freshName number label extension) := by
  have hname := isFreshName_freshName number hlabel hextension
  -- no part of the name holds a slash
  have hplain : '/' ∉ (freshName number label extension).toList := by
    have hdigit : ¬ ('/').isDigit = true := by decide
    have hlabelled : ¬ IsLabelChar '/' := by decide
    have hextended : ∀ extension ∈ freshExtensions, '/' ∉ extension.toList := by decide
    rw [hname.eq, List.mem_append, List.mem_cons, List.mem_append, List.mem_cons]
    rintro (hc | hc | hc | hc | hc)
    · exact hdigit (hname.number.2 _ hc)
    · exact absurd hc (by decide)
    · exact hlabelled (hname.label _ hc)
    · exact absurd hc (by decide)
    · exact hextended extension hextension hc
  -- a name that begins with a digit is neither empty nor dots
  have hidle : Path.isIdle (freshName number label extension).toList = false := by
    obtain ⟨digit, digits, hdigits⟩ := List.exists_cons_of_ne_nil hname.number.1
    rw [hname.eq, hdigits]
    simp [Path.isIdle]
  have hne : (freshName number label extension).toList ≠ [] := by
    rw [hname.eq]
    exact List.append_ne_nil_of_right_ne_nil _ (List.cons_ne_nil _ _)
  rw [← String.ofList_toList (s := freshName number label extension)]
  exact Path.isChild_join dir ⟨hne, hplain⟩ hidle

/-! ### Files with consecutive numbers -/

/-- The paths that are given out in a directory from a number on, up to the next one. -/
inductive Consecutive (dir : Path) (first : ℕ) : List Path → ℕ → Prop
  | nil : Consecutive dir first [] first
  | snoc {paths : List Path} {next : ℕ} {label extension : String}
    (h : Consecutive dir first paths next) (hlabel : IsLabel label)
    (hextension : extension ∈ freshExtensions) :
    Consecutive dir first (paths ++ [dir.join (freshName next label extension)]) (next + 1)

namespace Consecutive

variable {dir : Path} {first next : ℕ} {paths : List Path}

/-- The counter has gone as far as there are paths. -/
theorem next_eq (h : Consecutive dir first paths next) : next = first + paths.length := by
  induction h with
  | nil => rfl
  | snoc _ _ _ ih =>
    rw [List.length_append, List.length_singleton, ← Nat.add_assoc, ← ih]

/-- The number in a name is the place of the path. -/
theorem getElem_eq (h : Consecutive dir first paths next) (i : ℕ) (hi : i < paths.length) :
    ∃ label extension, IsLabel label ∧ extension ∈ freshExtensions ∧
      paths[i] = dir.join (freshName (first + i) label extension) := by
  induction h with
  | nil => cases hi
  | @snoc paths next label extension h hlabel hextension ih =>
    rcases Nat.lt_or_ge i paths.length with hlt | hge
    · rw [List.getElem_append_left hlt]
      exact ih hlt
    · rw [List.length_append, List.length_singleton] at hi
      obtain rfl : i = paths.length := by omega
      refine ⟨label, extension, hlabel, hextension, ?_⟩
      rw [List.getElem_concat_length rfl, h.next_eq]

/-- The numbers tell the paths apart. -/
theorem nodup (h : Consecutive dir first paths next) : paths.Nodup := by
  refine List.pairwise_iff_getElem.2 fun i j hi hj hij heq ↦ ?_
  obtain ⟨label, extension, -, -, hfirst⟩ := h.getElem_eq i hi
  obtain ⟨label', extension', -, -, hsecond⟩ := h.getElem_eq j hj
  rw [hfirst, hsecond] at heq
  have := eq_of_join_freshName_eq heq
  omega

/-- All of the paths are in the one directory. -/
theorem isChild (h : Consecutive dir first paths next) {path : Path} (hpath : path ∈ paths) :
    ∃ digits label extension name, IsFreshName digits label extension name ∧
      path.IsChild dir name := by
  obtain ⟨i, hi, rfl⟩ := List.getElem_of_mem hpath
  obtain ⟨label, extension, hlabel, hextension, heq⟩ := h.getElem_eq i hi
  rw [heq]
  exact ⟨_, _, _, _, isFreshName_freshName _ hlabel hextension,
    isChild_join_freshName dir _ hlabel hextension⟩

end Consecutive

/-! ### What is written -/

/-- The files that an exchange writes, or may have written when it failed, in the order of their
names. -/
def Exchange.written : Exchange α → List Path
  | ran job _ => job.written.reverse
  | drew path _ => [path]
  | _ => []

/-- The files that a log shows as written. -/
def Exchange.allWritten (log : List (Exchange α)) : List Path := log.flatMap written

/-- What is written in a render is kept apart in its directory. -/
structure KeepsApart (dir : Path) (first next : ℕ) (log : List (Exchange α)) : Prop where
  /-- One file is written for each name that is given. -/
  count : next = first + (Exchange.allWritten log).length
  /-- They are the files of the names that are given, one after another. -/
  named : ∀ (i : ℕ) (h : i < (Exchange.allWritten log).length), ∃ label extension,
    (Exchange.allWritten log)[i] = dir.join (freshName (first + i) label extension)
  /-- No file is written twice. -/
  nodup : (Exchange.allWritten log).Nodup
  /-- Every file is directly in the directory, and its name is one of an intermediate file. -/
  isChild : ∀ path ∈ Exchange.allWritten log, ∃ digits label extension name,
    IsFreshName digits label extension name ∧ path.IsChild dir name

/-- If all consecutive paths are written, all parts of the claim hold. -/
theorem Consecutive.keepsApart {dir : Path} {first next : ℕ} {log : List (Exchange α)}
    (h : Consecutive dir first (Exchange.allWritten log) next) : KeepsApart dir first next log where
  count := h.next_eq
  named i hi := by
    obtain ⟨label, extension, -, -, heq⟩ := h.getElem_eq i hi
    exact ⟨label, extension, heq⟩
  nodup := h.nodup
  isChild _ hpath := h.isChild hpath

/-! ### Handing paths over -/

/-- What is written and what is set aside are the paths that were given out in a directory. -/
def Situation.Accounts (dir : Path) (first : ℕ) (pending : List Path)
    (p : Situation α (σ × List (Exchange α))) : Prop :=
  Consecutive dir first (Exchange.allWritten p.log ++ pending) p.journal.freshCount

namespace Situation.Accounts

variable {dir : Path} {first : ℕ} {pending : List Path}
  {p q : Situation α (σ × List (Exchange α))}

/-- What is not logged and takes no name changes no account. -/
theorem rests (h : p.Accounts dir first pending) (hrest : p.Rests q) :
    q.Accounts dir first pending := by
  rw [Accounts, hrest.log_eq, hrest.count_eq]
  exact h

/-- What was set aside is written. -/
theorem notes {exchange : Exchange α} (hnote : p.Notes exchange q)
    (h : p.Accounts dir first exchange.written) : q.Accounts dir first [] := by
  rw [Accounts, hnote.log_eq, hnote.count_eq, List.append_nil, Exchange.allWritten,
    List.flatMap_append, List.flatMap_singleton]
  exact h

end Situation.Accounts

namespace RenderT

/-- A computation for which some paths are set aside: if it succeeds, others are, which may depend
on its result, and if it fails, none is. -/
def HandsOver (dir : Path) (first : ℕ) (x : RenderT α (StateM (σ × List (Exchange α))) β)
    (pending : List Path) (left : β → List Path) : Prop :=
  ∀ p r q, p.Accounts dir first pending → x.Ends p r q →
    (∀ b, r = .ok b → q.Accounts dir first (left b)) ∧
      ∀ e, r = .error e → q.Accounts dir first []

/-- A computation that leaves no path set aside. -/
abbrev Settles (dir : Path) (first : ℕ) (x : RenderT α (StateM (σ × List (Exchange α))) β) : Prop :=
  HandsOver dir first x [] fun _ ↦ []

namespace HandsOver

variable {dir : Path} {first : ℕ} {pending : List Path}
  {x : RenderT α (StateM (σ × List (Exchange α))) β}
  {f : β → RenderT α (StateM (σ × List (Exchange α))) γ} {left : β → List Path}
  {last : γ → List Path}

/-- What is set aside stays so. -/
theorem pure {b : β} (h : left b = pending) :
    HandsOver dir first (Pure.pure b : RenderT α (StateM (σ × List (Exchange α))) β) pending
      left := by
  intro p r q hp hends
  obtain ⟨rfl, rfl⟩ := ends_pure.1 hends
  refine ⟨fun b' hb' ↦ ?_, nofun⟩
  rw [← Except.ok.inj hb', h]
  exact hp

/-- A run may fail where nothing is set aside, and only there. -/
theorem throw (e : Failure) :
    HandsOver dir first (MonadExcept.throw e : RenderT α (StateM (σ × List (Exchange α))) β) []
      left := by
  intro p r q hp h
  obtain ⟨rfl, rfl⟩ := ends_throw.1 h
  exact ⟨nofun, fun _ _ ↦ hp⟩

/-- A sequence hands over from its first part to its second. -/
theorem bind (hx : HandsOver dir first x pending left)
    (hf : ∀ b, HandsOver dir first (f b) (left b) last) :
    HandsOver dir first (x >>= f) pending last := by
  intro p r q hp h
  rcases ends_bind.1 h with ⟨b, t, hb, hrest⟩ | ⟨e, he, rfl⟩
  · exact hf b t r q ((hx p _ t hp hb).1 b rfl) hrest
  · exact ⟨nofun, fun _ _ ↦ (hx p _ q hp he).2 e rfl⟩

/-- Nothing is set aside for what never runs. -/
theorem throw_bind (e : Failure) (f : β → RenderT α (StateM (σ × List (Exchange α))) γ) :
    HandsOver dir first (MonadExcept.throw e >>= f) [] last := by
  intro p r q hp h
  obtain ⟨rfl, rfl⟩ := ends_throw_bind.1 h
  exact ⟨nofun, fun _ _ ↦ hp⟩

/-- What leaves log and counter alone settles. -/
theorem of_rests (hx : ∀ p r q, x.Ends p r q → p.Rests q) : Settles dir first x :=
  fun p r q hp h ↦ ⟨fun _ _ ↦ hp.rests (hx p r q h), fun _ _ ↦ hp.rests (hx p r q h)⟩

/-- An action that is not logged, with whatever is set aside. -/
theorem observe (action : StateM σ β) :
    HandsOver dir first (RenderT.observe (Exchange.silently action) :
      RenderT α (StateM (σ × List (Exchange α))) β) pending fun _ ↦ pending := by
  intro p r q hp h
  have hrest := rests_of_ends_observe h
  obtain ⟨rfl, -⟩ := ends_observe.1 h
  exact ⟨fun _ _ ↦ hp.rests hrest, nofun⟩

/-- An event, with whatever is set aside. -/
theorem record (event : Event α) :
    HandsOver dir first (RenderT.record event : RenderT α (StateM (σ × List (Exchange α))) Unit)
      pending fun _ ↦ pending := by
  intro p r q hp h
  have hrest := rests_of_ends_record h
  obtain ⟨rfl, -⟩ := Session.ends_record.1 h
  exact ⟨fun _ _ ↦ hp.rests hrest, nofun⟩

/-- A reference that the manifest lacks is refused without an exchange. -/
theorem refused (e : Failure) :
    Settles dir first
      (perform (Pure.pure (.error e)) : RenderT α (StateM (σ × List (Exchange α))) β) :=
  of_rests fun p r q h ↦ by
    obtain ⟨-, rfl⟩ := ends_perform.1 h
    exact .refl _

/-- An exchange writes what was set aside, whatever the answer is. -/
theorem logging (note : Except Failure β → Exchange α) (action : StateM σ (Except Failure β))
    (hnote : ∀ answer, (note answer).written = pending) :
    HandsOver dir first (perform (Exchange.logging note action)) pending fun _ ↦ [] := by
  intro p r q hp h
  have hq := Situation.Accounts.notes (notes_of_ends_perform h) (hnote r ▸ hp)
  exact ⟨fun _ _ ↦ hq, fun _ _ ↦ hq⟩

/-- One element settles after another. -/
theorem mapM {f : γ → RenderT α (StateM (σ × List (Exchange α))) β}
    (hf : ∀ c, Settles dir first (f c)) (cs : List γ) : Settles dir first (cs.mapM f) := by
  induction cs with
  | nil => exact pure rfl
  | cons c rest ih =>
    rw [List.mapM_cons]
    exact (hf c).bind fun _ ↦ ih.bind fun _ ↦ pure rfl

/-- Likewise for a fold. -/
theorem foldlM {f : β → γ → RenderT α (StateM (σ × List (Exchange α))) β}
    (hf : ∀ b c, Settles dir first (f b c)) (b : β) (cs : List γ) :
    Settles dir first (cs.foldlM f b) := by
  induction cs generalizing b with
  | nil => exact pure rfl
  | cons c rest ih =>
    rw [List.foldlM_cons]
    exact (hf b c).bind ih

end HandsOver

end RenderT

/-! ### Sessions -/

namespace Session

open RenderT (HandsOver Settles)

variable {s : Session (StateM (σ × List (Exchange α))) α} {first : ℕ} {pending : List Path}

/-- A new name is set aside behind those that are. -/
theorem handsOver_freshPath {label extension : String} (hlabel : IsLabel label)
    (hextension : extension ∈ freshExtensions) :
    HandsOver s.workdir first (s.freshPath label extension) pending
      fun path ↦ pending ++ [path] := by
  -- the counter goes up by one as the path is appended
  intro p r q hp h
  obtain ⟨rfl, rfl⟩ := ends_freshPath.1 h
  refine ⟨fun path hpath ↦ ?_, nofun⟩
  obtain rfl := Except.ok.inj hpath
  rw [Situation.Accounts, ← List.append_assoc]
  exact .snoc hp hlabel hextension

/-- A look at a file is no exchange and cannot fail. -/
theorem handsOver_inspect (hs : s.IsLogged) (path : Path) :
    HandsOver s.workdir first (s.inspect path) pending fun _ ↦ pending := by
  obtain ⟨action, hprobe⟩ := hs.probe path
  rw [inspect, hprobe]
  refine (HandsOver.observe action).bind fun answer ↦ ?_
  cases answer with
  | ok info => exact .pure rfl
  | error e => exact .pure rfl

theorem handsOver_hasAudio (hs : s.IsLogged) (path : Path) :
    HandsOver s.workdir first (s.hasAudio path) pending fun _ ↦ pending :=
  (handsOver_inspect hs path).bind fun _ ↦ .pure rfl

/-- A job writes the paths that are set aside for it. -/
theorem handsOver_attempt (hs : s.IsLogged) (job : Job α)
    (hpending : job.written.reverse = pending) :
    HandsOver s.workdir first (s.attempt job) pending fun _ ↦ [] := by
  intro p r q hp h
  rw [← hpending] at hp
  obtain ⟨action, hrun⟩ := hs.run job
  obtain ⟨rfl, hq⟩ := ends_attempt.1 h
  rw [hrun] at hq
  obtain ⟨answer, hnote⟩ : ∃ answer, p.Notes (.ran job answer) q :=
    ⟨_, by rw [hq]; exact ⟨rfl, rfl⟩⟩
  have hq : q.Accounts s.workdir first [] := .notes hnote hp
  exact ⟨fun _ _ ↦ hq, nofun⟩

/-- A job that fails has written as well, as far as is known, so nothing is set aside after it
either. -/
theorem handsOver_run (hs : s.IsLogged) (job : Job α) (hpending : job.written.reverse = pending) :
    HandsOver s.workdir first (s.run job) pending fun _ ↦ [] := by
  refine (handsOver_attempt hs job hpending).bind fun failure? ↦ ?_
  cases failure? with
  | none => exact .pure rfl
  | some e => exact .throw e

/-- A drawing writes the one path that is set aside. -/
theorem handsOver_drawInto (hs : s.IsLogged) (path : Path) (picture : Picture) :
    HandsOver s.workdir first (s.drawInto path picture) [path] fun _ ↦ [] := by
  obtain ⟨action, hdraw⟩ := hs.draw path picture
  rw [drawInto, hdraw]
  exact (HandsOver.logging (.drew path) action fun _ ↦ rfl).bind fun _ ↦ .record _

/-- To resolve a reference writes nothing. It may fail, so it comes before any name is taken. -/
theorem settles_fetch (hs : s.IsLogged) (reference? : Option String) (missing : Failure) :
    Settles s.workdir first (RenderT.perform (s.storage.fetch reference? missing)) := by
  cases reference? with
  | none => exact .refused _
  | some reference =>
    obtain ⟨action, hresolve⟩ := hs.resolve reference
    rw [Storage.fetch, hresolve]
    exact .logging _ action fun _ ↦ rfl

theorem settles_source (hs : s.IsLogged) (id : String) :
    Settles s.workdir first (s.source id) := by
  rw [source, Storage.source_eq]
  exact settles_fetch hs _ _

theorem settles_asset (hs : s.IsLogged) (id : String) :
    Settles s.workdir first (s.asset id) := by
  rw [asset, Storage.asset_eq]
  exact settles_fetch hs _ _

variable [Scalar α]

/-- The job of a segment is to write the path that was set aside for it. -/
theorem handsOver_segmentOf (hs : s.IsLogged) (duration : α) (media : MediaClip α) (input : Path)
    (blended : BlendedEdges) (output : Path) :
    HandsOver s.workdir first (s.segmentOf duration media input blended output) [output]
      fun job ↦ [job.output] := by
  have hcrop : HandsOver s.workdir first (s.cropOf media.look input) [output]
      fun _ ↦ [output] := by
    rw [cropOf]
    cases media.look.crop? with
    | none => exact .pure rfl
    | some box => exact (handsOver_inspect hs input).bind fun _ ↦ .pure rfl
  exact (handsOver_hasAudio hs input).bind fun _ ↦ hcrop.bind fun _ ↦ .pure rfl

/-- A segment: a name, and the job that writes it. -/
theorem settles_makeSegment (hs : s.IsLogged) (clip : Clip α) (media : MediaClip α) (input : Path)
    (blended : BlendedEdges) :
    Settles s.workdir first (s.makeSegment clip media input blended) :=
  (handsOver_freshPath (.append (by decide) (isLabel_fileLabel _)) (by decide)).bind fun output ↦
    (handsOver_segmentOf hs _ media input blended output).bind fun job ↦
      (handsOver_run hs _ rfl).bind fun _ ↦ .pure rfl

omit [Scalar α] in
/-- A filler, whose label is its kind. -/
theorem settles_renderFiller (hs : s.IsLogged) (filler : Filler α) :
    Settles s.workdir first (s.renderFiller filler) := by
  have hlabel : IsLabel filler.kind.name := by cases filler.kind <;> decide
  exact (handsOver_freshPath hlabel (by decide)).bind fun output ↦
    (handsOver_run hs _ rfl).bind fun _ ↦ .pure rfl

/-- An entry. The source is resolved before the segment takes a name. -/
theorem settles_renderEntry (hs : s.IsLogged) (c : Composition α) (entry : Entry α) :
    Settles s.workdir first (s.renderEntry c entry) := by
  cases entry with
  | clip index clip =>
    rw [renderEntry]
    cases clip.video? with
    | none => exact .throw _
    | some media =>
      exact (settles_source hs _).bind fun _ ↦ (settles_makeSegment hs _ _ _ _).bind fun _ ↦
        (HandsOver.record _).bind fun _ ↦ .pure rfl
  | filler filler =>
    exact (settles_renderFiller hs _).bind fun _ ↦ (HandsOver.record _).bind fun _ ↦ .pure rfl

/-! #### Merges -/

/-- The job of a blend is to write the name that it takes. -/
theorem handsOver_blendJob (left right : RenderedFile α) (style : TransitionStyle) (duration : α) :
    HandsOver s.workdir first (s.blendJob left right style duration) []
      fun job ↦ [job.output] := by
  have hlabel : IsLabel ("xfade_" ++ style.name) := by cases style <;> decide
  exact (handsOver_freshPath hlabel (by decide)).bind fun _ ↦ .pure rfl

/-- A blend that is tried twice takes two names and writes both. -/
theorem settles_blendFiles (hs : s.IsLogged) (left right : RenderedFile α)
    (style : TransitionStyle) (duration : α) :
    Settles s.workdir first (s.blendFiles left right style duration) := by
  refine (handsOver_blendJob left right style duration).bind fun job ↦
    (handsOver_attempt hs _ rfl).bind fun failure? ↦ ?_
  cases failure? with
  | none => exact .pure rfl
  | some e =>
    dsimp only
    split_ifs
    · exact (handsOver_blendJob left right .fallback duration).bind fun _ ↦
        (handsOver_run hs _ rfl).bind fun _ ↦ .pure rfl
    · exact .throw e

/-- A merge by a transition is a blend and an event. -/
theorem settles_mergeByTransition (hs : s.IsLogged) (left right : RenderedFile α)
    (style : TransitionStyle) (duration : α) (fromId toId : String) :
    Settles s.workdir first (s.mergeByTransition left right style duration fromId toId) :=
  (settles_blendFiles hs left right style duration).bind fun _ ↦
    (HandsOver.record _).bind fun _ ↦ .pure rfl

/-- The list of the files is written too. -/
theorem settles_mergeByConcat (hs : s.IsLogged) (left right : RenderedFile α) :
    Settles s.workdir first (s.mergeByConcat left right) :=
  (handsOver_freshPath (by decide) (by decide)).bind fun _ ↦
    (handsOver_freshPath (by decide) (by decide)).bind fun _ ↦
      (handsOver_run hs _ rfl).bind fun _ ↦ (HandsOver.record _).bind fun _ ↦ .pure rfl

/-- All merges, by induction on the pieces. -/
theorem settles_mergeOnto (hs : s.IsLogged) (blendAfter? : ℕ → Option (TransitionStyle × α))
    (running : RenderedFile α) (last? : Option (ℕ × String)) (pieces : List (Piece α)) :
    Settles s.workdir first (s.mergeOnto blendAfter? running last? pieces) := by
  induction pieces generalizing running last? with
  | nil => exact .pure rfl
  | cons next rest ih =>
    rw [mergeOnto]
    rcases Piece.transitionTo? blendAfter? last? next.clip? with
      - | ⟨style, duration, fromId, toId⟩
    · exact (settles_mergeByConcat hs _ _).bind fun _ ↦ ih _ _
    · exact (settles_mergeByTransition hs _ _ _ _ _ _).bind fun _ ↦ ih _ _

/-- An empty sequence fails before any name. -/
theorem settles_mergePieces (hs : s.IsLogged) (blendAfter? : ℕ → Option (TransitionStyle × α))
    (pieces : List (Piece α)) : Settles s.workdir first (s.mergePieces blendAfter? pieces) := by
  cases pieces with
  | nil => exact .throw _
  | cons piece rest => exact settles_mergeOnto hs blendAfter? _ _ rest

/-! #### Sounds -/

/-- A sound: the sources are looked at before the name is taken. -/
theorem settles_mixSound (hs : s.IsLogged) (base : RenderedFile α) (audio : Path) (time : α)
    (label : String) : Settles s.workdir first (s.mixSound base audio time label) := by
  refine (handsOver_hasAudio hs audio).bind fun hasAudio ↦ ?_
  cases hasAudio with
  | false => exact .throw_bind _ _
  | true =>
    exact (handsOver_hasAudio hs _).bind fun _ ↦
      (handsOver_freshPath (.append (by decide) (isLabel_fileLabel _)) (by decide)).bind fun _ ↦
        (handsOver_run hs _ rfl).bind fun _ ↦ .pure rfl

/-- A sound that is cut out first takes a name for that too. -/
theorem settles_mixClip (hs : s.IsLogged) (base : RenderedFile α) (clip : Clip α)
    (audio : AudioClip α) : Settles s.workdir first (s.mixClip base clip audio) :=
  (settles_asset hs _).bind fun _ ↦
    (handsOver_freshPath (.append (by decide) (isLabel_fileLabel _)) (by decide)).bind fun _ ↦
      (handsOver_run hs _ rfl).bind fun _ ↦ settles_mixSound hs _ _ _ _

/-- A sound that is left out or silent takes no name. -/
theorem settles_addSound (hs : s.IsLogged) (base : RenderedFile α) (clip : Clip α) :
    Settles s.workdir first (s.addSound base clip) := by
  rw [addSound]
  split
  · split_ifs
    · exact (HandsOver.record _).bind fun _ ↦ .pure rfl
    · exact .pure rfl
    · exact settles_mixClip hs _ _ _
  · exact .pure rfl

/-! #### Overlays -/

omit [Scalar α] in
/-- The job that paints a clip is to write the name that it takes. -/
theorem handsOver_paintJob (clip : Clip α) (base : RenderedFile α) (source : Job.OverlayPicture)
    (placement : Placement α) (stop : α) (mode : FitMode) (rotation : α) :
    HandsOver s.workdir first (s.paintJob clip base source placement stop mode rotation) []
      fun job ↦ [job.output] :=
  (handsOver_freshPath (.append (by decide) (isLabel_fileLabel _)) (by decide)).bind fun _ ↦
    .pure rfl

/-- An overlaid video: its segment is written before the painting takes a name. -/
theorem settles_paintVideo (hs : s.IsLogged) (base : RenderedFile α) (clip : Clip α)
    (media : MediaClip α) : Settles s.workdir first (s.paintVideo base clip media) := by
  refine (settles_source hs _).bind fun _ ↦ (settles_makeSegment hs _ _ _ _).bind fun _ ↦
    (handsOver_paintJob _ _ _ _ _ _ _).bind fun _ ↦ (handsOver_run hs _ rfl).bind fun _ ↦ ?_
  dsimp only
  split_ifs
  · exact settles_mixSound hs _ _ _ _
  · exact .pure rfl

theorem settles_paintPicture (hs : s.IsLogged) (base : RenderedFile α) (clip : Clip α)
    (media : MediaClip α) : Settles s.workdir first (s.paintPicture base clip media) :=
  (settles_asset hs _).bind fun _ ↦ (handsOver_paintJob _ _ _ _ _ _ _).bind fun _ ↦
    (handsOver_run hs _ rfl).bind fun _ ↦ .pure rfl

/-- An overlaid text: one name, one job. -/
theorem settles_paintText (hs : s.IsLogged) (base : RenderedFile α) (clip : Clip α)
    (text : TextClip α) : Settles s.workdir first (s.paintText base clip text) :=
  (handsOver_freshPath (.append (by decide) (isLabel_fileLabel _)) (by decide)).bind fun _ ↦
    (handsOver_run hs _ rfl).bind fun _ ↦ .pure rfl

/-- An overlaid shape: the drawing is written before the painting takes a name. -/
theorem settles_paintShape (hs : s.IsLogged) (base : RenderedFile α) (clip : Clip α)
    (shape : ShapeClip α) : Settles s.workdir first (s.paintShape base clip shape) :=
  (handsOver_freshPath (.append (by decide) (isLabel_fileLabel _)) (by decide)).bind fun _ ↦
    (handsOver_drawInto hs _ _).bind fun _ ↦ (handsOver_paintJob _ _ _ _ _ _ _).bind fun _ ↦
      (handsOver_run hs _ rfl).bind fun _ ↦ .pure rfl

/-- An overlay of any kind. -/
theorem settles_addOverlay (hs : s.IsLogged) (base : RenderedFile α) (clip : Clip α) :
    Settles s.workdir first (s.addOverlay base clip) := by
  rw [addOverlay]
  split
  · exact settles_paintVideo hs _ _ _
  · exact settles_paintPicture hs _ _ _
  · exact settles_paintText hs _ _ _
  · exact settles_paintShape hs _ _ _
  · exact .pure rfl

end Session

/-! ### Renders -/

namespace Studio

open RenderT (HandsOver Settles Meets)

variable {studio : Studio (StateM σ) α} {p q : Situation α (σ × List (Exchange α))} {first : ℕ}

/-- Nothing is named or written so far. -/
structure Idle (first : ℕ) (p : Situation α (σ × List (Exchange α))) : Prop where
  count_eq : p.journal.freshCount = first
  allWritten_eq : Exchange.allWritten p.log = []

/-- What is written is accounted for in one directory, and if there is anything, the directory was
made for it. -/
def Houses (studio : Studio (StateM σ) α) (root? : Option Path) (first : ℕ)
    (p : Situation α (σ × List (Exchange α))) : Prop :=
  ∃ dir, p.Accounts dir first [] ∧
    (Exchange.allWritten p.log ≠ [] → ∃ w, ((studio.workspace.openDir root?).run w).1 = .ok dir)

/-- What changes neither log nor counter leaves everything idle. -/
theorem Idle.rests (h : Idle first p) (hrest : p.Rests q) : Idle first q where
  count_eq := hrest.count_eq.trans h.count_eq
  allWritten_eq := by rw [hrest.log_eq, h.allWritten_eq]

/-- Nothing written is accounted for in any directory. -/
theorem Idle.accounts (h : Idle first p) (dir : Path) : p.Accounts dir first [] := by
  rw [Situation.Accounts, h.allWritten_eq, h.count_eq]
  exact .nil

/-- As long as nothing is written, no directory is needed. -/
theorem Idle.houses (h : Idle first p) (root? : Option Path) : studio.Houses root? first p :=
  ⟨⟨""⟩, h.accounts _, fun hwritten ↦ absurd h.allWritten_eq hwritten⟩

/-- A part of a render that writes nothing. -/
theorem meets_of_idle {β : Type} {x : RenderT α (StateM (σ × List (Exchange α))) β}
    {root? : Option Path} (hx : ∀ r q, x.Ends p r q → Idle first q) :
    Meets (studio.Houses root? first) p x fun _ ↦ Idle first :=
  fun r q hends ↦ ⟨(hx r q hends).houses root?, fun _ _ ↦ hx r q hends⟩

/-- All that is written in a fresh directory is written between making and removing it; without a
directory nothing is. -/
theorem houses_inFreshDir {β : Type} {root? : Option Path}
    {body : Path → RenderT α (StateM (σ × List (Exchange α))) β} {r : Except Failure β}
    (h : Idle first p) (hbody : ∀ dir, Settles dir first (body dir))
    (hends : (studio.logged.inFreshDir root? body).Ends p r q) : studio.Houses root? first q := by
  rcases cases_of_ends_inFreshDir hends with
    ⟨e, -, hopen⟩ | ⟨dir, t, u, hopen, hrun, hclose⟩
  · exact (h.rests (RenderT.rests_of_ends_perform hopen)).houses root?
  · have hopened := h.rests (RenderT.rests_of_ends_perform hopen)
    have hsettled := hbody dir t r u (hopened.accounts dir) hrun
    refine ⟨dir, .rests ?_ (RenderT.rests_of_ends_observe hclose),
      fun _ ↦ ⟨_, (RenderT.ends_perform.1 hopen).1.symm⟩⟩
    cases r with
    | ok b => exact hsettled.1 b rfl
    | error e => exact hsettled.2 e rfl

section Renders

variable [Scalar α]

/-- An assembly settles stage by stage. -/
theorem settles_assemble {s : Session (StateM (σ × List (Exchange α))) α} (hs : s.IsLogged)
    (c : Composition α) : Settles s.workdir first (studio.logged.assemble s c) := by
  have hreach (stage : Stage) : Settles s.workdir first (studio.logged.reach stage) :=
    .of_rests fun _ _ _ ↦ rests_of_ends_reach
  refine (hreach _).bind fun _ ↦ (HandsOver.mapM (Session.settles_renderEntry hs c) _).bind
    fun pieces ↦ (hreach _).bind fun _ ↦ (Session.settles_mergePieces hs _ pieces).bind fun base ↦
      (hreach _).bind fun _ ↦ ?_
  refine (HandsOver.foldlM (Session.settles_addOverlay hs) base _).bind fun painted ↦
    (hreach _).bind fun _ ↦ ?_
  exact HandsOver.foldlM (Session.settles_addSound hs) painted _

/-- The delivery writes no intermediate file: it publishes one, and leaves a trace elsewhere. -/
theorem settles_renderPlanned (project : Project α) (media : Manifest) (c : Composition α)
    (destination : Path) (options : RenderOptions) (workdir : Path) :
    Settles workdir first
      (studio.logged.renderPlanned project media c destination options workdir) := by
  have hreach (stage : Stage) : Settles workdir first (studio.logged.reach stage) :=
    .of_rests fun _ _ _ ↦ rests_of_ends_reach
  have hpublish (rendered : Path) : Settles workdir first
      (RenderT.perform (studio.logged.storage.publish rendered destination)) :=
    .logging _ _ fun _ ↦ rfl
  have htrace (output : Path) (duration : α) : Settles workdir first
      (studio.logged.leaveTrace project c output duration) :=
    .of_rests fun _ _ _ ↦ rests_of_ends_leaveTrace
  refine (settles_assemble (isLogged studio media c.canvas workdir) c).bind fun rendered ↦
    (hreach _).bind fun _ ↦ (hpublish _).bind fun output ↦ (HandsOver.record _).bind fun _ ↦ ?_
  simp only [map_eq_pure_bind, bind_assoc, pure_bind]
  split_ifs
  · exact (htrace _ _).bind fun _ ↦ (hreach _).bind fun _ ↦ .pure rfl
  · exact (hreach _).bind fun _ ↦ .pure rfl

/-- Nothing is written to find the canvas. -/
theorem idle_canvas (project : Project α) (media : Manifest) (settings : OutputSettings α)
    {r : Except Failure (Canvas α)} (h : Idle first p)
    (hends : (RenderT.perform (studio.logged.canvas project media settings)).Ends p r q) :
    Idle first q := by
  obtain ⟨-, rfl⟩ := RenderT.ends_perform.1 hends
  obtain ⟨noted, hlog, hresolved⟩ := log_canvas studio project media settings p.world
  refine ⟨h.count_eq, ?_⟩
  have hnoted : Exchange.allWritten noted = [] := by
    refine List.flatMap_eq_nil_iff.2 fun exchange hexchange ↦ ?_
    obtain ⟨reference, answer, rfl⟩ := hresolved exchange hexchange
    rfl
  rw [Situation.log, hlog, Exchange.allWritten, List.flatMap_append]
  exact List.append_eq_nil_iff.2 ⟨h.allWritten_eq, hnoted⟩

/-- A whole render, from the check to the directory. -/
theorem houses_render {project : Project α} {media : Manifest} {destination : Path}
    {settings : OutputSettings α} {options : RenderOptions} (h : Idle first p) :
    Meets (studio.Houses options.tempRoot? first) p
      (studio.logged.render project media destination settings options) fun _ _ ↦ True := by
  have hrests {β : Type} {x : RenderT α (StateM (σ × List (Exchange α))) β}
      (hx : ∀ p r q, x.Ends p r q → p.Rests q) (p) (hp : Idle first p) :
      Meets (studio.Houses options.tempRoot? first) p x fun _ ↦ Idle first :=
    meets_of_idle fun r q hends ↦ hp.rests (hx p r q hends)
  refine (hrests (fun _ _ _ ↦ rests_of_ends_reach) p h).bind fun _ p₁ h₁ ↦ ?_
  refine (hrests (fun _ _ _ ↦ RenderT.rests_of_ends_ofExcept) p₁ h₁).bind fun _ p₂ h₂ ↦ ?_
  refine (hrests (fun _ _ _ ↦ rests_of_ends_reach) p₂ h₂).bind fun _ p₃ h₃ ↦ ?_
  refine (meets_of_idle fun _ _ ↦ idle_canvas _ _ _ h₃).bind fun canvas p₄ h₄ ↦ ?_
  refine (hrests (fun _ _ _ ↦ rests_of_ends_reach) p₄ h₄).bind fun _ p₅ h₅ ↦ ?_
  exact fun r q hends ↦
    ⟨houses_inFreshDir h₅ (settles_renderPlanned _ _ _ _ _) hends, fun _ _ ↦ trivial⟩

/-- Whatever the ids of the clips are, and however a render ends, the files that it writes are kept
apart in one directory, and if it writes any, this is the directory that was made for it. -/
theorem keepsApart_of_ends_render {project : Project α} {media : Manifest} {destination : Path}
    {settings : OutputSettings α} {options : RenderOptions} {p q : Situation α σ}
    {r : Except Failure (RenderReport α)}
    (h : (studio.render project media destination settings options).Ends p r q) :
    ∃ log dir, (studio.logged.render project media destination settings options).Ends
        ⟨p.journal, p.world, []⟩ r ⟨q.journal, q.world, log⟩ ∧
      (Exchange.allWritten log ≠ [] →
        ∃ w, ((studio.workspace.openDir options.tempRoot?).run w).1 = .ok dir) ∧
      KeepsApart dir p.journal.freshCount q.journal.freshCount log := by
  obtain ⟨log, hlogged⟩ := studio.ends_logged_render h
  obtain ⟨dir, haccounts, hdir⟩ := (houses_render ⟨rfl, rfl⟩ r _ hlogged).1
  rw [Situation.Accounts, List.append_nil] at haccounts
  exact ⟨log, dir, hlogged, hdir, haccounts.keepsApart⟩

end Renders

end Studio

/-! ### Hostile ids -/

namespace Sample

/-- Clips of every kind that writes a file, with ids that are empty, lead elsewhere, become the same
label, or have no letter. -/
def hostile : Project Exact where
  tracks := [⟨none, [
    video "" 0.0 2.0 none (blend "wipe left" 0.5),
    video "../a" 2.0 2.0 none {}, video "../b" 4.0 1.0 none {},
    ⟨"/a.b", 0.0, 1.0, 1, none, .shape ⟨some "frame", none, none, false, look {}⟩⟩,
    text "/a b" 0.0 1.0, sound "é∀" 0.0 5.0]⟩]
  outputSettings? := none

/-- The sample with hostile ids is rendered, by evaluation. Two numbers are missing from the
outputs: those of the list and of the drawing. -/
theorem exists_ends_hostile : ∃ report q,
    (studio.render hostile media ⟨"out.mp4"⟩ {} {}).Ends ⟨{}, ()⟩ (.ok report) q ∧
    q.journal.jobs.map (fun job ↦ job.output.text) = [
      "work/000_segment_clip.mp4", "work/001_segment____a.mp4", "work/002_segment____b.mp4",
      "work/003_xfade_wipeleft.mp4", "work/004_xfade_fade.mp4", "work/006_concat.mp4",
      "work/008_overlay__a_b.mp4", "work/009_text__a_b.mp4", "work/010_audio___.m4a",
      "work/011_mix___.mp4"] ∧
    q.journal.freshCount = 12 := by
  have hcanvas : ((studio.canvas hostile media {}).run ()).1 = .ok canvas := by cbv
  have hcheck : hostile.check {} = .ok () := by
    rw [Project.check, if_neg (by decide +kernel), if_pos (by decide +kernel)]
  have houtcome : (studio.render hostile media ⟨"out.mp4"⟩ {} {}).outcome ⟨{}, ()⟩ = _ :=
    Studio.outcome_render hcheck hcanvas
  -- sorting does not reduce, so it is replaced by its result on clips that are in order
  rw [Composition.ofProject, Layers.ofClips_of_sorted (by decide +kernel) (by decide +kernel)
    (by decide +kernel)] at houtcome
  refine RenderT.exists_ends_and ?_ ?_
  · rw [houtcome]
    decide +kernel
  · rw [houtcome]
    decide +kernel

end Sample

/-- The twelve files of a render with such ids are kept apart: the ten of its jobs, the list of the
files that are put one after another, and the drawing. -/
theorem Studio.keepsApart_hostile : ∃ report q,
    (Sample.studio.render Sample.hostile Sample.media ⟨"out.mp4"⟩ {} {}).Ends ⟨{}, ()⟩ (.ok report)
      q ∧
    ∃ log dir, (Sample.studio.logged.render Sample.hostile Sample.media ⟨"out.mp4"⟩ {} {}).Ends
        ⟨{}, (), []⟩ (.ok report) ⟨q.journal, q.world, log⟩ ∧
      (Exchange.allWritten log ≠ [] →
        ∃ w, ((Sample.studio (α := Exact)).workspace.openDir none |>.run w).1 = .ok dir) ∧
      KeepsApart dir 0 12 log := by
  obtain ⟨report, q, h, -, hcount⟩ := Sample.exists_ends_hostile
  refine ⟨report, q, h, ?_⟩
  rw [← hcount]
  exact keepsApart_of_ends_render h

end Splice
