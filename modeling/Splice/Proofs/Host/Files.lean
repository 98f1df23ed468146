import Mathlib.Data.List.Basic
import Mathlib.Tactic.SplitIfs
import Splice.Host.Memory

/-!
# Files in memory

A file that has been written is read with its text (`FileTree.read_write`). A path that is no
directory is split at its last slash to be written, and walked as a whole to be read; both ways end
at one place (`FileTree.locate_of_fileSlot`). On the way there are directories only, which the new
file leaves as they are (`FileTree.walk_put`).

`Host.KeepsTexts` says as much of a host of any kind, and machines in memory are such hosts.
-/

namespace Splice

/-! ### Pieces of paths -/

namespace Path

/-- Even the empty text is one piece. -/
theorem pieces_ne_nil (text : List Char) : pieces text ≠ [] := by
  cases text with
  | nil => exact List.cons_ne_nil _ _
  | cons c rest =>
    rw [pieces]
    split_ifs
    · exact List.cons_ne_nil _ _
    · split <;> exact List.cons_ne_nil _ _

/-- A path that does not end in a slash has a last name. -/
theorem getLast?_pieces_ne {text : List Char} (hne : text ≠ []) (h : text.getLast? ≠ some '/') :
    (pieces text).getLast? ≠ some [] := by
  induction text with
  | nil => exact absurd rfl hne
  | cons c rest ih =>
    cases rest with
    | nil =>
      have hc : c ≠ '/' := fun hc ↦ h (congrArg some hc)
      simp [pieces, hc]
    | cons d rest =>
      rw [List.getLast?_cons_cons] at h
      have hlast := ih (List.cons_ne_nil _ _) h
      have hne := pieces_ne_nil (d :: rest)
      rw [pieces]
      generalize pieces (d :: rest) = names at hlast hne
      cases names with
      | nil => exact absurd rfl hne
      | cons name more =>
        cases more with
        | nil => split_ifs <;> simp_all
        | cons name' more => split_ifs <;> simpa using hlast

end Path

namespace FileTree

variable {tree : FileTree} {current place start target : Place} {p : Path} {text : String}

/-! ### What stands at a place -/

/-- What was put at a place stands there. -/
theorem get?_put_self {node : FileNode} (h : place ≠ []) :
    (tree.put place node).get? place = some node := by
  have hnone : (tree.erase place).nodes.lookup place = none := by
    rw [erase, List.lookup_eq_none_iff]
    intro entry hentry
    rw [bne_comm]
    exact (List.mem_filter.1 hentry).2
  rw [get?, if_neg (by simpa using h), put, List.lookup_append, hnone]
  simp

/-- Every other place is as it was. -/
theorem get?_put_of_ne {node : FileNode} {other : Place} (h : other ≠ place) :
    (tree.put place node).get? other = tree.get? other := by
  have hrest : ∀ nodes : List (Place × FileNode),
      (nodes.filter (·.1 != place)).lookup other = nodes.lookup other := by
    intro nodes
    induction nodes with
    | nil => rfl
    | cons entry nodes ih =>
      by_cases hentry : entry.1 = place
      · rw [List.filter_cons_of_neg (by simp [hentry]), ih, List.lookup_cons]
        rw [hentry, beq_eq_false_iff_ne.2 h]
      · rw [List.filter_cons_of_pos (by simpa using hentry), List.lookup_cons, List.lookup_cons, ih]
  rw [get?, get?, put, erase, List.lookup_append, hrest]
  simp [List.lookup_cons, beq_eq_false_iff_ne.2 h]

/-! ### Walking -/

/-- A step is taken in a directory. -/
theorem get?_of_step {name : String} (h : tree.step start name = .ok target) :
    tree.get? start = some .directory := by
  rw [step] at h
  split at h
  · cases h
  · cases h
  · assumption

/-- A step does not go through the place of a file, so it is the same with a new file there. -/
theorem step_put {name : String} {node : FileNode} (hplace : tree.get? place ≠ some .directory)
    (h : tree.step start name = .ok target) :
    (tree.put place node).step start name = .ok target := by
  have hstart := get?_of_step h
  have hne : start ≠ place := fun heq ↦ hplace (heq ▸ hstart)
  rw [step, hstart] at h
  rw [step, get?_put_of_ne hne, hstart]
  exact h

/-- A new file is in no one's way, unless there was a directory. -/
theorem walk_put {names : List String} {node : FileNode}
    (hplace : tree.get? place ≠ some .directory) (h : tree.walk start names = .ok target) :
    (tree.put place node).walk start names = .ok target := by
  induction names generalizing start with
  | nil => exact h
  | cons name rest ih =>
    rw [walk, List.foldlM_cons] at h ⊢
    cases hstep : tree.step start name with
    | error e =>
      rw [hstep] at h
      cases h
    | ok next =>
      rw [hstep] at h
      rw [step_put hplace hstep]
      exact ih h

/-- A path that names a place names it still with a new file somewhere. -/
theorem locate_put {node : FileNode} (hplace : tree.get? place ≠ some .directory)
    (h : tree.locate current p = .ok target) :
    (tree.put place node).locate current p = .ok target := by
  rw [locate] at h ⊢
  cases hvet : vet p with
  | error e =>
    rw [hvet] at h
    cases h
  | ok u =>
    rw [hvet] at h
    exact walk_put hplace h

/-! ### Reading what was written -/

theorem ne_nil_of_vet {u : Unit} (h : vet p = .ok u) : p.text.toList ≠ [] := by
  rw [vet] at h
  split_ifs at h with hnul hempty
  simpa using hempty

/-- A path that does not end in a slash is split before its last name. -/
theorem pieces_of_slot {around : Place} {name : String} (hslash : p.endsInSlash = false)
    (h : tree.slot current p = .ok (around, name)) :
    vet p = .ok () ∧ ∃ names, (Path.pieces p.text.toList).map String.ofList = names ++ [name] ∧
      tree.walk (startOf current p) names = .ok around := by
  rw [slot] at h
  rcases hvet : vet p with e | u
  · rw [hvet] at h
    cases h
  have hlast := Path.getLast?_pieces_ne (ne_nil_of_vet hvet)
    (by simpa [Path.endsInSlash] using hslash)
  obtain ⟨last, hsome⟩ := Option.ne_none_iff_exists'.1
    (mt List.getLast?_eq_none_iff.1 (Path.pieces_ne_nil p.text.toList))
  obtain ⟨front, hpieces⟩ := List.getLast?_eq_some_iff.1 hsome
  rw [hsome] at hlast
  -- the last piece is a name, so none is dropped from the end
  have hkeep : (String.ofList last == "") = false := by
    rw [beq_eq_false_iff_ne, Ne, String.ofList_eq_empty_iff]
    exact fun hnil ↦ hlast (congrArg some hnil)
  have hnames : (((Path.pieces p.text.toList).map String.ofList).reverse.dropWhile (· == "")) =
      String.ofList last :: (front.map String.ofList).reverse := by
    rw [hpieces, List.map_append, List.reverse_append]
    exact List.dropWhile_cons_of_neg (by simp [hkeep])
  simp only [hvet, hnames, bind, Except.bind, List.tail_cons, List.reverse_reverse,
    List.headD_cons] at h
  rcases hwalk : tree.walk (startOf current p) (front.map String.ofList) with e | target
  · rw [hwalk] at h
    cases h
  · rw [hwalk] at h
    dsimp only at h
    split at h
    · cases h
    · obtain ⟨rfl, rfl⟩ := Prod.mk.inj (Except.ok.inj h)
      refine ⟨rfl, front.map String.ofList, ?_, hwalk⟩
      rw [hpieces, List.map_append]
      rfl

/-- The place at which a file is made is the one that its path names. -/
theorem locate_of_fileSlot (h : tree.fileSlot current p = .ok place) :
    tree.locate current p = .ok place ∧ tree.get? place ≠ some .directory := by
  rw [fileSlot] at h
  rcases hslot : tree.slot current p with e | ⟨around, name⟩
  · rw [hslot] at h
    cases h
  rw [hslot] at h
  rcases hstep : tree.step around name with e | target
  · simp only [bind, Except.bind, hstep] at h
    cases h
  simp only [bind, Except.bind, hstep] at h
  split_ifs at h with hdirectory
  obtain rfl := Except.ok.inj h
  rw [Bool.or_eq_true, not_or, Bool.not_eq_true, beq_iff_eq] at hdirectory
  obtain ⟨hvet, names, hnames, hwalk⟩ := pieces_of_slot hdirectory.1 hslot
  refine ⟨?_, hdirectory.2⟩
  rw [locate, hvet, hnames]
  show (names ++ [name]).foldlM tree.step _ = _
  rw [List.foldlM_append]
  rw [walk] at hwalk
  rw [hwalk]
  show [name].foldlM tree.step around = _
  rw [List.foldlM_cons, hstep]
  rfl

/-- A file that has been written is read with its text. -/
theorem read_write {written : FileTree} (h : tree.write current p text = .ok written) :
    written.read current p = .ok text := by
  rw [write] at h
  cases hslot : tree.fileSlot current p with
  | error e =>
    rw [hslot] at h
    cases h
  | ok place =>
    rw [hslot] at h
    obtain rfl := Except.ok.inj h
    obtain ⟨hlocate, hplace⟩ := locate_of_fileSlot hslot
    -- the root is a directory
    have hne : place ≠ [] := by
      rintro rfl
      exact hplace rfl
    have hstat : (tree.put place (.file text)).stat current p = .ok (.file text) := by
      rw [stat, locate_put hplace hlocate]
      dsimp only [bind, Except.bind]
      rw [get?_put_self hne]
    rw [read, hstat]
    rfl

end FileTree

/-! ### Hosts -/

/-- A host on which a text that has been written to a file is read from that file. -/
def Host.KeepsTexts {σ : Type} (host : Host (StateM σ)) : Prop :=
  ∀ path text (s s' : σ), host.writeText path text s = (.ok (), s') →
    (host.readText path s').1 = .ok text

/-- A machine in memory keeps texts. -/
theorem Machine.keepsTexts_host : host.KeepsTexts := by
  intro path text machine machine' h
  replace h : update (fun files current ↦ files.write current path text) machine =
    (.ok (), machine') := h
  rw [update] at h
  split at h
  · rename_i files hwrite
    obtain rfl := (Prod.mk.inj h).2
    exact FileTree.read_write hwrite
  · cases (Prod.mk.inj h).1

end Splice
