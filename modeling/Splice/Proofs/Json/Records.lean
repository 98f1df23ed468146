import Mathlib.Data.List.Nodup
import Splice.Proofs.Json.Documents

/-!
# Records are read back

A record is written as an object whose absent fields are left out (`present`). Read as a record, the
object shows each field as it was written (`Record.exists_shows`), so a field of any kind has the
value that it had (`Record.Shows.required?`, `Record.Shows.withDefault?`, `Record.Shows.optional?`).

`Returns` says all that is asked of a value inside of a document: it is read back, and its document
can be written, is readable, and does not nest too deeply (`Fit`).
-/

namespace Splice.Json

variable {α β : Type} [Scalar α] {limit : Nat} {value : Json}

/-! ### Items and members -/

theorem depthOfItems_le_iff {items : List Json} :
    depthOfItems items ≤ limit ↔ ∀ item ∈ items, item.depth ≤ limit := by
  induction items with
  | nil => simp [depthOfItems]
  | cons item rest ih => rw [depthOfItems, Nat.max_le, ih, List.forall_mem_cons]

theorem areReadableItems_iff {items : List Json} :
    areReadableItems α items = true ↔ ∀ item ∈ items, item.isReadable α = true := by
  induction items with
  | nil => simp [areReadableItems]
  | cons item rest ih => rw [areReadableItems, Bool.and_eq_true_iff, ih, List.forall_mem_cons]

theorem depthOfMembers_eq (members : List (String × Json)) :
    depthOfMembers members = depthOfItems (members.map Prod.snd) := by
  induction members with
  | nil => rfl
  | cons member rest ih => rw [depthOfMembers, ih, List.map_cons, depthOfItems]

theorem areReadableMembers_eq (members : List (String × Json)) :
    areReadableMembers α members = areReadableItems α (members.map Prod.snd) := by
  induction members with
  | nil => rfl
  | cons member rest ih => rw [areReadableMembers, ih, List.map_cons, areReadableItems]

theorem allWellFormed_iff {items : List Json} :
    AllWellFormed items ↔ ∀ item ∈ items, item.WellFormed := by
  induction items with
  | nil => simp [AllWellFormed]
  | cons item rest ih => rw [AllWellFormed, ih, List.forall_mem_cons]

theorem membersWellFormed_iff {members : List (String × Json)} :
    MembersWellFormed members ↔ AllWellFormed (members.map Prod.snd) := by
  induction members with
  | nil => rfl
  | cons member rest ih => rw [MembersWellFormed, ih, List.map_cons, AllWellFormed]

/-! ### Fit documents -/

/-- A document that can be written and read by any reader that stops at a depth. -/
structure Fit (α : Type) [Scalar α] (limit : Nat) (value : Json) : Prop where
  wellFormed : value.WellFormed
  readable : value.isReadable α = true
  depth_le : value.depth ≤ limit

namespace Fit

/-- A document that is fit for one depth is fit for any greater one. -/
theorem mono {limit' : Nat} (h : Fit α limit value) (hlimit : limit ≤ limit') :
    Fit α limit' value :=
  ⟨h.wellFormed, h.readable, Nat.le_trans h.depth_le hlimit⟩

/-- An array is one deeper than its items. -/
theorem array {items : List Json} (h : ∀ item ∈ items, Fit α limit item) :
    Fit α (limit + 1) (.array items) where
  wellFormed := allWellFormed_iff.2 fun item hitem ↦ (h item hitem).wellFormed
  readable := areReadableItems_iff.2 fun item hitem ↦ (h item hitem).readable
  depth_le := Nat.succ_le_succ (depthOfItems_le_iff.2 fun item hitem ↦ (h item hitem).depth_le)

/-- Only the values of an object count. -/
theorem object {members : List (String × Json)} (h : ∀ member ∈ members, Fit α limit member.2) :
    Fit α (limit + 1) (.object members) := by
  have hvalues : Fit α (limit + 1) (.array (members.map Prod.snd)) :=
    .array (List.forall_mem_map.2 h)
  refine ⟨membersWellFormed_iff.2 hvalues.wellFormed,
    (areReadableMembers_eq members).trans hvalues.readable, ?_⟩
  rw [depth, depthOfMembers_eq]
  exact hvalues.depth_le

end Fit

/-! ### Values that are read back -/

/-- A scalar that is read back from the number that it is written as. -/
def ReadsBack (x : α) : Prop := scalar? (ofScalar x) = some x

/-- A value that is read back from its document, which is fit to stand in another one. -/
structure Returns (α : Type) [Scalar α] (read : Json → Option β) (encode : β → Json) (limit : Nat)
    (x : β) : Prop where
  read_encode : read (encode x) = some x
  fit : Fit α limit (encode x)

theorem returns_string (s : String) : Returns α string? .string limit s :=
  ⟨rfl, trivial, rfl, Nat.zero_le _⟩

theorem returns_bool (b : Bool) : Returns α bool? .bool limit b :=
  ⟨rfl, trivial, rfl, Nat.zero_le _⟩

/-- A scalar that is read back from its number returns. -/
theorem returns_scalar {x : α} (h : ReadsBack x) : Returns α scalar? ofScalar limit x := by
  refine ⟨h, ?_⟩
  rw [ReadsBack, ofScalar] at h
  rw [ofScalar]
  cases hx : Literal.ofScalar? x with
  | none => exact ⟨trivial, rfl, Nat.zero_le _⟩
  | some literal =>
    rw [hx] at h
    obtain ⟨number, hnumber, -⟩ := Option.map_eq_some_iff.1 h
    refine ⟨Literal.wellFormed_of_ofScalar? hx, ?_, Nat.zero_le _⟩
    rw [isReadable, hnumber]
    rfl

/-- An integer that fits a word is fit to stand in a document. -/
theorem fit_ofInt {n : Int} (h : n.natAbs ≤ Word.half64) : Fit α limit (ofInt n) := by
  refine ⟨Literal.wellFormed_ofInt n, ?_, Nat.zero_le _⟩
  rw [ofInt, isReadable, number?_ofInt h]
  rfl

theorem returns_int32 {n : Int} (h : -(Word.half32 : Int) ≤ n ∧ n ≤ Word.half32 - 1) :
    Returns α (int32? α) ofInt limit n := by
  refine ⟨int32?_ofInt h, fit_ofInt ?_⟩
  rw [Word.half32] at h
  rw [Word.half64]
  omega

theorem returns_nat32 {n : Nat} (h : n < Word.count32) : Returns α (nat32? α) ofNat limit n := by
  refine ⟨nat32?_ofNat h, fit_ofInt ?_⟩
  rw [Word.count32] at h
  rw [Word.half64]
  omega

/-- A value that may be absent is fit if it is so where it is there. -/
theorem fit_of_mem_map {read : Json → Option β} {encode : β → Json} {value? : Option β}
    (h : ∀ x ∈ value?, Returns α read encode limit x) :
    ∀ value ∈ value?.map encode, Fit α limit value := by
  rintro value hvalue
  obtain ⟨x, hx, rfl⟩ := Option.map_eq_some_iff.1 hvalue
  exact (h x hx).fit

/-- A list returns if its items do, one level further in. -/
theorem returns_list {read : Json → Option β} {encode : β → Json} {xs : List β}
    (h : ∀ x ∈ xs, Returns α read encode limit x) :
    Returns α (list? read) (fun xs ↦ .array (xs.map encode)) (limit + 1) xs := by
  refine ⟨?_, .array ?_⟩
  · show (xs.map encode).mapM read = some xs
    induction xs with
    | nil => rfl
    | cons x rest ih =>
      rw [List.forall_mem_cons] at h
      rw [List.map_cons, List.mapM_cons, h.1.read_encode, ih h.2]
      rfl
  · simpa using fun x hx ↦ (h x hx).fit

/-! ### Fields -/

/-- Among entries of different names, each one is found under its name. -/
theorem lookup_eq_some_iff_mem {γ : Type} {entries : List (String × γ)}
    (hnodup : (entries.map Prod.fst).Nodup) {name : String} {x : γ} :
    entries.lookup name = some x ↔ (name, x) ∈ entries := by
  rw [List.lookup_eq_some_iff]
  constructor
  · rintro ⟨before, after, rfl, -⟩
    exact List.mem_append_right _ List.mem_cons_self
  · intro hmem
    obtain ⟨before, after, rfl⟩ := List.append_of_mem hmem
    rw [List.map_append, List.map_cons, List.nodup_middle, List.nodup_cons] at hnodup
    refine ⟨before, after, rfl, fun other hother ↦ bne_iff_ne.2 fun heq ↦ hnodup.1 ?_⟩
    exact List.mem_append_left _ (List.mem_map.2 ⟨other, hother, heq.symm⟩)

/-- The members of a record: the fields that are present. -/
def present (fields : List (String × Option Json)) : List (String × Json) :=
  fields.filterMap fun (name, value?) ↦ value?.map fun value ↦ (name, value)

section Present

variable {fields : List (String × Option Json)} {name : String}

theorem present_append (a b : List (String × Option Json)) :
    present (a ++ b) = present a ++ present b :=
  List.filterMap_append

theorem present_cons_some (name : String) (value : Json) (fields : List (String × Option Json)) :
    present ((name, some value) :: fields) = [(name, value)] ++ present fields :=
  rfl

/-- A field that may be absent is a member or none. -/
theorem present_cons_map (name : String) (encode : β → Json) (value? : Option β)
    (fields : List (String × Option Json)) :
    present ((name, value?.map encode) :: fields) =
      member? name encode value? ++ present fields := by
  cases value? <;> rfl

theorem present_nil : present [] = [] := rfl

/-- The members are the fields that are there. -/
theorem mem_present {value : Json} :
    (name, value) ∈ present fields ↔ (name, some value) ∈ fields := by
  simp only [present, List.mem_filterMap, Option.map_eq_some_iff, Prod.exists]
  constructor
  · rintro ⟨name', value?, hmem, value', rfl, heq⟩
    obtain ⟨rfl, rfl⟩ := Prod.mk.inj heq
    exact hmem
  · exact fun h ↦ ⟨_, _, h, _, rfl, rfl⟩

/-- Fields can be chosen by name before or after the absent ones are left out. -/
theorem filter_present (fields : List (String × Option Json)) (p : String → Bool) :
    (present fields).filter (fun member ↦ p member.1) =
      present (fields.filter fun field ↦ p field.1) := by
  induction fields with
  | nil => rfl
  | cons field rest ih =>
    obtain ⟨name, value?⟩ := field
    cases value? with
    | none => cases hp : p name <;> simp [present, hp] at ih ⊢ <;> exact ih
    | some value => cases hp : p name <;> simp [present, hp] at ih ⊢ <;> exact ih

/-- Leaving out absent fields keeps the order of the names. -/
theorem sublist_present : ((present fields).map Prod.fst).Sublist (fields.map Prod.fst) := by
  induction fields with
  | nil => exact .refl _
  | cons field rest ih =>
    obtain ⟨name, - | value⟩ := field
    · exact .cons _ ih
    · exact .cons_cons _ ih

/-- Among fields of different names, each one is found under its name. -/
theorem lookup_present (hnodup : (fields.map Prod.fst).Nodup) {value? : Option Json}
    (h : (name, value?) ∈ fields) : (present fields).lookup name = value? := by
  cases value? with
  | none =>
    rw [List.lookup_eq_none_iff]
    rintro ⟨name', value⟩ hmem
    rw [mem_present] at hmem
    rw [bne_iff_ne]
    rintro rfl
    cases List.inj_on_of_nodup_map hnodup h hmem rfl
  | some value =>
    exact (lookup_eq_some_iff_mem (hnodup.sublist sublist_present)).2 (mem_present.2 h)

end Present

/-! ### Records -/

namespace Record

/-- A record in which some fields of given names are to be found. -/
def Shows (r : Record) (names : List String) (fields : List (String × Option Json)) : Prop :=
  ∀ name ∈ names, ∀ value?, (name, value?) ∈ fields → r.get? name = value?

variable {names : List String} {fields : List (String × Option Json)}

/-- The members of a record that is written are read as that record. -/
theorem exists_shows (names : List String) (hnodup : (fields.map Prod.fst).Nodup) :
    ∃ r, ofMembers? names (present fields) = some r ∧ r.Shows names fields := by
  have hkept := filter_present fields names.contains
  have hsublist : ((fields.filter fun field ↦ names.contains field.1).map Prod.fst).Nodup :=
    hnodup.sublist (List.filter_sublist.map _)
  refine ⟨⟨false, present (fields.filter fun field ↦ names.contains field.1)⟩, ?_, ?_⟩
  · rw [ofMembers?, hkept]
    exact if_pos (hsublist.sublist sublist_present)
  · intro name hname value? hmem
    exact lookup_present hsublist (List.mem_filter.2 ⟨hmem, List.contains_iff_mem.2 hname⟩)

namespace Shows

variable {r : Record} {read : Json → Option β} {encode : β → Json}

theorem required? {x : β} (name : String) (h : r.Shows names fields)
    (hx : Returns α read encode limit x) (hname : name ∈ names)
    (hfield : (name, some (encode x)) ∈ fields) : r.required? name read = some x := by
  rw [Record.required?, h name hname _ hfield]
  exact hx.read_encode

/-- A field with a default has its own value where it is written. -/
theorem withDefault? {x : β} (name : String) (fallback : β) (h : r.Shows names fields)
    (hx : Returns α read encode limit x) (hname : name ∈ names)
    (hfield : (name, some (encode x)) ∈ fields) :
    r.withDefault? name fallback read = some x := by
  rw [Record.withDefault?, h name hname _ hfield]
  exact hx.read_encode

/-- A field that is left out is one that is absent, and one that is written is not `null`. -/
theorem optional? {value? : Option β} (name : String) (h : r.Shows names fields)
    (hvalue : ∀ x ∈ value?, Returns α read encode limit x) (hnull : read .null = none)
    (hname : name ∈ names) (hfield : (name, value?.map encode) ∈ fields) :
    r.optional? name read = some value? := by
  rw [Record.optional?, Record.withDefault?, h name hname _ hfield]
  cases value? with
  | none => rfl
  | some x =>
    have hread := (hvalue x rfl).read_encode
    show Json.nullable? read (encode x) = some (some x)
    rw [Json.nullable?.eq_def]
    split
    · rename_i hencode
      rw [hencode, hnull] at hread
      cases hread
    · rw [hread]
      rfl

end Shows

/-- A record is read back if it is read back from its fields. -/
theorem returns {decode : Json → Option β} {encode : β → Json} {read : Record → Option β} {x : β}
    (names : List String) (fields : List (String × Option Json))
    (hnodup : (fields.map Prod.fst).Nodup) (hencode : encode x = .object (present fields))
    (hfit : ∀ field ∈ fields, ∀ value ∈ field.2, Fit α limit value)
    (hread : ∀ r : Record, r.Shows names fields → read r = some x)
    (hdecode : ∀ value, decode value = (of? names value).bind read) :
    Returns α decode encode (limit + 1) x := by
  obtain ⟨r, hr, hshows⟩ := exists_shows names hnodup
  refine ⟨?_, hencode ▸ .object fun member hmember ↦ ?_⟩
  · rw [hdecode, hencode, of?, hr]
    exact hread r hshows
  · exact hfit _ (mem_present.1 hmember) _ rfl

/-- A record of scalars, none of which may be left out, is read back. -/
theorem returns_scalars {decode : Json → Option β} {encode : β → Json} {read : Record → Option β}
    {x : β} (scalars : List (String × α)) (hnodup : (scalars.map Prod.fst).Nodup)
    (h : ∀ field ∈ scalars, ReadsBack field.2)
    (hencode : encode x = .object (scalars.map fun field ↦ (field.1, ofScalar field.2)))
    (hread : ∀ r : Record, (∀ field ∈ scalars, ∀ fallback,
      r.withDefault? field.1 fallback scalar? = some field.2) → read r = some x)
    (hdecode : ∀ value, decode value = (of? (scalars.map Prod.fst) value).bind read) :
    Returns α decode encode 1 x := by
  have hreturns : ∀ field ∈ scalars, Returns α scalar? ofScalar 0 field.2 :=
    fun field hfield ↦ returns_scalar (h field hfield)
  refine returns (scalars.map Prod.fst)
    (scalars.map fun field ↦ (field.1, some (ofScalar field.2))) ?_ ?_ ?_ (fun r hr ↦ ?_) hdecode
  · rwa [List.map_map]
  · rw [hencode, present, List.filterMap_map]
    exact congrArg _ (congrFun List.filterMap_eq_map'.symm scalars)
  · rintro field hfield value hvalue
    obtain ⟨scalar, hscalar, rfl⟩ := List.mem_map.1 hfield
    exact Option.mem_some_iff.1 hvalue ▸ (hreturns scalar hscalar).fit
  · exact hread r fun field hfield fallback ↦ hr.withDefault? field.1 fallback
      (hreturns field hfield) (List.mem_map_of_mem hfield) (List.mem_map_of_mem hfield)

end Record

/-! ### Fields among others -/

/-- A value whose fields stand among others, and which is read back from all of them. -/
structure ReturnsAmong (α : Type) [Scalar α] (read : List (String × Json) → Option β)
    (fields : β → List (String × Option Json)) (limit : Nat) (x : β) : Prop where
  read_present : ∀ all, (all.map Prod.fst).Nodup → fields x ⊆ all → read (present all) = some x
  fit : ∀ field ∈ fields x, ∀ value ∈ field.2, Fit α limit value

/-- A value is read back from its fields among others if it is so from the record that they show. -/
theorem returnsAmong {read : List (String × Json) → Option β}
    {fields : β → List (String × Option Json)} {x : β} (names : List String)
    (readWith : List (String × Json) → Record → Option β)
    (hfit : ∀ field ∈ fields x, ∀ value ∈ field.2, Fit α limit value)
    (hread : ∀ (all : List (String × Option Json)) (r : Record), (all.map Prod.fst).Nodup →
      fields x ⊆ all → r.Shows names all → readWith (present all) r = some x)
    (hdecode : ∀ members, read members =
      (Record.ofMembers? names members).bind (readWith members)) :
    ReturnsAmong α read fields limit x := by
  refine ⟨fun all hnodup hsub ↦ ?_, hfit⟩
  obtain ⟨r, hr, hshows⟩ := Record.exists_shows names hnodup
  rw [hdecode, hr]
  exact hread all r hnodup hsub hshows

end Splice.Json
