import Splice.Proofs.Json.Records
import Splice.Timeline.Decode

/-!
# Edits of documents

Two ways to change the document of a project that are not to change the project: the members of an
object may change places, and an object may take on a member of a name that is not read from it
(`Edit`). Which names are read depends on what the object is read as (`Schema`), and in a clip on
its kind, which is given by a member as well, wherever this one stands.

Outside of clips a new member may have any value, since it is skipped. What a clip does not read
itself is kept for its kind and its placement, so there the value has to be readable and must not
nest too deeply. The objects that a clip declares are so close to it that a hundred levels are
always left: this is the bound on `Schema.height` in `Edit.passes_iff`, which says that an edit
takes a part of a clip neither into what can be read nor out of it.

An edit of an object can be followed into the members of certain names (`Edit.filter`), and from
there into the record that is read from them: both records have the same fields, whose values differ
by an edit at most (`Record.Alike`, `Edit.alike_ofMembers?`).
-/

namespace Splice

open Json (Record)

variable {α : Type} [Scalar α]

/-! ### Schemas -/

/-- What is read from a value: a number, a text or a truth value; nothing; a list of like values; a
record of named fields; or a clip. -/
inductive Schema where
  | leaf
  | free
  | list (item : Schema)
  | record (fields : List (String × Schema))
  | clip

namespace Schema

/-- Fields that hold a number, a text or a truth value each. -/
def leaves (names : List String) : List (String × Schema) := names.map fun name ↦ (name, leaf)

/-- What is read from a position, also from that of a keyframe. -/
def position : Schema := record (leaves ["x", "y"])

/-- What is read from a size. -/
def size : Schema := record (leaves ["width", "height"])

/-- What is read from a crop box. -/
def crop : Schema := record (leaves ["x", "y", "width", "height"])

/-- What is read from effects. -/
def effects : Schema :=
  record (leaves ["opacity", "brightness", "contrast", "saturation", "gamma", "hue", "blur",
    "volume", "fadeIn", "fadeOut", "audioFadeIn", "audioFadeOut", "speed", "transition",
    "transitionDuration", "transitionWith", "blendMode"])

/-- What is read from a keyframe. -/
def keyframe : Schema :=
  record [("time", leaf), ("absolute", leaf), ("position", position), ("opacity", leaf)]

/-- What is read from the style of a text. -/
def textStyle : Schema := record (leaves ["color"])

/-- What is read from the style of a shape. -/
def shapeStyle : Schema := record (leaves ["shapeType", "color", "outline"])

/-- The fields of a placement. -/
def look : List (String × Schema) :=
  [("position", position), ("size", size), ("rotation", leaf), ("fitMode", leaf), ("crop", crop),
    ("effects", effects), ("keyframes", list keyframe)]

/-- The fields of a kind of clips that are not those of the placement. -/
def kindFields : ClipType → List (String × Schema)
  | .video => leaves ["sourceId", "trimStart", "trimEnd"]
  | .image => leaves ["sourceId", "trimStart", "trimEnd"]
  | .text => [("text", leaf), ("label", leaf), ("style", textStyle)]
  | .shape => [("label", leaf), ("style", shapeStyle)]
  | .audio => [("sourceId", leaf), ("trimStart", leaf), ("effects", effects)]

/-- The fields of the placement, which a sound does not have. -/
def lookFields : ClipType → List (String × Schema)
  | .audio => []
  | _ => look

/-- All fields that a clip of a kind has. -/
def clipFields (kind : ClipType) : List (String × Schema) :=
  leaves Clip.ownNames ++ ("type", leaf) :: (kindFields kind ++ lookFields kind)

/-- What is read from a requested output format. -/
def outputSettings : Schema := record (leaves ["width", "height", "fps", "bitrate", "preset"])

/-- What is read from a track. -/
def track : Schema := record [("id", leaf), ("clips", list clip)]

/-- What is read from a project. -/
def project : Schema := record [("tracks", list track), ("outputSettings", outputSettings)]

/-! ### Parts -/

/-- Whether an object with members is read by a schema. -/
def HasMembers : Schema → Prop
  | free => True
  | record _ => True
  | _ => False

/-- What is read from a member of an object. -/
def member? : Schema → String → Option Schema
  | free, _ => some free
  | record fields, name => some ((fields.lookup name).getD free)
  | _, _ => none

/-- What is read from an item of an array; a record may be an array of its fields. -/
def item? : Schema → ℕ → Option Schema
  | free, _ => some free
  | list item, _ => some item
  | record fields, i => fields[i]?.map Prod.snd
  | _, _ => none

mutual

/-- The number of lists and records in one another. -/
def height : Schema → ℕ
  | list item => item.height + 1
  | record fields => heightOfFields fields + 1
  | _ => 0

/-- The greatest height among fields. -/
def heightOfFields : List (String × Schema) → ℕ
  | [] => 0
  | (_, schema) :: rest => max schema.height (heightOfFields rest)

end

/-- No field is higher than all fields together. -/
theorem height_le_of_mem {fields : List (String × Schema)} {field : String × Schema}
    (h : field ∈ fields) : field.2.height ≤ heightOfFields fields := by
  induction fields with
  | nil => cases h
  | cons first rest ih =>
    rw [heightOfFields]
    rcases List.mem_cons.1 h with rfl | h
    · exact Nat.le_max_left _ _
    · exact Nat.le_trans (ih h) (Nat.le_max_right _ _)

/-- A member is less high than its object. -/
theorem height_member {schema part : Schema} {name : String} (h : schema.member? name = some part) :
    part.height ≤ schema.height - 1 := by
  cases schema with
  | free =>
    obtain rfl := Option.some.inj h
    exact Nat.zero_le _
  | record fields =>
    rw [← Option.some.inj h, height, Nat.add_sub_cancel]
    cases hlookup : fields.lookup name with
    | none => exact Nat.zero_le _
    | some part =>
      obtain ⟨before, after, rfl, -⟩ := List.lookup_eq_some_iff.1 hlookup
      have hmem : (name, part) ∈ before ++ (name, part) :: after :=
        List.mem_append_right _ List.mem_cons_self
      exact height_le_of_mem hmem
  | _ => cases h

/-- And an item is less high than its array. -/
theorem height_item {schema part : Schema} {i : ℕ} (h : schema.item? i = some part) :
    part.height ≤ schema.height - 1 := by
  cases schema with
  | free =>
    obtain rfl := Option.some.inj h
    exact Nat.zero_le _
  | list item =>
    obtain rfl := Option.some.inj h
    exact Nat.le_refl _
  | record fields =>
    obtain ⟨field, hfield, rfl⟩ := Option.map_eq_some_iff.1 h
    rw [height, Nat.add_sub_cancel]
    exact height_le_of_mem (List.mem_of_getElem? hfield)
  | _ => cases h

end Schema

/-! ### Edits -/

/-- Whether a value that stands under so many arrays and objects can be read. -/
def Json.Passes (α : Type) [Scalar α] (level : ℕ) (value : Json) : Prop :=
  value.isReadable α = true ∧ level + value.depth ≤ nestingLimit

/-- The kind that the members of a clip say it is of. -/
def ClipType.ofMembers? (α : Type) [Scalar α] (members : List (String × Json)) : Option ClipType :=
  (Record.ofMembers? ["type"] members).bind fun r ↦ r.required? "type" (ClipType.decode? α)

/-- Whether an object may take on a member: no field of this name is read from it and, in a clip,
the value is readable and nests less than a hundred levels deep. An object from which nothing is
read may stand at any depth of a clip; there the value must not reach beyond the limit. -/
def Schema.Admits (α : Type) [Scalar α] (level? : Option ℕ) : Schema → String → Json → Prop
  | record fields, name, value => name ∉ fields.map Prod.fst ∧
    ∀ level ∈ level?, value.isReadable α = true ∧ value.depth < 100
  | free, _, value => ∀ level ∈ level?, value.Passes α level
  | _, _, _ => False

/-- One edit of a document, or of a part of it. In a clip the level is the number of arrays and
objects around the members or items of the part. -/
inductive Edit (α : Type) [Scalar α] : Option ℕ → Schema → Json → Json → Prop
  /-- The members of an object change places. -/
  | reorder {level? : Option ℕ} {schema : Schema} {members members' : List (String × Json)}
    (hschema : schema.HasMembers) (h : members.Perm members') :
    Edit α level? schema (.object members) (.object members')
  /-- An object takes on a member, at any place. -/
  | insert {level? : Option ℕ} {schema : Schema} (before : List (String × Json))
    {after : List (String × Json)} {name : String} {value : Json}
    (hvalue : schema.Admits α level? name value) :
    Edit α level? schema (.object (before ++ after)) (.object (before ++ (name, value) :: after))
  /-- The value of a member is edited. -/
  | member {level? : Option ℕ} {schema part : Schema} (before : List (String × Json))
    {after : List (String × Json)} {name : String} {v w : Json}
    (hpart : schema.member? name = some part) (h : Edit α (level?.map Nat.succ) part v w) :
    Edit α level? schema (.object (before ++ (name, v) :: after))
      (.object (before ++ (name, w) :: after))
  /-- An item of an array is edited. -/
  | item {level? : Option ℕ} {schema part : Schema} (before : List Json) {after : List Json}
    {v w : Json} (hpart : schema.item? before.length = some part)
    (h : Edit α (level?.map Nat.succ) part v w) :
    Edit α level? schema (.array (before ++ v :: after)) (.array (before ++ w :: after))
  /-- A clip is edited as an object with the fields that its kind has. -/
  | clip {members : List (String × Json)} {kind : ClipType} {w : Json}
    (hkind : ClipType.ofMembers? α members = some kind)
    (h : Edit α (some Project.clipLevel) (.record (Schema.clipFields kind)) (.object members) w) :
    Edit α none .clip (.object members) w

/-- A number, a text or a truth value has no members to edit. -/
theorem Edit.not_leaf {level? : Option ℕ} {v w : Json} : ¬Edit α level? .leaf v w := by
  intro h
  cases h with
  | reorder hschema => exact hschema
  | insert _ hadmits => exact hadmits
  | member _ hpart => cases hpart
  | item _ hpart => cases hpart

/-! ### What fits, fits after an edit -/

namespace Json

/-- An array passes if its items do, one level further in. -/
theorem passes_array_iff {level : ℕ} {items : List Json} : (array items).Passes α level ↔
    level < nestingLimit ∧ ∀ item ∈ items, item.Passes α (level + 1) := by
  have hdepth : level + (array items).depth ≤ nestingLimit ↔
      level < nestingLimit ∧ depthOfItems items ≤ nestingLimit - (level + 1) := by
    rw [depth]
    omega
  rw [Passes, hdepth, depthOfItems_le_iff, isReadable, areReadableItems_iff]
  constructor
  · rintro ⟨hreadable, hlevel, hitems⟩
    refine ⟨hlevel, fun item hitem ↦ ⟨hreadable item hitem, ?_⟩⟩
    have := hitems item hitem
    omega
  · rintro ⟨hlevel, hitems⟩
    refine ⟨fun item hitem ↦ (hitems item hitem).1, hlevel, fun item hitem ↦ ?_⟩
    have := (hitems item hitem).2
    omega

/-- Only the values of an object count. -/
theorem passes_object_iff {level : ℕ} {members : List (String × Json)} :
    (object members).Passes α level ↔
      level < nestingLimit ∧ ∀ member ∈ members, member.2.Passes α (level + 1) := by
  have harray : (object members).Passes α level ↔
      (array (members.map Prod.snd)).Passes α level := by
    rw [Passes, Passes, isReadable, isReadable, areReadableMembers_eq, depth, depth,
      depthOfMembers_eq]
  rw [harray, passes_array_iff, List.forall_mem_map]

/-- The test of the code asks this of every member. -/
theorem all_passes_iff {level : ℕ} {members : List (String × Json)} :
    (members.all fun member ↦
      member.2.isReadable α && level + member.2.depth ≤ nestingLimit) = true ↔
      ∀ member ∈ members, member.2.Passes α level := by
  simp only [List.all_eq_true, Bool.and_eq_true, decide_eq_true_eq, Passes]

end Json

namespace Edit

variable {level? : Option ℕ} {schema : Schema} {v w : Json} {fields own : List (String × Schema)}
  {a b : List (String × Json)}

/-- A member that may be taken on in a clip fits there, since the clip is not too far above. -/
theorem passes_of_admits {level : ℕ} {name : String} {value : Json}
    (h : schema.Admits α (some (level + 1)) name value) (hheight : schema.height ≤ 28 - level) :
    value.Passes α (level + 1) := by
  cases schema with
  | free => exact h _ rfl
  | record fields =>
    obtain ⟨hreadable, hdepth⟩ := h.2 _ rfl
    rw [Schema.height] at hheight
    refine ⟨hreadable, ?_⟩
    rw [nestingLimit]
    omega
  | _ => exact h.elim

/-- An edit takes a part of a clip neither into what can be read there nor out of it. -/
theorem passes_iff (h : Edit α level? schema v w) (level : ℕ) (hlevel : level? = some (level + 1))
    (hheight : schema.height ≤ 28 - level) : v.Passes α level ↔ w.Passes α level := by
  -- one level down the schema is lower too, so the bound is kept
  induction h generalizing level with
  | reorder _ hperm =>
    rw [Json.passes_object_iff, Json.passes_object_iff]
    exact and_congr_right' (forall_congr' fun member ↦ imp_congr_left hperm.mem_iff)
  | insert _ hadmits =>
    have hvalue := passes_of_admits (hlevel ▸ hadmits) hheight
    simp only [Json.passes_object_iff, List.forall_mem_append, List.forall_mem_cons, hvalue,
      true_and]
  | member _ hpart _ ih =>
    have hpart := Schema.height_member hpart
    have hv := ih (level + 1) (by rw [hlevel]; rfl) (by omega)
    simp only [Json.passes_object_iff, List.forall_mem_append, List.forall_mem_cons, hv]
  | item _ hpart _ ih =>
    have hpart := Schema.height_item hpart
    have hv := ih (level + 1) (by rw [hlevel]; rfl) (by omega)
    simp only [Json.passes_array_iff, List.forall_mem_append, List.forall_mem_cons, hv]
  | clip => cases hlevel

/-! ### Edits of records -/

/-- An edit can be followed into the members of certain names. -/
theorem filter (h : Edit α level? (.record fields) (.object a) (.object b))
    (keeps : String → Bool) :
    (a.filter fun member ↦ keeps member.1) = (b.filter fun member ↦ keeps member.1) ∨
      Edit α level? (.record fields) (.object (a.filter fun member ↦ keeps member.1))
        (.object (b.filter fun member ↦ keeps member.1)) := by
  cases h with
  | reorder hschema hperm => exact .inr (.reorder hschema (hperm.filter _))
  | @insert _ _ before after name value hadmits =>
    rw [List.filter_append, List.filter_append, List.filter_cons]
    split_ifs
    · exact .inr (.insert _ hadmits)
    · exact .inl rfl
  | @member _ _ _ before after name v w hpart hvalue =>
    rw [List.filter_append, List.filter_append, List.filter_cons, List.filter_cons]
    split_ifs
    · exact .inr (.member _ hpart hvalue)
    · exact .inl rfl

end Edit

/-- Whether the fields of a record stand among others, which may be those of further records. -/
def Schema.Declares (fields own : List (String × Schema)) : Prop :=
  ∀ name ∈ own.map Prod.fst, fields.lookup name = own.lookup name

/-- A field of the record is declared there and among the others. -/
theorem Schema.Declares.exists_lookup {fields own : List (String × Schema)}
    (h : Declares fields own) {name : String} (hname : name ∈ own.map Prod.fst) :
    ∃ schema, fields.lookup name = some schema ∧ own.lookup name = some schema := by
  rw [h name hname]
  cases hlookup : own.lookup name with
  | some schema => exact ⟨schema, rfl, rfl⟩
  | none =>
    obtain ⟨field, hfield, rfl⟩ := List.mem_map.1 hname
    exact absurd rfl (bne_iff_ne.1 (List.lookup_eq_none_iff.1 hlookup field hfield))

/-- Fields of different names stand among others as what they are. -/
theorem Schema.Declares.of_sublist {fields own : List (String × Schema)} (h : own.Sublist fields)
    (hnodup : (fields.map Prod.fst).Nodup) : Declares fields own := by
  intro name hname
  obtain ⟨⟨name, schema⟩, hmem, rfl⟩ := List.mem_map.1 hname
  rw [(Json.lookup_eq_some_iff_mem hnodup).2 (h.subset hmem),
    (Json.lookup_eq_some_iff_mem (hnodup.sublist (h.map _))).2 hmem]

/-- Records with the same fields, whose values differ by an edit at most. -/
def Json.Record.Alike (α : Type) [Scalar α] (level? : Option ℕ) (fields : List (String × Schema))
    (r r' : Record) : Prop :=
  ∀ name, r.get? name = r'.get? name ∨ ∃ schema v w, fields.lookup name = some schema ∧
    r.get? name = some v ∧ r'.get? name = some w ∧ Edit α level? schema v w

namespace Json

/-- Members of different names are found in any order. -/
theorem lookup_eq_of_perm {a b : List (String × Json)} (h : a.Perm b)
    (hnodup : (a.map Prod.fst).Nodup) (name : String) : a.lookup name = b.lookup name := by
  refine Option.ext fun value ↦ ?_
  rw [lookup_eq_some_iff_mem hnodup, lookup_eq_some_iff_mem ((h.map _).nodup_iff.1 hnodup),
    h.mem_iff]

end Json

namespace Edit

variable {level? : Option ℕ} {v w : Json} {fields own : List (String × Schema)}
  {a b : List (String × Json)}

/-- Another value of one member shows under the name of that member only. -/
theorem lookup_member (before after : List (String × Json)) (name other : String) (v w : Json) :
    (before ++ (name, v) :: after).lookup other = (before ++ (name, w) :: after).lookup other ∨
      other = name ∧ (before ++ (name, v) :: after).lookup other = some v ∧
        (before ++ (name, w) :: after).lookup other = some w := by
  simp only [List.lookup_append, List.lookup_cons]
  cases before.lookup other with
  | some value => exact .inl rfl
  | none =>
    cases hname : other == name with
    | false => exact .inl rfl
    | true => exact .inr ⟨eq_of_beq hname, rfl, rfl⟩

/-- An edit of an object changes the record that is read from it by an edit at most. -/
theorem alike_ofMembers? (h : Edit α level? (.record fields) (.object a) (.object b))
    (hown : Schema.Declares fields own) :
    Option.Rel (Record.Alike α (level?.map Nat.succ) own)
      (Record.ofMembers? (own.map Prod.fst) a) (Record.ofMembers? (own.map Prod.fst) b) := by
  rw [Record.ofMembers?, Record.ofMembers?]
  rcases h.filter (own.map Prod.fst).contains with heq | h
  · rw [heq]
    split_ifs
    · exact .some fun name ↦ .inl rfl
    · exact .none
  generalize hkept : a.filter (fun member ↦ (own.map Prod.fst).contains member.1) = kept at h ⊢
  generalize hkept' : b.filter (fun member ↦ (own.map Prod.fst).contains member.1) = kept' at h ⊢
  cases h with
  | reorder _ hperm =>
    have hiff := (hperm.map Prod.fst).nodup_iff
    split_ifs with hnodup hnodup' hnodup'
    · exact .some fun name ↦ .inl (Json.lookup_eq_of_perm hperm hnodup name)
    · exact absurd (hiff.1 hnodup) hnodup'
    · exact absurd (hiff.2 hnodup') hnodup
    · exact .none
  | @insert _ _ before after name value hadmits =>
    -- a new member has another name
    have hmem : (name, value) ∈ before ++ (name, value) :: after :=
      List.mem_append_right _ List.mem_cons_self
    rw [← hkept'] at hmem
    obtain ⟨schema, hschema, -⟩ :=
      hown.exists_lookup (List.contains_iff_mem.1 (List.mem_filter.1 hmem).2)
    obtain ⟨first, last, rfl, -⟩ := List.lookup_eq_some_iff.1 hschema
    exact absurd (List.mem_map_of_mem (List.mem_append_right _ List.mem_cons_self)) hadmits.1
  | @member _ _ part before after name v w hpart hvalue =>
    have hmem : (name, v) ∈ before ++ (name, v) :: after :=
      List.mem_append_right _ List.mem_cons_self
    rw [← hkept] at hmem
    obtain ⟨schema, hschema, hlookup⟩ :=
      hown.exists_lookup (List.contains_iff_mem.1 (List.mem_filter.1 hmem).2)
    rw [Schema.member?, hschema] at hpart
    obtain rfl := Option.some.inj hpart
    have hnames : (before ++ (name, v) :: after).map Prod.fst =
        (before ++ (name, w) :: after).map Prod.fst := by
      rw [List.map_append, List.map_append]
      rfl
    rw [hnames]
    split_ifs
    · refine .some fun other ↦ (lookup_member before after name other v w).imp_right ?_
      rintro ⟨rfl, hv, hw⟩
      exact ⟨schema, v, w, hlookup, hv, hw, hvalue⟩
    · exact .none

/-- Read as an array of its fields, a record has the fields of the same places. -/
theorem lookup_zip {part : Schema} {before after : List Json}
    (hpart : fields[before.length]?.map Prod.snd = some part) (v w : Json) (name : String) :
    ((fields.map Prod.fst).zip (before ++ v :: after)).lookup name =
        ((fields.map Prod.fst).zip (before ++ w :: after)).lookup name ∨
      fields.lookup name = some part ∧
        ((fields.map Prod.fst).zip (before ++ v :: after)).lookup name = some v ∧
        ((fields.map Prod.fst).zip (before ++ w :: after)).lookup name = some w := by
  induction fields generalizing before with
  | nil => cases hpart
  | cons field rest ih =>
    obtain ⟨first, schema⟩ := field
    cases before with
    | nil =>
      obtain rfl := Option.some.inj hpart
      simp only [List.map_cons, List.nil_append, List.zip_cons_cons, List.lookup_cons]
      cases name == first with
      | true => exact .inr ⟨rfl, rfl, rfl⟩
      | false => exact .inl rfl
    | cons value before =>
      simp only [List.map_cons, List.cons_append, List.zip_cons_cons, List.lookup_cons]
      cases name == first with
      | true => exact .inl rfl
      | false => exact ih hpart

/-- A record is an object before and after an edit, or an array of its fields. -/
theorem cases_of_record (h : Edit α level? (.record fields) v w) :
    (∃ a b, v = .object a ∧ w = .object b) ∨
      ∃ part before after x y, (Schema.record fields).item? before.length = some part ∧
        Edit α (level?.map Nat.succ) part x y ∧ v = .array (before ++ x :: after) ∧
        w = .array (before ++ y :: after) := by
  cases h with
  | item _ hpart hvalue => exact .inr ⟨_, _, _, _, _, hpart, hvalue, rfl, rfl⟩
  | _ => exact .inl ⟨_, _, rfl, rfl⟩

/-- The same, if the record may be an array of its fields. -/
theorem alike_of? (h : Edit α level? (.record fields) v w) :
    Option.Rel (Record.Alike α (level?.map Nat.succ) fields)
      (Record.of? (fields.map Prod.fst) v) (Record.of? (fields.map Prod.fst) w) := by
  rcases h.cases_of_record with
    ⟨a, b, rfl, rfl⟩ | ⟨part, before, after, x, y, hpart, hvalue, rfl, rfl⟩
  · exact h.alike_ofMembers? fun _ _ ↦ rfl
  · have hlength : (before ++ x :: after).length = (before ++ y :: after).length := by
      rw [List.length_append, List.length_append]
      rfl
    rw [Record.of?, Record.of?, hlength]
    split_ifs
    · refine .some fun name ↦ (lookup_zip hpart x y name).imp_right ?_
      rintro ⟨hname, hx, hy⟩
      exact ⟨part, x, y, hname, hx, hy, hvalue⟩
    · exact .none

end Edit

end Splice
