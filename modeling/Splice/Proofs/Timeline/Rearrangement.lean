import Mathlib.Logic.Relation
import Splice.Number.Binary64
import Splice.Proofs.Timeline.Edits

/-!
# Rearranged documents

A document that is edited is read as the same project (`Project.decode?_eq_of_edits`): neither the
order of the members of an object matters, nor members of names that are not read from it.

A schema is overlooked by a reader if no edit makes a difference to it (`Schema.OverlookedBy`). This
goes from the fields of a record to the record (`Schema.overlookedBy_record`), and so from the parts
of a project to the project. The fields of a clip, of its kind and of its placement stand side by
side in one object; they are read apart, each from the members of its own names
(`Schema.Declares`), and only after the kind itself.

That a clip reads what it does not know has a price: with a new member that is not readable, or
nests too deeply, the whole document cannot be read (`Project.decode?_undeclared`). Outside of clips
such a member does no harm.
-/

namespace Splice

open Json (Record)

variable {α : Type} [Scalar α]

/-! ### Readers -/

/-- Related readings that are used alike give the same. -/
theorem bind_eq_of_rel {β γ : Type} {R : β → β → Prop} {x y : Option β} {f g : β → Option γ}
    (h : Option.Rel R x y) (hf : ∀ a b, R a b → f a = g b) : x.bind f = y.bind g := by
  cases h with
  | some hab => exact hf _ _ hab
  | none => rfl

/-- Whether no edit by a schema makes a difference to a reader. -/
def Schema.OverlookedBy (α : Type) [Scalar α] {β : Type} (schema : Schema)
    (read : Json → Option β) : Prop :=
  ∀ level? v w, Edit α level? schema v w → read v = read w

namespace Schema

open Json (nullable? list?)

variable {β : Type} {level? : Option ℕ} {item : Schema} {fields : List (String × Schema)}
  {schema : Schema} {read : Json → Option β}

/-- What has no members of its own cannot be edited. -/
theorem overlookedBy_leaf (read : Json → Option β) : leaf.OverlookedBy α read :=
  fun _ _ _ h ↦ h.not_leaf.elim

/-- An array is read as before if each of its items is. -/
theorem OverlookedBy.list (h : item.OverlookedBy α read) :
    (list item).OverlookedBy α (list? read) := by
  intro level? v w hedit
  cases hedit with
  | reorder hschema => exact hschema.elim
  | insert _ hadmits => exact hadmits.elim
  | member _ hpart => cases hpart
  | @item _ _ part before after v w hpart hvalue =>
    obtain rfl := Option.some.inj hpart
    rw [list?, list?, List.mapM_append, List.mapM_append, List.mapM_cons, List.mapM_cons,
      h _ _ _ hvalue]

/-- An edit makes nothing `null`, and nothing out of it. -/
theorem nullable?_of_edit (read : Json → Option β) (h : Edit α level? schema v w) :
    nullable? read v = (read v).map some ∧ nullable? read w = (read w).map some := by
  induction h with
  | clip _ _ ih => exact ih
  | _ => exact ⟨rfl, rfl⟩

/-- What may be `null` is read as before if it is so where it is not. -/
theorem OverlookedBy.nullable (h : schema.OverlookedBy α read) :
    schema.OverlookedBy α (nullable? read) := by
  intro level? v w hedit
  obtain ⟨hv, hw⟩ := nullable?_of_edit read hedit
  rw [hv, hw, h _ _ _ hedit]

/-- A record is read as before if that holds for each of its fields. -/
theorem overlookedBy_record {decode : Json → Option β} {read : Record → Option β}
    (hdecode : ∀ value, decode value = (Record.of? (fields.map Prod.fst) value).bind read)
    (hread : ∀ level? r r', r.Alike α level? fields r' → read r = read r') :
    (record fields).OverlookedBy α decode := by
  intro level? v w h
  rw [hdecode, hdecode]
  exact bind_eq_of_rel h.alike_of? (hread _)

end Schema

namespace Json.Record.Alike

open Schema (leaves overlookedBy_leaf)

variable {β : Type} {level? : Option ℕ} {fields : List (String × Schema)} {r r' : Record}
  {schema : Schema} {read : Json → Option β}

/-- A field of two records that are alike is the same in both, or read alike from both. -/
theorem cases_get? (h : r.Alike α level? fields r') {name : String}
    (hname : fields.lookup name = some schema) (hread : schema.OverlookedBy α read) :
    r.get? name = r'.get? name ∨
      ∃ v w, r.get? name = some v ∧ r'.get? name = some w ∧ read v = read w := by
  refine (h name).imp_right ?_
  rintro ⟨schema', v, w, hschema, hv, hw, hedit⟩
  obtain rfl := Option.some.inj (hname.symm.trans hschema)
  exact ⟨v, w, hv, hw, hread _ _ _ hedit⟩

/-- A field that must be there is read alike from records that are alike. -/
theorem required?_eq (h : r.Alike α level? fields r') (name : String)
    (hname : fields.lookup name = some schema) (hread : schema.OverlookedBy α read) :
    r.required? name read = r'.required? name read := by
  rw [required?, required?]
  rcases h.cases_get? hname hread with heq | ⟨v, w, hv, hw, heq⟩
  · rw [heq]
  · rw [hv, hw]
    exact heq

/-- So is a field with a default, which is left out of both or of neither. -/
theorem withDefault?_eq (h : r.Alike α level? fields r') (name : String) (fallback : β)
    (hname : fields.lookup name = some schema) (hread : schema.OverlookedBy α read) :
    r.withDefault? name fallback read = r'.withDefault? name fallback read := by
  rw [withDefault?, withDefault?]
  rcases h.cases_get? hname hread with heq | ⟨v, w, hv, hw, heq⟩
  · rw [heq]
  · rw [hv, hw]
    exact heq

theorem optional?_eq (h : r.Alike α level? fields r') (name : String)
    (hname : fields.lookup name = some schema) (hread : schema.OverlookedBy α read) :
    r.optional? name read = r'.optional? name read :=
  h.withDefault?_eq name none hname hread.nullable

/-- Fields without members are the same. -/
theorem get?_eq {names : List String} (h : r.Alike α level? (leaves names) r') (name : String) :
    r.get? name = r'.get? name := by
  rcases h name with heq | ⟨schema, v, w, hschema, -, -, hedit⟩
  · exact heq
  · obtain ⟨before, after, hsplit, -⟩ := List.lookup_eq_some_iff.1 hschema
    have hmem : (name, schema) ∈ leaves names := hsplit ▸ List.mem_append_right _ List.mem_cons_self
    obtain ⟨_, -, heq⟩ := List.mem_map.1 hmem
    obtain rfl : Schema.leaf = schema := congrArg Prod.snd heq
    exact hedit.not_leaf.elim

end Json.Record.Alike

/-! ### Parts of a clip -/

section Decoders

open Schema (OverlookedBy overlookedBy_leaf overlookedBy_record)
open Json (Record scalar? bool? string?)

/-- A position, whose fields have no members, is read as before. -/
theorem Position.overlookedBy :
    Schema.position.OverlookedBy α (decode? : Json → Option (Position α)) := by
  refine overlookedBy_record (fun _ ↦ rfl) fun level? r r' h ↦ ?_
  simp only [Record.withDefault?, h.get?_eq]

theorem Size.overlookedBy : Schema.size.OverlookedBy α (decode? : Json → Option (Size α)) := by
  refine overlookedBy_record (fun _ ↦ rfl) fun level? r r' h ↦ ?_
  simp only [Record.withDefault?, h.get?_eq]

theorem Crop.overlookedBy : Schema.crop.OverlookedBy α (decode? : Json → Option (Crop α)) := by
  refine overlookedBy_record (fun _ ↦ rfl) fun level? r r' h ↦ ?_
  simp only [Record.withDefault?, h.get?_eq]

theorem Effects.overlookedBy :
    Schema.effects.OverlookedBy α (decode? : Json → Option (Effects α)) := by
  refine overlookedBy_record (fun _ ↦ rfl) fun level? r r' h ↦ ?_
  simp only [Record.optional?, Record.withDefault?, h.get?_eq]

/-- The position of a keyframe, which may lack a coordinate, has the schema of a whole one. -/
theorem PartialPosition.overlookedBy :
    Schema.position.OverlookedBy α (decode? : Json → Option (PartialPosition α)) := by
  refine overlookedBy_record (fun _ ↦ rfl) fun level? r r' h ↦ ?_
  simp only [Record.optional?, Record.withDefault?, h.get?_eq]

/-- A keyframe is read as before, with the position in it. -/
theorem Keyframe.overlookedBy :
    Schema.keyframe.OverlookedBy α (decode? : Json → Option (Keyframe α)) := by
  refine overlookedBy_record (fun _ ↦ rfl) fun level? r r' h ↦ ?_
  simp only [h.required?_eq "time" rfl (overlookedBy_leaf _),
    h.withDefault?_eq "absolute" false rfl (overlookedBy_leaf _),
    h.optional?_eq "position" rfl PartialPosition.overlookedBy,
    h.optional?_eq "opacity" rfl (overlookedBy_leaf _)]

theorem TextClip.style_overlookedBy : Schema.textStyle.OverlookedBy α TextClip.style? := by
  refine overlookedBy_record (fun _ ↦ rfl) fun level? r r' h ↦ ?_
  simp only [Record.optional?, Record.withDefault?, h.get?_eq]

theorem ShapeClip.style_overlookedBy : Schema.shapeStyle.OverlookedBy α ShapeClip.style? := by
  refine overlookedBy_record (fun _ ↦ rfl) fun level? r r' h ↦ ?_
  simp only [Record.optional?, Record.withDefault?, h.get?_eq]

/-! ### Clips -/

section Members

variable {level? : Option ℕ} {fields : List (String × Schema)} {a b : List (String × Json)}

/-- A placement is read as before from the members of an edited clip, as long as the clip declares
its fields. -/
theorem Look.ofMembers?_eq (h : Edit α level? (.record fields) (.object a) (.object b))
    (hlook : Schema.Declares fields Schema.look) :
    (ofMembers? a : Option (Look α)) = ofMembers? b := by
  refine bind_eq_of_rel (h.alike_ofMembers? hlook) fun r r' hr ↦ ?_
  simp only [hr.withDefault?_eq "position" _ rfl Position.overlookedBy,
    hr.withDefault?_eq "size" _ rfl Size.overlookedBy,
    hr.withDefault?_eq "rotation" _ rfl (overlookedBy_leaf _),
    hr.withDefault?_eq "fitMode" _ rfl (overlookedBy_leaf _),
    hr.optional?_eq "crop" rfl Crop.overlookedBy,
    hr.withDefault?_eq "effects" _ rfl Effects.overlookedBy,
    hr.withDefault?_eq "keyframes" _ rfl Keyframe.overlookedBy.list]

/-- So is a video or an image, as a text or a shape is, from its own fields and its placement. -/
theorem MediaClip.ofMembers?_eq (h : Edit α level? (.record fields) (.object a) (.object b))
    (hown : Schema.Declares fields (Schema.kindFields .video))
    (hlook : Schema.Declares fields Schema.look) :
    (ofMembers? a : Option (MediaClip α)) = ofMembers? b := by
  refine bind_eq_of_rel (h.alike_ofMembers? hown) fun r r' hr ↦ ?_
  simp only [Record.required?, Record.optional?, Record.withDefault?, hr.get?_eq,
    Look.ofMembers?_eq h hlook]

theorem TextClip.ofMembers?_eq (h : Edit α level? (.record fields) (.object a) (.object b))
    (hown : Schema.Declares fields (Schema.kindFields .text))
    (hlook : Schema.Declares fields Schema.look) :
    (ofMembers? a : Option (TextClip α)) = ofMembers? b := by
  refine bind_eq_of_rel (h.alike_ofMembers? hown) fun r r' hr ↦ ?_
  simp only [hr.optional?_eq "text" rfl (overlookedBy_leaf _),
    hr.optional?_eq "label" rfl (overlookedBy_leaf _),
    hr.withDefault?_eq "style" _ rfl TextClip.style_overlookedBy, Look.ofMembers?_eq h hlook]

theorem ShapeClip.ofMembers?_eq (h : Edit α level? (.record fields) (.object a) (.object b))
    (hown : Schema.Declares fields (Schema.kindFields .shape))
    (hlook : Schema.Declares fields Schema.look) :
    (ofMembers? a : Option (ShapeClip α)) = ofMembers? b := by
  refine bind_eq_of_rel (h.alike_ofMembers? hown) fun r r' hr ↦ ?_
  simp only [hr.optional?_eq "label" rfl (overlookedBy_leaf _),
    hr.withDefault?_eq "style" _ rfl ShapeClip.style_overlookedBy, Look.ofMembers?_eq h hlook]

/-- So is a sound, which has no placement: a position in it is none of its fields. -/
theorem AudioClip.ofMembers?_eq (h : Edit α level? (.record fields) (.object a) (.object b))
    (hown : Schema.Declares fields (Schema.kindFields .audio)) :
    (ofMembers? a : Option (AudioClip α)) = ofMembers? b := by
  refine bind_eq_of_rel (h.alike_ofMembers? hown) fun r r' hr ↦ ?_
  simp only [hr.required?_eq "sourceId" rfl (overlookedBy_leaf _),
    hr.withDefault?_eq "trimStart" _ rfl (overlookedBy_leaf _),
    hr.withDefault?_eq "effects" _ rfl Effects.overlookedBy]

namespace Schema

/-- The fields of a clip, of its kind and of its placement have different names. -/
theorem nodup_clipFields (kind : ClipType) : ((clipFields kind).map Prod.fst).Nodup := by
  cases kind <;> decide

theorem declares_ownNames (kind : ClipType) :
    Declares (clipFields kind) (leaves Clip.ownNames) :=
  .of_sublist (List.sublist_append_left _ _) (nodup_clipFields kind)

theorem declares_type (kind : ClipType) : Declares (clipFields kind) [("type", leaf)] :=
  .of_sublist ((List.singleton_sublist.2 List.mem_cons_self).trans (List.sublist_append_right _ _))
    (nodup_clipFields kind)

/-- A clip declares the fields of its kind. -/
theorem declares_kindFields (kind : ClipType) : Declares (clipFields kind) (kindFields kind) :=
  .of_sublist (((List.sublist_append_left _ _).cons _).trans (List.sublist_append_right _ _))
    (nodup_clipFields kind)

/-- A clip declares its placement, if its kind has one. -/
theorem declares_lookFields (kind : ClipType) : Declares (clipFields kind) (lookFields kind) :=
  .of_sublist (((List.sublist_append_right _ _).cons _).trans (List.sublist_append_right _ _))
    (nodup_clipFields kind)

/-- A clip declares nothing that is far below it. -/
theorem height_clipFields_le (kind : ClipType) : (record (clipFields kind)).height ≤ 24 := by
  cases kind <;> decide

end Schema

/-- An edit of a clip leaves its kind as it is. -/
theorem ClipType.ofMembers?_eq {kind : ClipType}
    (h : Edit α level? (.record (Schema.clipFields kind)) (.object a) (.object b)) :
    ofMembers? α a = ofMembers? α b :=
  bind_eq_of_rel (h.alike_ofMembers? (Schema.declares_type kind)) fun _ _ hr ↦
    hr.required?_eq "type" rfl (overlookedBy_leaf _)

/-- What a clip consists of is read as before, since the same reader is used before and after the
edit. -/
theorem Content.ofMembers?_eq {kind : ClipType} (hkind : ClipType.ofMembers? α a = some kind)
    (h : Edit α level? (.record (Schema.clipFields kind)) (.object a) (.object b)) :
    (ofMembers? a : Option (Content α)) = ofMembers? b := by
  have hown := Schema.declares_kindFields kind
  have hlook := Schema.declares_lookFields kind
  have hkind' := (ClipType.ofMembers?_eq h).symm.trans hkind
  obtain ⟨r, hr, htype⟩ := Option.bind_eq_some_iff.1 hkind
  obtain ⟨r', hr', htype'⟩ := Option.bind_eq_some_iff.1 hkind'
  rw [ofMembers?, ofMembers?, hr, hr']
  simp only [Option.bind_eq_bind, Option.bind_some, htype, htype']
  cases kind with
  | video => rw [MediaClip.ofMembers?_eq h hown hlook]
  | image => rw [MediaClip.ofMembers?_eq h hown hlook]
  | text => rw [TextClip.ofMembers?_eq h hown hlook]
  | shape => rw [ShapeClip.ofMembers?_eq h hown hlook]
  | audio => rw [AudioClip.ofMembers?_eq h hown]

end Members

namespace Clip

/-- The members of a clip that are not its own fields. -/
def others (members : List (String × Json)) : List (String × Json) :=
  members.filter fun member ↦ !ownNames.contains member.1

/-- The kind is not among the fields that every clip has, so it is found in what is left without
them. -/
theorem ofMembers?_others (members : List (String × Json)) :
    ClipType.ofMembers? α (others members) = ClipType.ofMembers? α members := by
  have hfilter : (others members).filter (fun member ↦ ["type"].contains member.1) =
      members.filter fun member ↦ ["type"].contains member.1 := by
    rw [others, List.filter_filter]
    refine List.filter_congr fun member _ ↦ ?_
    by_cases htype : member.1 = "type"
    · rw [htype]
      decide
    · simp [htype]
  rw [ClipType.ofMembers?, ClipType.ofMembers?, Record.ofMembers?, Record.ofMembers?, hfilter]

variable {kind : ClipType} {a b : List (String × Json)}

/-- What an edit brings into a clip can be read there. -/
theorem all_others_eq
    (h : Edit α (some Project.clipLevel) (.record (Schema.clipFields kind)) (.object a)
      (.object b)) :
    ((others a).all fun member ↦
        member.2.isReadable α && Project.clipLevel + member.2.depth ≤ nestingLimit) =
      (others b).all fun member ↦
        member.2.isReadable α && Project.clipLevel + member.2.depth ≤ nestingLimit := by
  rcases h.filter fun name ↦ !ownNames.contains name with heq | hothers
  · exact congrArg (List.all · _) heq
  -- the parts that the edit can reach lie a few levels down, well within the limit
  · have hpasses := hothers.passes_iff 4 rfl (Schema.height_clipFields_le kind)
    rw [Json.passes_object_iff, Json.passes_object_iff, and_congr_right_iff] at hpasses
    rw [Bool.eq_iff_iff, Json.all_passes_iff, Json.all_passes_iff]
    exact hpasses (by decide)

/-- The content of an edited clip is read as before from what is left without its own fields. -/
theorem content_others_eq (hkind : ClipType.ofMembers? α a = some kind)
    (h : Edit α (some Project.clipLevel) (.record (Schema.clipFields kind)) (.object a)
      (.object b)) :
    (Content.ofMembers? (others a) : Option (Content α)) = Content.ofMembers? (others b) := by
  rcases h.filter fun name ↦ !ownNames.contains name with heq | hothers
  · exact congrArg _ heq
  · exact Content.ofMembers?_eq ((ofMembers?_others a).trans hkind) hothers

/-- An edited clip is read as before. -/
theorem overlookedBy :
    Schema.clip.OverlookedBy α (decode? Project.clipLevel : Json → Option (Clip α)) := by
  intro level? v w h
  cases h with
  | reorder hschema => exact hschema.elim
  | insert _ hadmits => exact hadmits.elim
  | member _ hpart => cases hpart
  | item _ hpart => cases hpart
  | @clip a kind w hkind h =>
    obtain ⟨b, rfl⟩ : ∃ b, w = .object b := by
      cases h <;> exact ⟨_, rfl⟩
    have hall := all_others_eq h
    have hcontent := content_others_eq hkind h
    refine bind_eq_of_rel (h.alike_ofMembers? (Schema.declares_ownNames kind)) fun r r' hr ↦ ?_
    simp only [others] at hall hcontent
    simp only [hall, hcontent, Record.required?, Record.optional?, Record.withDefault?, hr.get?_eq]

end Clip

/-! ### Projects -/

theorem OutputSettings.overlookedBy :
    Schema.outputSettings.OverlookedBy α (decode? : Json → Option (OutputSettings α)) := by
  refine overlookedBy_record (fun _ ↦ rfl) fun level? r r' h ↦ ?_
  simp only [Record.optional?, Record.withDefault?, h.get?_eq]

/-- An edited track is read as before, with its clips. -/
theorem Track.overlookedBy :
    Schema.track.OverlookedBy α (decode? : Json → Option (Track α)) := by
  refine overlookedBy_record (fun _ ↦ rfl) fun level? r r' h ↦ ?_
  simp only [h.optional?_eq "id" rfl (overlookedBy_leaf _),
    h.withDefault?_eq "clips" _ rfl Clip.overlookedBy.list]

/-- An edited document of a project is read as before. -/
theorem Project.overlookedBy :
    Schema.project.OverlookedBy α (decode? : Json → Option (Project α)) := by
  refine overlookedBy_record (fun _ ↦ rfl) fun level? r r' h ↦ ?_
  simp only [h.withDefault?_eq "tracks" _ rfl Track.overlookedBy.list,
    h.optional?_eq "outputSettings" rfl OutputSettings.overlookedBy]

/-- Edits of a document leave the project that is read from it as it is. -/
theorem Project.decode?_eq_of_edits {v w : Json}
    (h : Relation.ReflTransGen (Edit α none Schema.project) v w) :
    (decode? w : Option (Project α)) = decode? v := by
  induction h with
  | refl => rfl
  | tail _ hedit ih => exact (overlookedBy _ _ _ hedit).symm.trans ih

end Decoders

/-! ### A sound with other members -/

namespace Sample

/-- The document of a project with one clip, and with further members. -/
def document (clip more : List (String × Json)) : Json :=
  .object (("tracks", .array [.object [("clips", .array [.object clip])]]) :: more)

/-- The members of a sound. -/
def soundMembers : List (String × Json) :=
  [("duration", .ofNat 2), ("sourceId", .string "music"), ("type", .string "audio")]

/-- A number that is beyond the doubles. -/
def hugeNumber : Json := .number ⟨false, ['1'], [], some (false, ['9', '9', '9'])⟩

/-- A value in a number of objects. -/
def nested (inner : Json) : ℕ → Json
  | 0 => inner
  | n + 1 => .object [("more", nested inner n)]

/-- The sound with its type in front, and with a position that is none. -/
def placedSound : List (String × Json) :=
  [("type", .string "audio"), ("position", nested (.object []) 90), ("duration", .ofNat 2),
    ("sourceId", .string "music")]

/-- An edit of the clip is an edit of the document that it stands in. -/
theorem edit_document (kind : ClipType) {clip clip' more : List (String × Json)}
    (hkind : ClipType.ofMembers? α clip = some kind)
    (h : Edit α (some Project.clipLevel) (.record (Schema.clipFields kind)) (.object clip)
      (.object clip')) :
    Edit α none Schema.project (document clip more) (document clip' more) :=
  .member [] rfl (.item [] rfl (.member [] rfl (.item [] rfl (.clip hkind h))))

end Sample

namespace Project

open Sample (document soundMembers placedSound hugeNumber nested)

/-- A project takes on a number that is beyond the doubles; a sound in it takes on a position, and
its type moves to the front. -/
theorem decode?_eq_of_edits_sound :
    (decode? (document soundMembers []) : Option (Project Float)).isSome = true ∧
    Relation.ReflTransGen (Edit Float none Schema.project) (document soundMembers [])
      (document placedSound [("scale", hugeNumber)]) ∧
    (decode? (document placedSound [("scale", hugeNumber)]) : Option (Project Float)) =
      decode? (document soundMembers []) := by
  have hscale : Edit Float none Schema.project (document soundMembers [])
      (document soundMembers [("scale", hugeNumber)]) :=
    .insert [("tracks", .array [.object [("clips", .array [.object soundMembers])]])]
      ⟨by decide, nofun⟩
  have hposition : Edit Float none Schema.project (document soundMembers [("scale", hugeNumber)])
      (document (("position", nested (.object []) 90) :: soundMembers)
        [("scale", hugeNumber)]) := by
    refine Sample.edit_document .audio (by decide +kernel) (.insert [] ⟨by decide, ?_⟩)
    rintro level -
    exact ⟨by decide +kernel, by decide +kernel⟩
  have htype : Edit Float none Schema.project
      (document (("position", nested (.object []) 90) :: soundMembers) [("scale", hugeNumber)])
      (document placedSound [("scale", hugeNumber)]) :=
    Sample.edit_document .audio (by decide +kernel) (.reorder trivial
      (List.perm_append_singleton ("type", Json.string "audio") placedSound.tail))
  have hedits := ((Relation.ReflTransGen.single hscale).tail hposition).tail htype
  exact ⟨by decide +kernel, hedits, decode?_eq_of_edits hedits⟩

/-- A sound does not take on a number that is beyond the doubles, and an object far down in a member
that a sound does not declare does not take on what would reach beyond the limit. -/
theorem decode?_undeclared :
    ((decode? (document soundMembers []) : Option (Project Float)).isSome = true ∧
      ClipType.ofMembers? Float soundMembers = some .audio ∧
      "note" ∉ (Schema.clipFields .audio).map Prod.fst ∧ hugeNumber.depth < 100 ∧
      (decode? (document (("note", hugeNumber) :: soundMembers) []) :
        Option (Project Float)).isSome = false) ∧
    (decode? (document (("note", nested (.object []) 100) :: soundMembers) []) :
        Option (Project Float)).isSome = true ∧
      (nested .null 40).depth < 100 ∧
      (decode? (document (("note", nested (.object [("more", nested .null 40)]) 100) ::
        soundMembers) []) : Option (Project Float)).isSome = false :=
  ⟨⟨by decide +kernel, by decide +kernel, by decide, by decide, by decide +kernel⟩,
    by decide +kernel, by decide +kernel, by decide +kernel⟩

end Project

end Splice
