import Mathlib.Tactic.Tauto
import Mathlib.Data.Int.Notation
import Splice.Proofs.Json.Records
import Splice.Timeline.Decode
import Splice.Timeline.Encode

/-!
# Projects are read back

The document of a project is read as that project (`Project.returns`), if each of its numbers is
read back (`Json.ReadsBack`) and its whole numbers fit the words that hold them
(`Project.IsStorable`).

Each record has the list of its `numbers`, and a theorem `returns` that rests on those of its parts.
The fields of a clip, of its kind and of its placement stand side by side in one object; so the
parts of a clip are read back from their fields among others (`Json.ReturnsAmong`), which needs that
no two of all these fields have the same name (`Clip.nodup_fields`).
-/

namespace Splice

open Json (Fit Returns ReadsBack Record member? ofScalar ofInt ofNat present scalar? string? bool?
  int32? nat32? list? returns_scalar returns_string returns_bool returns_int32 returns_nat32
  returns_list)

variable {α : Type} [Scalar α]

/-! ### Parts of a clip -/

/-- The numbers of a position. -/
def Position.numbers (p : Position α) : List α := [p.x, p.y]

/-- The numbers of a size. -/
def Size.numbers (s : Size α) : List α := [s.width, s.height]

/-- The numbers of a crop box. -/
def Crop.numbers (b : Crop α) : List α := [b.x, b.y, b.width, b.height]

/-- A position is read back, as a record of numbers only; so are a size and a crop. -/
theorem Position.returns {p : Position α} (h : ∀ x ∈ p.numbers, ReadsBack x) :
    Returns α decode? encode 1 p := by
  refine Record.returns_scalars [("x", p.x), ("y", p.y)] (by simp) (by simpa [numbers] using h) rfl
    (fun r hr ↦ ?_) fun _ ↦ rfl
  simp only [List.forall_mem_cons] at hr
  simp only [hr]
  rfl

theorem Size.returns {s : Size α} (h : ∀ x ∈ s.numbers, ReadsBack x) :
    Returns α decode? encode 1 s := by
  refine Record.returns_scalars [("width", s.width), ("height", s.height)] (by simp)
    (by simpa [numbers] using h) rfl (fun r hr ↦ ?_) fun _ ↦ rfl
  simp only [List.forall_mem_cons] at hr
  simp only [hr]
  rfl

theorem Crop.returns {b : Crop α} (h : ∀ x ∈ b.numbers, ReadsBack x) :
    Returns α decode? encode 1 b := by
  refine Record.returns_scalars
    [("x", b.x), ("y", b.y), ("width", b.width), ("height", b.height)] (by simp)
    (by simpa [numbers] using h) rfl (fun r hr ↦ ?_) fun _ ↦ rfl
  simp only [List.forall_mem_cons] at hr
  simp only [hr]
  rfl

/-- A fit mode is read back from its name, whatever numbers are. -/
theorem FitMode.returns (mode : FitMode) : Returns α decode? encode 0 mode := by
  refine ⟨?_, (returns_string mode.name).fit⟩
  show some (ofName mode.name) = some mode
  cases mode <;> rfl

/-! ### Effects -/

namespace Effects

/-- The effects that are numbers, under their names. -/
def numberFields (e : Effects α) : List (String × Option α) :=
  [("opacity", e.opacity?), ("brightness", e.brightness?), ("contrast", e.contrast?),
    ("saturation", e.saturation?), ("gamma", e.gamma?), ("hue", e.hue?), ("blur", e.blur?),
    ("volume", e.volume?), ("fadeIn", e.fadeIn?), ("fadeOut", e.fadeOut?),
    ("audioFadeIn", e.audioFadeIn?), ("audioFadeOut", e.audioFadeOut?), ("speed", e.speed?),
    ("transitionDuration", e.transitionDuration?)]

/-- The other effects. -/
def textFields (e : Effects α) : List (String × Option String) :=
  [("transition", e.transition?), ("transitionWith", e.transitionWith?),
    ("blendMode", e.blendMode?)]

/-- The numbers of effects. -/
def numbers (e : Effects α) : List α := e.numberFields.flatMap fun field ↦ field.2.toList

/-- All fields of effects, as they are written. -/
def fields (e : Effects α) : List (String × Option Json) :=
  [("opacity", e.opacity?.map ofScalar), ("brightness", e.brightness?.map ofScalar),
    ("contrast", e.contrast?.map ofScalar), ("saturation", e.saturation?.map ofScalar),
    ("gamma", e.gamma?.map ofScalar), ("hue", e.hue?.map ofScalar), ("blur", e.blur?.map ofScalar),
    ("volume", e.volume?.map ofScalar), ("fadeIn", e.fadeIn?.map ofScalar),
    ("fadeOut", e.fadeOut?.map ofScalar), ("audioFadeIn", e.audioFadeIn?.map ofScalar),
    ("audioFadeOut", e.audioFadeOut?.map ofScalar), ("speed", e.speed?.map ofScalar),
    ("transition", e.transition?.map .string),
    ("transitionDuration", e.transitionDuration?.map ofScalar),
    ("transitionWith", e.transitionWith?.map .string), ("blendMode", e.blendMode?.map .string)]

theorem encode_eq (e : Effects α) : e.encode = .object (present e.fields) := by
  rw [encode, fields]
  simp only [Json.present_cons_map, Json.present_nil, List.append_assoc, List.append_nil]

/-- What holds of all effects is what holds of the numbers and of the texts among them, each in its
own form. -/
theorem forall_mem_fields {e : Effects α} {P : String × Option Json → Prop} :
    (∀ field ∈ e.fields, P field) ↔
      (∀ field ∈ e.numberFields, P (field.1, field.2.map ofScalar)) ∧
        ∀ field ∈ e.textFields, P (field.1, field.2.map .string) := by
  simp only [fields, numberFields, textFields, List.forall_mem_cons]
  tauto

/-- Effects are read back, those that are left out included. -/
theorem returns {e : Effects α} (h : ∀ x ∈ e.numbers, ReadsBack x) :
    Returns α decode? encode 1 e := by
  have hnumber : ∀ field ∈ e.numberFields, ∀ x ∈ field.2, Returns α scalar? ofScalar 0 x :=
    fun field hfield x hx ↦ returns_scalar
      (h x (List.mem_flatMap.2 ⟨field, hfield, Option.mem_toList.2 hx⟩))
  have htext : ∀ field ∈ e.textFields, ∀ x ∈ field.2, Returns α string? .string 0 x :=
    fun _ _ x _ ↦ returns_string x
  have hfit : ∀ field ∈ e.fields, ∀ value ∈ field.2, Fit α 0 value :=
    forall_mem_fields.2 ⟨fun field hfield ↦ Json.fit_of_mem_map (hnumber field hfield),
      fun field hfield ↦ Json.fit_of_mem_map (htext field hfield)⟩
  have hmem := (forall_mem_fields (e := e)).1 fun _ ↦ id
  -- all fields of the document are at hand; what is left is to look each of them up
  refine Record.returns (e.fields.map Prod.fst) e.fields (by simp [fields]) e.encode_eq hfit
    (fun r hr ↦ ?_) fun _ ↦ rfl
  have hnumber : ∀ field ∈ e.numberFields, r.optional? field.1 scalar? = some field.2 :=
    fun field hfield ↦ hr.optional? field.1 (hnumber field hfield) rfl
      (List.mem_map_of_mem (hmem.1 field hfield)) (hmem.1 field hfield)
  have htext : ∀ field ∈ e.textFields, r.optional? field.1 string? = some field.2 :=
    fun field hfield ↦ hr.optional? field.1 (htext field hfield) rfl
      (List.mem_map_of_mem (hmem.2 field hfield)) (hmem.2 field hfield)
  simp only [numberFields, textFields, List.forall_mem_cons] at hnumber htext
  simp only [hnumber, htext]
  rfl

end Effects

/-! ### Keyframes -/

/-- The numbers of a keyframe's position. -/
def PartialPosition.numbers (p : PartialPosition α) : List α := p.x?.toList ++ p.y?.toList

/-- The numbers of a keyframe. -/
def Keyframe.numbers (k : Keyframe α) : List α :=
  k.time :: (k.position?.toList.flatMap PartialPosition.numbers ++ k.opacity?.toList)

/-- An optional scalar among numbers that are all read back. -/
theorem returns_of_mem_toList {limit : ℕ} {value? : Option α}
    (h : ∀ x ∈ value?.toList, ReadsBack x) : ∀ x ∈ value?, Returns α scalar? ofScalar limit x :=
  fun x hx ↦ returns_scalar (h x (Option.mem_toList.2 hx))

/-- The position of a keyframe is read back, with what is left out of it. -/
theorem PartialPosition.returns {p : PartialPosition α} (h : ∀ x ∈ p.numbers, ReadsBack x) :
    Returns α decode? encode 1 p := by
  rw [numbers, List.forall_mem_append] at h
  have hx : ∀ x ∈ p.x?, Returns α scalar? ofScalar 0 x := returns_of_mem_toList h.1
  have hy : ∀ y ∈ p.y?, Returns α scalar? ofScalar 0 y := returns_of_mem_toList h.2
  refine Record.returns ["x", "y"] [("x", p.x?.map ofScalar), ("y", p.y?.map ofScalar)] (by simp) ?_
    ?_ (fun r hr ↦ ?_) fun _ ↦ rfl
  · simp only [encode, Json.present_cons_map, Json.present_nil, List.append_nil]
  · simp only [List.forall_mem_cons]
    exact ⟨Json.fit_of_mem_map hx, Json.fit_of_mem_map hy, List.forall_mem_nil _⟩
  · simp only [hr.optional? "x" hx rfl (by simp) (by simp),
      hr.optional? "y" hy rfl (by simp) (by simp)]
    rfl

theorem Keyframe.returns {k : Keyframe α} (h : ∀ x ∈ k.numbers, ReadsBack x) :
    Returns α decode? encode 2 k := by
  simp only [numbers, List.forall_mem_cons, List.forall_mem_append] at h
  have htime : Returns α scalar? ofScalar 1 k.time := returns_scalar h.1
  have habsolute : Returns α bool? .bool 1 k.absolute := returns_bool _
  have hposition : ∀ p ∈ k.position?,
      Returns α PartialPosition.decode? PartialPosition.encode 1 p :=
    fun p hp ↦ PartialPosition.returns fun x hx ↦
      h.2.1 x (List.mem_flatMap.2 ⟨p, Option.mem_toList.2 hp, hx⟩)
  have hopacity : ∀ x ∈ k.opacity?, Returns α scalar? ofScalar 1 x := returns_of_mem_toList h.2.2
  refine Record.returns ["time", "absolute", "position", "opacity"]
    [("time", some (ofScalar k.time)), ("absolute", some (.bool k.absolute)),
      ("position", k.position?.map PartialPosition.encode), ("opacity", k.opacity?.map ofScalar)]
    (by simp) ?_ ?_ (fun r hr ↦ ?_) fun _ ↦ rfl
  · simp only [encode, Json.present_cons_some, Json.present_cons_map, Json.present_nil,
      List.append_nil]
    rfl
  · simp only [List.forall_mem_cons, Option.mem_some_iff, forall_eq']
    exact ⟨htime.fit, habsolute.fit, Json.fit_of_mem_map hposition, Json.fit_of_mem_map hopacity,
      List.forall_mem_nil _⟩
  · simp only [hr.required? "time" htime (by simp) (by simp),
      hr.withDefault? "absolute" false habsolute (by simp) (by simp),
      hr.optional? "position" hposition rfl (by simp) (by simp),
      hr.optional? "opacity" hopacity rfl (by simp) (by simp)]
    rfl

/-! ### Placements -/

namespace Look

/-- The numbers of a placement. -/
def numbers (v : Look α) : List α :=
  v.position.numbers ++ (v.size.numbers ++ (v.rotation :: (v.crop?.toList.flatMap Crop.numbers ++
    (v.effects.numbers ++ v.keyframes.flatMap Keyframe.numbers))))

/-- The fields of a placement, as they are written. -/
def fields (v : Look α) : List (String × Option Json) :=
  [("position", some v.position.encode), ("size", some v.size.encode),
    ("rotation", some (ofScalar v.rotation)), ("fitMode", some v.fitMode.encode),
    ("crop", v.crop?.map Crop.encode), ("effects", some v.effects.encode),
    ("keyframes", if v.keyframes.isEmpty then none
      else some (.array (v.keyframes.map Keyframe.encode)))]

theorem members_eq (v : Look α) : v.members = present v.fields := by
  rw [members, fields]
  cases v.keyframes <;>
    simp only [Json.present_cons_some, Json.present_cons_map, List.append_assoc] <;> rfl

/-- The keyframes are left out if there are none, which is their default. -/
theorem read_keyframes {v : Look α} (h : ∀ k ∈ v.keyframes, ∀ x ∈ k.numbers, ReadsBack x)
    {names : List String} {all : List (String × Option Json)} {r : Record}
    (hr : r.Shows names all) (hname : "keyframes" ∈ names) (hsub : v.fields ⊆ all) :
    r.withDefault? "keyframes" [] (list? Keyframe.decode?) = some v.keyframes := by
  have hget := hr "keyframes" hname (if v.keyframes.isEmpty then none
    else some (.array (v.keyframes.map Keyframe.encode))) (hsub (by simp [fields]))
  rw [Record.withDefault?, hget]
  cases hkeyframes : v.keyframes with
  | nil => rfl
  | cons k rest =>
    rw [hkeyframes] at h
    exact (returns_list fun k hk ↦ Keyframe.returns (h k hk)).read_encode

/-- A placement is read back from among the other fields of a clip. -/
theorem returns {v : Look α} (h : ∀ x ∈ v.numbers, ReadsBack x) :
    Json.ReturnsAmong α ofMembers? fields 3 v := by
  simp only [numbers, List.forall_mem_append, List.forall_mem_cons, List.forall_mem_flatMap,
    Option.mem_toList] at h
  obtain ⟨hposition, hsize, hrotation, hcrop, heffects, hkeyframes⟩ := h
  have hposition := Position.returns hposition
  have hsize := Size.returns hsize
  have hrotation : Returns α scalar? ofScalar 0 v.rotation := returns_scalar hrotation
  have hmode : Returns α FitMode.decode? FitMode.encode 0 v.fitMode := FitMode.returns _
  have hcrop : ∀ box ∈ v.crop?, Returns α Crop.decode? Crop.encode 1 box :=
    fun box hbox ↦ Crop.returns (hcrop box hbox)
  have heffects := Effects.returns heffects
  refine Json.returnsAmong
    ["position", "size", "rotation", "fitMode", "crop", "effects", "keyframes"] _ ?_
    (fun all r hnodup hsub hr ↦ ?_) fun _ ↦ rfl
  · simp only [fields, List.forall_mem_cons, Option.mem_some_iff, forall_eq']
    refine ⟨hposition.fit.mono (by simp), hsize.fit.mono (by simp), hrotation.fit.mono (by simp),
      hmode.fit.mono (by simp), fun value hvalue ↦ (Json.fit_of_mem_map hcrop value hvalue).mono
        (by simp), heffects.fit.mono (by simp), fun value hvalue ↦ ?_, List.forall_mem_nil _⟩
    split_ifs at hvalue
    · cases hvalue
    · rw [← Option.mem_some_iff.1 hvalue]
      exact (returns_list fun k hk ↦ Keyframe.returns (hkeyframes k hk)).fit
  · simp only [hr.withDefault? "position" .origin hposition (by simp) (hsub (by simp [fields])),
      hr.withDefault? "size" .full hsize (by simp) (hsub (by simp [fields])),
      hr.withDefault? "rotation" 0.0 hrotation (by simp) (hsub (by simp [fields])),
      hr.withDefault? "fitMode" .fit hmode (by simp) (hsub (by simp [fields])),
      hr.optional? "crop" hcrop rfl (by simp) (hsub (by simp [fields])),
      hr.withDefault? "effects" {} heffects (by simp) (hsub (by simp [fields])),
      read_keyframes hkeyframes hr (by simp) hsub]
    rfl

end Look

/-! ### Kinds of clips -/

/-- The numbers of a video or an image clip. -/
def MediaClip.numbers (m : MediaClip α) : List α :=
  m.trimStart :: (m.trimEnd?.toList ++ m.look.numbers)

/-- The fields of a video or an image clip, as they are written. -/
def MediaClip.fields (m : MediaClip α) : List (String × Option Json) :=
  [("sourceId", some (.string m.sourceId)), ("trimStart", some (ofScalar m.trimStart)),
    ("trimEnd", m.trimEnd?.map ofScalar)] ++ m.look.fields

/-- A video or an image is read back from among the other fields of its clip. -/
theorem MediaClip.returns {m : MediaClip α} (h : ∀ x ∈ m.numbers, ReadsBack x) :
    Json.ReturnsAmong α ofMembers? fields 3 m := by
  simp only [numbers, List.forall_mem_append, List.forall_mem_cons] at h
  have hsource : Returns α string? .string 3 m.sourceId := returns_string _
  have hstart : Returns α scalar? ofScalar 3 m.trimStart := returns_scalar h.1
  have hend : ∀ x ∈ m.trimEnd?, Returns α scalar? ofScalar 3 x := returns_of_mem_toList h.2.1
  have hlook := Look.returns h.2.2
  refine Json.returnsAmong ["sourceId", "trimStart", "trimEnd"] _ ?_
    (fun all r hnodup hsub hr ↦ ?_) fun _ ↦ rfl
  · simp only [fields, List.cons_append, List.nil_append, List.forall_mem_cons,
      Option.mem_some_iff, forall_eq']
    exact ⟨hsource.fit, hstart.fit, Json.fit_of_mem_map hend, hlook.fit⟩
  · simp only [hr.required? "sourceId" hsource (by simp) (hsub (by simp [fields])),
      hr.withDefault? "trimStart" 0.0 hstart (by simp) (hsub (by simp [fields])),
      hr.optional? "trimEnd" hend rfl (by simp) (hsub (by simp [fields])),
      hlook.read_present all hnodup (List.Subset.trans (List.subset_append_right _ _) hsub)]
    rfl

/-- The fields of a text clip, as they are written. -/
def TextClip.fields (t : TextClip α) : List (String × Option Json) :=
  [("text", t.text?.map .string), ("label", t.label?.map .string),
    ("style", some (.object (member? "color" .string t.color?)))] ++ t.look.fields

/-- The style of a text is read back, with or without a color. -/
theorem TextClip.returns_style (color? : Option String) :
    Returns α style? (fun color? ↦ .object (member? "color" .string color?)) 1 color? := by
  have hcolor : ∀ s ∈ color?, Returns α string? .string 0 s := fun s _ ↦ returns_string s
  refine Record.returns ["color"] [("color", color?.map .string)] (by simp) ?_ ?_ (fun r hr ↦ ?_)
    fun _ ↦ rfl
  · simp only [Json.present_cons_map, Json.present_nil, List.append_nil]
  · simp only [List.forall_mem_cons]
    exact ⟨Json.fit_of_mem_map hcolor, List.forall_mem_nil _⟩
  · exact hr.optional? "color" hcolor rfl (by simp) (by simp)

/-- A text is read back from among the other fields of its clip. -/
theorem TextClip.returns {t : TextClip α} (h : ∀ x ∈ t.look.numbers, ReadsBack x) :
    Json.ReturnsAmong α ofMembers? fields 3 t := by
  have htext : ∀ s ∈ t.text?, Returns α string? .string 3 s := fun s _ ↦ returns_string s
  have hlabel : ∀ s ∈ t.label?, Returns α string? .string 3 s := fun s _ ↦ returns_string s
  have hstyle : Returns α TextClip.style? _ 1 t.color? := returns_style _
  have hlook := Look.returns h
  refine Json.returnsAmong ["text", "label", "style"] _ ?_ (fun all r hnodup hsub hr ↦ ?_)
    fun _ ↦ rfl
  · simp only [fields, List.cons_append, List.nil_append, List.forall_mem_cons,
      Option.mem_some_iff, forall_eq']
    exact ⟨Json.fit_of_mem_map htext, Json.fit_of_mem_map hlabel, hstyle.fit.mono (by simp),
      hlook.fit⟩
  · simp only [hr.optional? "text" htext rfl (by simp) (hsub (by simp [fields])),
      hr.optional? "label" hlabel rfl (by simp) (hsub (by simp [fields])),
      hr.withDefault? "style" none hstyle (by simp) (hsub (by simp [fields])),
      hlook.read_present all hnodup (List.Subset.trans (List.subset_append_right _ _) hsub)]
    rfl

/-- The fields of a shape's style, as they are written. -/
def ShapeClip.styleFields (s : ShapeClip α) : List (String × Option Json) :=
  [("shapeType", s.shapeType?.map .string), ("color", s.color?.map .string),
    ("outline", some (.bool s.outline))]

/-- The fields of a shape clip, as they are written. -/
def ShapeClip.fields (s : ShapeClip α) : List (String × Option Json) :=
  [("label", s.label?.map .string), ("style", some (.object (present s.styleFields)))] ++
    s.look.fields

/-- The style of a shape is read back as its three parts. -/
theorem ShapeClip.returns_style (s : ShapeClip α) :
    Returns α style? (fun _ ↦ .object (present s.styleFields)) 1
      (s.shapeType?, s.color?, s.outline) := by
  have htype : ∀ t ∈ s.shapeType?, Returns α string? .string 0 t := fun t _ ↦ returns_string t
  have hcolor : ∀ t ∈ s.color?, Returns α string? .string 0 t := fun t _ ↦ returns_string t
  have houtline : Returns α bool? .bool 0 s.outline := returns_bool _
  refine Record.returns ["shapeType", "color", "outline"] s.styleFields (by simp [styleFields]) rfl
    ?_ (fun r hr ↦ ?_) fun _ ↦ rfl
  · simp only [styleFields, List.forall_mem_cons, Option.mem_some_iff, forall_eq']
    exact ⟨Json.fit_of_mem_map htype, Json.fit_of_mem_map hcolor, houtline.fit,
      List.forall_mem_nil _⟩
  · simp only [hr.optional? "shapeType" htype rfl (by simp) (by simp [styleFields]),
      hr.optional? "color" hcolor rfl (by simp) (by simp [styleFields]),
      hr.withDefault? "outline" false houtline (by simp) (by simp [styleFields])]
    rfl

/-- A shape is read back from among the other fields of its clip. -/
theorem ShapeClip.returns {s : ShapeClip α} (h : ∀ x ∈ s.look.numbers, ReadsBack x) :
    Json.ReturnsAmong α ofMembers? fields 3 s := by
  have hlabel : ∀ t ∈ s.label?, Returns α string? .string 3 t := fun t _ ↦ returns_string t
  have hstyle := s.returns_style
  have hlook := Look.returns h
  refine Json.returnsAmong ["label", "style"] _ ?_ (fun all r hnodup hsub hr ↦ ?_) fun _ ↦ rfl
  · simp only [fields, List.cons_append, List.nil_append, List.forall_mem_cons,
      Option.mem_some_iff, forall_eq']
    exact ⟨Json.fit_of_mem_map hlabel, hstyle.fit.mono (by simp), hlook.fit⟩
  · simp only [hr.withDefault? "style" (none, none, false) hstyle (by simp)
        (hsub (by simp [fields])),
      hr.optional? "label" hlabel rfl (by simp) (hsub (by simp [fields])),
      hlook.read_present all hnodup (List.Subset.trans (List.subset_append_right _ _) hsub)]
    rfl

/-- The numbers of a sound. -/
def AudioClip.numbers (a : AudioClip α) : List α := a.trimStart :: a.effects.numbers

/-- The fields of a sound, as they are written. -/
def AudioClip.fields (a : AudioClip α) : List (String × Option Json) :=
  [("sourceId", some (.string a.sourceId)), ("trimStart", some (ofScalar a.trimStart)),
    ("effects", some a.effects.encode)]

/-- A sound is read back from among the other fields of its clip. -/
theorem AudioClip.returns {a : AudioClip α} (h : ∀ x ∈ a.numbers, ReadsBack x) :
    Json.ReturnsAmong α ofMembers? fields 3 a := by
  rw [numbers, List.forall_mem_cons] at h
  have hsource : Returns α string? .string 3 a.sourceId := returns_string _
  have hstart : Returns α scalar? ofScalar 3 a.trimStart := returns_scalar h.1
  have heffects := Effects.returns h.2
  refine Json.returnsAmong ["sourceId", "trimStart", "effects"] _ ?_
    (fun all r hnodup hsub hr ↦ ?_) fun _ ↦ rfl
  · simp only [fields, List.forall_mem_cons, Option.mem_some_iff, forall_eq']
    exact ⟨hsource.fit, hstart.fit, heffects.fit.mono (by simp), List.forall_mem_nil _⟩
  · simp only [hr.required? "sourceId" hsource (by simp) (hsub (by simp [fields])),
      hr.withDefault? "trimStart" 0.0 hstart (by simp) (hsub (by simp [fields])),
      hr.withDefault? "effects" {} heffects (by simp) (hsub (by simp [fields]))]
    rfl

/-! ### Clips -/

namespace Content

/-- The numbers of what a clip consists of. -/
def numbers : Content α → List α
  | video media => media.numbers
  | image media => media.numbers
  | text t => t.look.numbers
  | shape s => s.look.numbers
  | audio a => a.numbers

/-- The fields of a kind, as they are written. -/
def kindFields : Content α → List (String × Option Json)
  | video media => media.fields
  | image media => media.fields
  | text t => t.fields
  | shape s => s.fields
  | audio a => a.fields

/-- All fields of what a clip consists of, as they are written. -/
def fields (c : Content α) : List (String × Option Json) :=
  ("type", some (.string c.name)) :: c.kindFields

/-- What a clip consists of is written as the fields of its kind that are there. -/
theorem members_eq (c : Content α) : c.members = present c.kindFields := by
  cases c <;>
    simp only [members, kindFields, MediaClip.members, MediaClip.fields, TextClip.members,
      TextClip.fields, ShapeClip.members, ShapeClip.fields, ShapeClip.styleFields,
      AudioClip.members, AudioClip.fields, Look.members_eq, Json.present_cons_some,
      Json.present_cons_map, Json.present_nil, List.append_assoc, List.append_nil,
      List.cons_append, List.nil_append]

/-- What a clip consists of is read back from among its other fields: first the kind, then the
fields of that kind. -/
theorem returns {c : Content α} (h : ∀ x ∈ c.numbers, ReadsBack x) :
    Json.ReturnsAmong α ofMembers? fields 3 c := by
  have hkind : ∀ field ∈ c.kindFields, ∀ value ∈ field.2, Fit α 3 value := by
    cases c with
    | video media => exact (MediaClip.returns h).fit
    | image media => exact (MediaClip.returns h).fit
    | text t => exact (TextClip.returns h).fit
    | shape s => exact (ShapeClip.returns h).fit
    | audio a => exact (AudioClip.returns h).fit
  refine Json.returnsAmong ["type"] _ ?_ (fun all r hnodup hsub hr ↦ ?_) fun _ ↦ rfl
  · simp only [fields, List.forall_mem_cons, Option.mem_some_iff, forall_eq']
    exact ⟨(returns_string c.name).fit, hkind⟩
  -- the reader of the kind is only known once the kind itself has been read
  · have htype := hr "type" (by simp) (some (.string c.name)) (hsub (by simp [fields]))
    have hsub : c.kindFields ⊆ all := List.Subset.trans (List.subset_cons_self _ _) hsub
    simp only [Record.required?, htype]
    cases c with
    | video media =>
      exact congrArg (Option.map video) ((MediaClip.returns h).read_present all hnodup hsub)
    | image media =>
      exact congrArg (Option.map image) ((MediaClip.returns h).read_present all hnodup hsub)
    | text t =>
      exact congrArg (Option.map text) ((TextClip.returns h).read_present all hnodup hsub)
    | shape s =>
      exact congrArg (Option.map shape) ((ShapeClip.returns h).read_present all hnodup hsub)
    | audio a =>
      exact congrArg (Option.map audio) ((AudioClip.returns h).read_present all hnodup hsub)

end Content

namespace Clip

/-- The numbers of a clip that may be fractions. -/
def numbers (c : Clip α) : List α := c.startTime :: c.duration :: c.content.numbers

/-- The fields that every clip has, as they are written. -/
def ownFields (c : Clip α) : List (String × Option Json) :=
  [("id", some (.string c.id)), ("startTime", some (ofScalar c.startTime)),
    ("duration", some (ofScalar c.duration)), ("layer", some (ofInt c.layer)),
    ("layerGroup", c.layerGroup?.map .string)]

/-- All fields of a clip, as they are written. -/
def fields (c : Clip α) : List (String × Option Json) := c.ownFields ++ c.content.fields

/-- A clip is written as one object of its own fields and those of its content. -/
theorem encode_eq (c : Clip α) : c.encode = .object (present c.fields) := by
  rw [encode, fields, Json.present_append, ownFields, Content.fields, Content.members_eq]
  simp only [Json.present_cons_some, Json.present_cons_map, Json.present_nil, List.append_assoc,
    List.append_nil, List.cons_append, List.nil_append]

/-- No field stands twice, although those of the kind and the placement stand beside the others. -/
theorem nodup_fields (c : Clip α) : (c.fields.map Prod.fst).Nodup := by
  rw [fields, ownFields, Content.fields]
  cases c.content <;>
    simp [Content.kindFields, MediaClip.fields, TextClip.fields, ShapeClip.fields,
      AudioClip.fields, Look.fields]

/-- What is left without the own fields of a clip are those of its content. -/
theorem filter_fields (c : Clip α) :
    (c.fields.filter fun field ↦ !ownNames.contains field.1) = c.content.fields := by
  rw [fields, ownFields, Content.fields]
  cases c.content <;>
    simp [ownNames, Content.kindFields, MediaClip.fields, TextClip.fields, ShapeClip.fields,
      AudioClip.fields, Look.fields]

/-- The layer of a clip is a signed word of 32 bits. -/
def IsStorable (c : Clip α) : Prop := -(Word.half32 : ℤ) ≤ c.layer ∧ c.layer ≤ Word.half32 - 1

instance : DecidablePred (IsStorable : Clip α → Prop) := fun c ↦
  inferInstanceAs (Decidable (-(Word.half32 : ℤ) ≤ c.layer ∧ c.layer ≤ Word.half32 - 1))

/-- A clip is read back, at any level at which its three levels of parts can still be read. -/
theorem returns {c : Clip α} {level : ℕ} (hlevel : level + 3 ≤ nestingLimit)
    (h : ∀ x ∈ c.numbers, ReadsBack x) (hlayer : c.IsStorable) :
    Returns α (decode? level) encode 4 c := by
  simp only [numbers, List.forall_mem_cons] at h
  have hid : Returns α string? .string 3 c.id := returns_string _
  have hstart : Returns α scalar? ofScalar 3 c.startTime := returns_scalar h.1
  have hduration : Returns α scalar? ofScalar 3 c.duration := returns_scalar h.2.1
  have hgroup : ∀ s ∈ c.layerGroup?, Returns α string? .string 3 s := fun s _ ↦ returns_string s
  have hlayer : Returns α (int32? α) ofInt 3 c.layer := returns_int32 hlayer
  have hcontent := Content.returns h.2.2
  have hown : ∀ field ∈ c.ownFields, ∀ value ∈ field.2, Fit α 3 value := by
    simp only [ownFields, List.forall_mem_cons, Option.mem_some_iff, forall_eq']
    exact ⟨hid.fit, hstart.fit, hduration.fit, hlayer.fit, Json.fit_of_mem_map hgroup,
      List.forall_mem_nil _⟩
  constructor
  · obtain ⟨r, hr, hshows⟩ := Record.exists_shows ownNames c.nodup_fields
    have hothers := Json.filter_present c.fields fun name ↦ !ownNames.contains name
    rw [filter_fields] at hothers
    -- what is not read as a field of its own is readable, and does not nest too deeply
    have hall : ((present c.content.fields).all fun member ↦
        member.2.isReadable α && level + member.2.depth ≤ nestingLimit) = true := by
      refine List.all_eq_true.2 fun member hmember ↦ ?_
      have hfit := hcontent.fit _ (Json.mem_present.1 hmember) _ rfl
      have hdepth := hfit.depth_le
      rw [hfit.readable, Bool.true_and, decide_eq_true_eq]
      omega
    have hnodup : (c.content.fields.map Prod.fst).Nodup :=
      c.nodup_fields.sublist ((List.sublist_append_right _ _).map _)
    rw [encode_eq, decode?, hr]
    simp only [hothers, hall, Option.bind_eq_bind, Option.bind_some,
      hshows.withDefault? "id" "" hid (by simp [ownNames]) (by simp [fields, ownFields]),
      hshows.withDefault? "startTime" 0.0 hstart (by simp [ownNames])
        (by simp [fields, ownFields]),
      hshows.required? "duration" hduration (by simp [ownNames]) (by simp [fields, ownFields]),
      hshows.withDefault? "layer" 1 hlayer (by simp [ownNames]) (by simp [fields, ownFields]),
      hshows.optional? "layerGroup" hgroup rfl (by simp [ownNames]) (by simp [fields, ownFields]),
      hcontent.read_present _ hnodup (List.Subset.refl _)]
    rfl
  · rw [encode_eq]
    refine .object fun member hmember ↦ ?_
    rcases List.mem_append.1 (Json.mem_present.1 hmember) with hmem | hmem
    · exact hown _ hmem _ rfl
    · exact hcontent.fit _ hmem _ rfl

end Clip

/-! ### Projects -/

namespace OutputSettings

/-- The numbers of a requested output format that may be fractions. -/
def numbers (s : OutputSettings α) : List α := s.fps?.toList

/-- The sides of a requested output format are words of 32 bits. -/
def IsStorable (s : OutputSettings α) : Prop :=
  (∀ n ∈ s.width?, n < Word.count32) ∧ ∀ n ∈ s.height?, n < Word.count32

instance : DecidablePred (IsStorable : OutputSettings α → Prop) := fun s ↦
  inferInstanceAs
    (Decidable ((∀ n ∈ s.width?, n < Word.count32) ∧ ∀ n ∈ s.height?, n < Word.count32))

theorem returns {s : OutputSettings α} (h : ∀ x ∈ s.numbers, ReadsBack x) (hs : s.IsStorable) :
    Returns α decode? encode 1 s := by
  have hwidth : ∀ n ∈ s.width?, Returns α (nat32? α) ofNat 0 n :=
    fun n hn ↦ returns_nat32 (hs.1 n hn)
  have hheight : ∀ n ∈ s.height?, Returns α (nat32? α) ofNat 0 n :=
    fun n hn ↦ returns_nat32 (hs.2 n hn)
  have hfps : ∀ x ∈ s.fps?, Returns α scalar? ofScalar 0 x := returns_of_mem_toList h
  have hbitrate : ∀ t ∈ s.bitrate?, Returns α string? .string 0 t := fun t _ ↦ returns_string t
  have hpreset : ∀ t ∈ s.preset?, Returns α string? .string 0 t := fun t _ ↦ returns_string t
  refine Record.returns ["width", "height", "fps", "bitrate", "preset"]
    [("width", s.width?.map ofNat), ("height", s.height?.map ofNat), ("fps", s.fps?.map ofScalar),
      ("bitrate", s.bitrate?.map .string), ("preset", s.preset?.map .string)] (by simp) ?_ ?_
    (fun r hr ↦ ?_) fun _ ↦ rfl
  · simp only [encode, Json.present_cons_map, Json.present_nil, List.append_assoc, List.append_nil]
  · simp only [List.forall_mem_cons]
    exact ⟨Json.fit_of_mem_map hwidth, Json.fit_of_mem_map hheight, Json.fit_of_mem_map hfps,
      Json.fit_of_mem_map hbitrate, Json.fit_of_mem_map hpreset, List.forall_mem_nil _⟩
  · simp only [hr.optional? "width" hwidth rfl (by simp) (by simp),
      hr.optional? "height" hheight rfl (by simp) (by simp),
      hr.optional? "fps" hfps rfl (by simp) (by simp),
      hr.optional? "bitrate" hbitrate rfl (by simp) (by simp),
      hr.optional? "preset" hpreset rfl (by simp) (by simp)]
    rfl

end OutputSettings

/-- A track is read back with its clips. -/
theorem Track.returns {t : Track α} (h : ∀ c ∈ t.clips, ∀ x ∈ c.numbers, ReadsBack x)
    (ht : ∀ c ∈ t.clips, c.IsStorable) : Returns α decode? encode 6 t := by
  have hid : ∀ s ∈ t.id?, Returns α string? .string 5 s := fun s _ ↦ returns_string s
  have hclips : Returns α (list? (Clip.decode? Project.clipLevel)) _ 5 t.clips :=
    returns_list fun c hc ↦ Clip.returns (by decide) (h c hc) (ht c hc)
  refine Record.returns ["id", "clips"]
    [("id", t.id?.map .string), ("clips", some (.array (t.clips.map Clip.encode)))] (by simp) ?_ ?_
    (fun r hr ↦ ?_) fun _ ↦ rfl
  · simp only [encode, Json.present_cons_some, Json.present_cons_map, Json.present_nil,
      List.append_nil]
  · simp only [List.forall_mem_cons, Option.mem_some_iff, forall_eq']
    exact ⟨Json.fit_of_mem_map hid, hclips.fit, List.forall_mem_nil _⟩
  · simp only [hr.optional? "id" hid rfl (by simp) (by simp),
      hr.withDefault? "clips" [] hclips (by simp) (by simp)]
    rfl

namespace Project

/-- The numbers of a project that may be fractions. -/
def numbers (p : Project α) : List α :=
  p.clips.flatMap Clip.numbers ++ p.outputSettings?.toList.flatMap OutputSettings.numbers

/-- The whole numbers of a project fit the words that hold them. -/
def IsStorable (p : Project α) : Prop :=
  (∀ c ∈ p.clips, c.IsStorable) ∧ ∀ s ∈ p.outputSettings?, s.IsStorable

instance : DecidablePred (IsStorable : Project α → Prop) := fun p ↦
  inferInstanceAs
    (Decidable ((∀ c ∈ p.clips, c.IsStorable) ∧ ∀ s ∈ p.outputSettings?, s.IsStorable))

/-- The document of a project is read as that project. -/
theorem returns {p : Project α} (h : ∀ x ∈ p.numbers, ReadsBack x) (hp : p.IsStorable) :
    Returns α decode? encode 8 p := by
  simp only [numbers, List.forall_mem_append, List.forall_mem_flatMap, Option.mem_toList] at h
  have htracks : Returns α (list? Track.decode?) _ 7 p.tracks :=
    returns_list fun t ht ↦ Track.returns
      (fun c hc ↦ h.1 c (List.mem_flatMap.2 ⟨t, ht, hc⟩))
      (fun c hc ↦ hp.1 c (List.mem_flatMap.2 ⟨t, ht, hc⟩))
  have hsettings : ∀ s ∈ p.outputSettings?,
      Returns α OutputSettings.decode? OutputSettings.encode 1 s :=
    fun s hs ↦ OutputSettings.returns (h.2 s hs) (hp.2 s hs)
  refine Record.returns ["tracks", "outputSettings"]
    [("tracks", some (.array (p.tracks.map Track.encode))),
      ("outputSettings", p.outputSettings?.map OutputSettings.encode)] (by simp) ?_ ?_
    (fun r hr ↦ ?_) fun _ ↦ rfl
  · simp only [encode, Json.present_cons_some, Json.present_cons_map, Json.present_nil,
      List.append_nil, List.cons_append, List.nil_append]
  · simp only [List.forall_mem_cons, Option.mem_some_iff, forall_eq']
    exact ⟨htracks.fit, fun value hvalue ↦ (Json.fit_of_mem_map hsettings value hvalue).mono
      (by simp), List.forall_mem_nil _⟩
  · simp only [hr.withDefault? "tracks" [] htracks (by simp) (by simp),
      hr.optional? "outputSettings" hsettings rfl (by simp) (by simp)]
    rfl

end Project

end Splice
