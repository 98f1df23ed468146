import Splice.Proofs.Timeline.ReadBack

/-!
# Projects that are read

What is known of a project because it has been read from a document, whatever the document: its
whole numbers fit their words, and its other numbers have any property of the numbers that
documents hold and of the few that stand for what is left out (`Project.yields`).

A reading `Yields` a property if everything that it reads has it. Such properties are carried from
the fields of a record to the record.
-/

namespace Splice

namespace Json

variable {β : Type} {read : Json → Option β} {P : β → Prop}

/-- What a chain of readings reads. -/
theorem bind_eq_some_iff {γ : Type} {x? : Option β} {f : β → Option γ} {y : γ} :
    (x? >>= f) = some y ↔ ∃ x, x? = some x ∧ f x = some y :=
  Option.bind_eq_some_iff

/-- Whatever is read has a property. -/
def Yields (read : Json → Option β) (P : β → Prop) : Prop :=
  ∀ value x, read value = some x → P x

/-- What is read from the items of an array has the property of what is read from one item. -/
theorem yields_list (h : Yields read P) : Yields (list? read) fun xs ↦ ∀ x ∈ xs, P x := by
  intro value xs hxs
  rw [list?.eq_def] at hxs
  split at hxs
  · rename_i items
    induction items generalizing xs with
    | nil =>
      obtain rfl := Option.some.inj hxs
      exact List.forall_mem_nil _
    | cons item rest ih =>
      simp only [List.mapM_cons, ↓bind_eq_some_iff] at hxs
      obtain ⟨x, hx, tail, htail, hcons⟩ := hxs
      obtain rfl := Option.some.inj hcons
      exact List.forall_mem_cons.2 ⟨h _ _ hx, ih _ htail⟩
  · cases hxs

/-- A reading that takes `null` for nothing yields what the reading under it does. -/
theorem yields_nullable (h : Yields read P) : Yields (nullable? read) fun x? ↦ ∀ x ∈ x?, P x := by
  intro value x? hx? x hx
  rw [nullable?.eq_def] at hx?
  split at hx?
  · cases hx?
    cases hx
  · obtain ⟨y, hy, rfl⟩ := Option.map_eq_some_iff.1 hx?
    rw [← Option.some.inj hx]
    exact h _ _ hy

namespace Record

variable {r : Record} {name : String}

/-- What is read of a field that must be there has the property. -/
theorem of_required? (h : Yields read P) {x : β} (hx : r.required? name read = some x) : P x := by
  obtain ⟨value, -, hread⟩ := Option.bind_eq_some_iff.1 hx
  exact h _ _ hread

/-- What is read of a field with a default has the property, if the default has it. -/
theorem of_withDefault? (h : Yields read P) {fallback x : β} (hfallback : P fallback)
    (hx : r.withDefault? name fallback read = some x) : P x := by
  rw [withDefault?] at hx
  split at hx
  · exact h _ _ hx
  · rwa [← Option.some.inj hx]

/-- What is read of a field that may be left out has the property, if it is there. -/
theorem of_optional? (h : Yields read P) {x? : Option β} (hx : r.optional? name read = some x?) :
    ∀ x ∈ x?, P x :=
  of_withDefault? (yields_nullable h) (fun _ hnone ↦ by cases hnone) hx

end Record

end Json

open Json (Yields Record scalar? yields_list)

variable {α : Type} [Scalar α] {P : α → Prop}

/-- A property of every number that a document holds, and of those that defaults are made of. -/
structure Documented (P : α → Prop) : Prop where
  yields : Yields scalar? P
  zero : P 0.0
  one : P 1.0
  hundred : P 100.0

/-! ### Parts of a clip -/

/-- A position that is read is documented number by number, its defaults included. -/
theorem Position.yields (h : Documented P) :
    Yields decode? fun p : Position α ↦ ∀ x ∈ p.numbers, P x := by
  intro value p hp
  simp only [decode?, ↓Json.bind_eq_some_iff, Option.pure_def,
    Option.some.injEq] at hp
  obtain ⟨r, -, x, hx, y, hy, rfl⟩ := hp
  simp only [numbers, List.forall_mem_cons]
  exact ⟨Record.of_withDefault? h.yields h.zero hx, Record.of_withDefault? h.yields h.zero hy,
    List.forall_mem_nil _⟩

/-- So is a size, where a side that is left out is the whole canvas. -/
theorem Size.yields (h : Documented P) :
    Yields decode? fun s : Size α ↦ ∀ x ∈ s.numbers, P x := by
  intro value s hs
  simp only [decode?, ↓Json.bind_eq_some_iff, Option.pure_def,
    Option.some.injEq] at hs
  obtain ⟨r, -, width, hwidth, height, hheight, rfl⟩ := hs
  simp only [numbers, List.forall_mem_cons]
  exact ⟨Record.of_withDefault? h.yields h.hundred hwidth,
    Record.of_withDefault? h.yields h.hundred hheight, List.forall_mem_nil _⟩

/-- So is a crop, where a length that is left out is the whole picture. -/
theorem Crop.yields (h : Documented P) :
    Yields decode? fun b : Crop α ↦ ∀ x ∈ b.numbers, P x := by
  intro value b hb
  simp only [decode?, ↓Json.bind_eq_some_iff, Option.pure_def,
    Option.some.injEq] at hb
  obtain ⟨r, -, x, hx, y, hy, width, hwidth, height, hheight, rfl⟩ := hb
  simp only [numbers, List.forall_mem_cons]
  exact ⟨Record.of_withDefault? h.yields h.zero hx, Record.of_withDefault? h.yields h.zero hy,
    Record.of_withDefault? h.yields h.one hwidth, Record.of_withDefault? h.yields h.one hheight,
    List.forall_mem_nil _⟩

/-- Effects hold only numbers of the document, since what is left out stays so. -/
theorem Effects.yields (h : Documented P) :
    Yields decode? fun e : Effects α ↦ ∀ x ∈ e.numbers, P x := by
  intro value e he
  simp only [decode?, ↓Json.bind_eq_some_iff, Option.pure_def,
    Option.some.injEq] at he
  obtain ⟨r, -, opacity, hopacity, brightness, hbrightness, contrast, hcontrast, saturation,
    hsaturation, gamma, hgamma, hue, hhue, blur, hblur, volume, hvolume, fadeIn, hfadeIn, fadeOut,
    hfadeOut, audioFadeIn, haudioFadeIn, audioFadeOut, haudioFadeOut, speed, hspeed, transition, -,
    transitionDuration, htransitionDuration, transitionWith, -, blendMode, -, rfl⟩ := he
  have hoptional {name : String} {x? : Option α} (hx : r.optional? name scalar? = some x?) :
      ∀ x ∈ x?.toList, P x :=
    fun x hmem ↦ Record.of_optional? h.yields hx x (Option.mem_toList.1 hmem)
  simp only [numbers, numberFields, List.forall_mem_flatMap, List.forall_mem_cons]
  exact ⟨hoptional hopacity, hoptional hbrightness, hoptional hcontrast, hoptional hsaturation,
    hoptional hgamma, hoptional hhue, hoptional hblur, hoptional hvolume, hoptional hfadeIn,
    hoptional hfadeOut, hoptional haudioFadeIn, hoptional haudioFadeOut, hoptional hspeed,
    hoptional htransitionDuration, List.forall_mem_nil _⟩

/-- The position of a keyframe holds only numbers of the document. -/
theorem PartialPosition.yields (h : Documented P) :
    Yields decode? fun p : PartialPosition α ↦ ∀ x ∈ p.numbers, P x := by
  intro value p hp
  simp only [decode?, ↓Json.bind_eq_some_iff, Option.pure_def,
    Option.some.injEq] at hp
  obtain ⟨r, -, x, hx, y, hy, rfl⟩ := hp
  simp only [numbers, List.forall_mem_append, Option.mem_toList]
  exact ⟨Record.of_optional? h.yields hx, Record.of_optional? h.yields hy⟩

theorem Keyframe.yields (h : Documented P) :
    Yields decode? fun k : Keyframe α ↦ ∀ x ∈ k.numbers, P x := by
  intro value k hk
  simp only [decode?, ↓Json.bind_eq_some_iff, Option.pure_def,
    Option.some.injEq] at hk
  obtain ⟨r, -, time, htime, absolute, -, position, hposition, opacity, hopacity, rfl⟩ := hk
  simp only [numbers, List.forall_mem_cons, List.forall_mem_append, List.forall_mem_flatMap,
    Option.mem_toList]
  exact ⟨Record.of_required? h.yields htime,
    Record.of_optional? (PartialPosition.yields h) hposition,
    Record.of_optional? h.yields hopacity⟩

/-! ### Kinds of clips -/

/-- A placement that is read is documented, also where its position and size are the default ones.
-/
theorem Look.of_ofMembers? (h : Documented P) {members : List (String × Json)} {v : Look α}
    (hv : ofMembers? members = some v) : ∀ x ∈ v.numbers, P x := by
  simp only [ofMembers?, ↓Json.bind_eq_some_iff, Option.pure_def,
    Option.some.injEq] at hv
  obtain ⟨r, -, position, hposition, size, hsize, rotation, hrotation, fitMode, -, crop, hcrop,
    effects, heffects, keyframes, hkeyframes, rfl⟩ := hv
  simp only [numbers, List.forall_mem_append, List.forall_mem_cons, List.forall_mem_flatMap,
    Option.mem_toList]
  refine ⟨Record.of_withDefault? (Position.yields h) ?_ hposition,
    Record.of_withDefault? (Size.yields h) ?_ hsize,
    Record.of_withDefault? h.yields h.zero hrotation, Record.of_optional? (Crop.yields h) hcrop,
    Record.of_withDefault? (Effects.yields h) (List.forall_mem_nil _) heffects,
    Record.of_withDefault? (yields_list (Keyframe.yields h)) (List.forall_mem_nil _) hkeyframes⟩
  · simp [Position.numbers, Position.origin, h.zero]
  · simp [Size.numbers, Size.full, h.hundred]

/-- A video or an image that is read is documented with its trims and its placement. -/
theorem MediaClip.of_ofMembers? (h : Documented P) {members : List (String × Json)}
    {m : MediaClip α} (hm : ofMembers? members = some m) : ∀ x ∈ m.numbers, P x := by
  simp only [ofMembers?, ↓Json.bind_eq_some_iff, Option.pure_def,
    Option.some.injEq] at hm
  obtain ⟨r, -, sourceId, -, trimStart, hstart, trimEnd, hend, look, hlook, rfl⟩ := hm
  simp only [numbers, List.forall_mem_cons, List.forall_mem_append, Option.mem_toList]
  exact ⟨Record.of_withDefault? h.yields h.zero hstart, Record.of_optional? h.yields hend,
    Look.of_ofMembers? h hlook⟩

/-- A text has no numbers beyond its placement, and neither has a shape. -/
theorem TextClip.of_ofMembers? (h : Documented P) {members : List (String × Json)}
    {t : TextClip α} (ht : ofMembers? members = some t) : ∀ x ∈ t.look.numbers, P x := by
  simp only [ofMembers?, ↓Json.bind_eq_some_iff, Option.pure_def,
    Option.some.injEq] at ht
  obtain ⟨r, -, text, -, label, -, color, -, look, hlook, rfl⟩ := ht
  exact Look.of_ofMembers? h hlook

theorem ShapeClip.of_ofMembers? (h : Documented P) {members : List (String × Json)}
    {s : ShapeClip α} (hs : ofMembers? members = some s) : ∀ x ∈ s.look.numbers, P x := by
  simp only [ofMembers?, ↓Json.bind_eq_some_iff, Option.pure_def,
    Option.some.injEq] at hs
  obtain ⟨r, -, style, -, label, -, look, hlook, rfl⟩ := hs
  exact Look.of_ofMembers? h hlook

/-- A sound that is read is documented with its trim and its effects. -/
theorem AudioClip.of_ofMembers? (h : Documented P) {members : List (String × Json)}
    {a : AudioClip α} (ha : ofMembers? members = some a) : ∀ x ∈ a.numbers, P x := by
  simp only [ofMembers?, ↓Json.bind_eq_some_iff, Option.pure_def,
    Option.some.injEq] at ha
  obtain ⟨r, -, sourceId, -, trimStart, hstart, effects, heffects, rfl⟩ := ha
  simp only [numbers, List.forall_mem_cons]
  exact ⟨Record.of_withDefault? h.yields h.zero hstart,
    Record.of_withDefault? (Effects.yields h) (List.forall_mem_nil _) heffects⟩

/-- What a clip consists of is documented, whatever kind it names. -/
theorem Content.of_ofMembers? (h : Documented P) {members : List (String × Json)}
    {c : Content α} (hc : ofMembers? members = some c) : ∀ x ∈ c.numbers, P x := by
  simp only [ofMembers?, ↓Json.bind_eq_some_iff] at hc
  obtain ⟨r, -, kind, -, hc⟩ := hc
  -- every kind is read by a reader of its own, from the same members
  cases kind with
  | video =>
    obtain ⟨media, hmedia, rfl⟩ := Option.map_eq_some_iff.1 hc
    exact MediaClip.of_ofMembers? h hmedia
  | image =>
    obtain ⟨media, hmedia, rfl⟩ := Option.map_eq_some_iff.1 hc
    exact MediaClip.of_ofMembers? h hmedia
  | text =>
    obtain ⟨t, ht, rfl⟩ := Option.map_eq_some_iff.1 hc
    exact TextClip.of_ofMembers? h ht
  | shape =>
    obtain ⟨s, hs, rfl⟩ := Option.map_eq_some_iff.1 hc
    exact ShapeClip.of_ofMembers? h hs
  | audio =>
    obtain ⟨a, ha, rfl⟩ := Option.map_eq_some_iff.1 hc
    exact AudioClip.of_ofMembers? h ha

/-! ### Whole numbers -/

namespace Json

/-- A whole number that is read is within bounds on both sides of zero, although each sign is
checked against one of them only. -/
theorem yields_intWithin {low high : ℤ} (hlow : low ≤ 0) (hhigh : 0 ≤ high) :
    Yields (intWithin? α low high) fun n ↦ low ≤ n ∧ n ≤ high := by
  intro value n hn
  rw [intWithin?.eq_def] at hn
  split at hn
  · split at hn
    · split_ifs at hn with hle
      rw [← Option.some.inj hn]
      omega
    · split_ifs at hn with hle
      rw [← Option.some.inj hn]
      omega
    · cases hn
  · cases hn

/-- A whole number that is read as a word of 32 bits fits it. -/
theorem yields_nat32 : Yields (nat32? α) fun n ↦ n < Word.count32 := by
  intro value n hn
  obtain ⟨i, hi, rfl⟩ := Option.map_eq_some_iff.1 hn
  have := yields_intWithin (by decide) (by decide) value i hi
  rw [Word.count32] at this ⊢
  omega

end Json

/-! ### Projects -/

/-- A clip that is read is documented, and its layer fits its word. -/
theorem Clip.yields (h : Documented P) (level : ℕ) :
    Yields (decode? level) fun c : Clip α ↦ (∀ x ∈ c.numbers, P x) ∧ c.IsStorable := by
  intro value c hc
  rw [decode?.eq_def] at hc
  split at hc
  · simp only [↓Json.bind_eq_some_iff, Option.pure_def] at hc
    obtain ⟨r, -, hc⟩ := hc
    split_ifs at hc with hothers
    simp only [↓Json.bind_eq_some_iff, Option.some.injEq] at hc
    obtain ⟨id, -, start, hstart, duration, hduration, layer, hlayer, group, -, content, hcontent,
      rfl⟩ := hc
    refine ⟨?_, Record.of_withDefault? (Json.yields_intWithin (by decide) (by decide)) (by decide)
      hlayer⟩
    simp only [numbers, List.forall_mem_cons]
    exact ⟨Record.of_withDefault? h.yields h.zero hstart,
      Record.of_required? h.yields hduration, Content.of_ofMembers? h hcontent⟩
  · cases hc

/-- A requested output format that is read is documented, and its sides fit their words. -/
theorem OutputSettings.yields (h : Documented P) :
    Yields decode? fun s : OutputSettings α ↦ (∀ x ∈ s.numbers, P x) ∧ s.IsStorable := by
  intro value s hs
  simp only [decode?, ↓Json.bind_eq_some_iff, Option.pure_def,
    Option.some.injEq] at hs
  obtain ⟨r, -, width, hwidth, height, hheight, fps, hfps, bitrate, -, preset, -, rfl⟩ := hs
  refine ⟨fun x hx ↦ Record.of_optional? h.yields hfps x (Option.mem_toList.1 hx), ?_⟩
  exact ⟨Record.of_optional? Json.yields_nat32 hwidth,
    Record.of_optional? Json.yields_nat32 hheight⟩

/-- All clips of a track that is read are documented and fit their words. -/
theorem Track.yields (h : Documented P) :
    Yields decode? fun t : Track α ↦ ∀ c ∈ t.clips, (∀ x ∈ c.numbers, P x) ∧ c.IsStorable := by
  intro value t ht
  simp only [decode?, ↓Json.bind_eq_some_iff, Option.pure_def,
    Option.some.injEq] at ht
  obtain ⟨r, -, id, -, clips, hclips, rfl⟩ := ht
  exact Record.of_withDefault? (yields_list (Clip.yields h _)) (List.forall_mem_nil _) hclips

/-- A project that is read is documented, and its whole numbers fit their words. -/
theorem Project.yields (h : Documented P) :
    Yields decode? fun p : Project α ↦ (∀ x ∈ p.numbers, P x) ∧ p.IsStorable := by
  intro value p hp
  simp only [decode?, ↓Json.bind_eq_some_iff, Option.pure_def,
    Option.some.injEq] at hp
  obtain ⟨r, -, tracks, htracks, settings, hsettings, rfl⟩ := hp
  have htracks := Record.of_withDefault? (yields_list (Track.yields h)) (List.forall_mem_nil _)
    htracks
  have hsettings := Record.of_optional? (OutputSettings.yields h) hsettings
  constructor
  · simp only [numbers, List.forall_mem_append, List.forall_mem_flatMap, Option.mem_toList, clips]
    exact ⟨fun t ht c hc ↦ (htracks t ht c hc).1, fun s hs ↦ (hsettings s hs).1⟩
  · simp only [IsStorable, clips, List.forall_mem_flatMap]
    exact ⟨fun t ht c hc ↦ (htracks t ht c hc).2, fun s hs ↦ (hsettings s hs).2⟩

end Splice
