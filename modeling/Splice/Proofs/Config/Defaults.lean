import Splice.Config.File
import Splice.Number.Binary64
import Splice.Proofs.Host.Files
import Splice.Proofs.Json.Records

/-!
# Configurations with members left out

A document of a configuration from which members are left out (`Config.Selection.prune`) is read as
the configuration in which what is left out has its default (`Config.Selection.fill`). Each field of
a record is found in what is kept of the record or has its default (`Record.withDefault?_keep`), so
this goes from fields to sections and from sections to the configuration.

There is one exception, since the level and the form of logging have to be there when the section
is: a document with the section but without one of them is refused (`LogConfig.decode?_keep`).
-/

namespace Splice

/-! ### Members left out -/

namespace Json

variable {keeps : String → Bool} {change : String → Json → Json}

/-- The members of some names, with other values. -/
def keptMembers (keeps : String → Bool) (change : String → Json → Json)
    (members : List (String × Json)) : List (String × Json) :=
  (members.filter fun member ↦ keeps member.1).map fun member ↦
    (member.1, change member.1 member.2)

/-- An object without the members of other names; another value as it is. -/
def keep (keeps : String → Bool) : Json → Json
  | object members => object (keptMembers keeps (fun _ value ↦ value) members)
  | value => value

theorem keptMembers_self (members : List (String × Json)) :
    keptMembers keeps (fun _ value ↦ value) members =
      members.filter fun member ↦ keeps member.1 := List.map_id' _

/-- Leaving out members and looking only at some names can be done in either order. -/
theorem filter_keptMembers (names : List String) (members : List (String × Json)) :
    (keptMembers keeps change members).filter (fun member ↦ names.contains member.1) =
      keptMembers keeps change (members.filter fun member ↦ names.contains member.1) := by
  rw [keptMembers, keptMembers, List.filter_map, List.filter_filter, List.filter_filter]
  exact congrArg _ (List.filter_congr fun _ _ ↦ Bool.and_comm _ _)

theorem map_fst_keptMembers (members : List (String × Json)) :
    (keptMembers keeps change members).map Prod.fst = (members.map Prod.fst).filter keeps := by
  rw [keptMembers, List.map_map, List.filter_map]
  rfl

theorem keptMembers_cons (name : String) (value : Json) (rest : List (String × Json)) :
    keptMembers keeps change ((name, value) :: rest) =
      if keeps name then (name, change name value) :: keptMembers keeps change rest
      else keptMembers keeps change rest := by
  rw [keptMembers, List.filter_cons]
  split_ifs <;> rfl

/-- A member is found if it is kept. -/
theorem lookup_keptMembers (members : List (String × Json)) (name : String) :
    (keptMembers keeps change members).lookup name =
      if keeps name then (members.lookup name).map (change name) else none := by
  induction members with
  | nil => exact (ite_self none).symm
  | cons member rest ih =>
    obtain ⟨other, value⟩ := member
    rw [keptMembers_cons]
    by_cases hname : name = other
    · subst hname
      cases hkeep : keeps name <;> simp [hkeep, ih]
    · have hskip (value : Json) (more : List (String × Json)) :
          ((other, value) :: more).lookup name = more.lookup name := by
        rw [List.lookup_cons, beq_eq_false_iff_ne.2 hname]
      rw [apply_ite (List.lookup name), hskip, hskip, ite_self, ih]

namespace Record

variable {β : Type} {names : List String} {members : List (String × Json)} {r : Record}
  {name : String} {read : Json → Option β}

/-- The record without the fields of other names, with other values. -/
def keep (keeps : String → Bool) (change : String → Json → Json) (r : Record) : Record :=
  ⟨r.isArray, keptMembers keeps change r.fields⟩

/-- A record has the members of its names, none of them twice. -/
theorem ofMembers?_eq_some (h : ofMembers? names members = some r) :
    r = ⟨false, members.filter fun member ↦ names.contains member.1⟩ ∧
      (r.fields.map Prod.fst).Nodup := by
  rw [ofMembers?] at h
  split_ifs at h with hnodup
  obtain rfl := Option.some.inj h
  exact ⟨rfl, hnodup⟩

/-- Where some of its members are left out, the record is read without their fields. -/
theorem ofMembers?_keptMembers (h : ofMembers? names members = some r) :
    ofMembers? names (keptMembers keeps change members) = some (r.keep keeps change) := by
  obtain ⟨rfl, hnodup⟩ := ofMembers?_eq_some h
  rw [ofMembers?, filter_keptMembers]
  refine if_pos ?_
  rw [map_fst_keptMembers]
  exact hnodup.filter _

/-- A field of the record is the member of that name. -/
theorem get?_of_ofMembers? (h : ofMembers? names members = some r) (hname : name ∈ names) :
    r.get? name = members.lookup name := by
  obtain ⟨rfl, -⟩ := ofMembers?_eq_some h
  rw [get?, ← keptMembers_self, lookup_keptMembers, if_pos (List.contains_iff_mem.2 hname),
    Option.map_id']

theorem get?_keep : (r.keep keeps change).get? name =
    if keeps name then (r.get? name).map (change name) else none :=
  lookup_keptMembers _ _

/-- A field that is left out has its default. -/
theorem withDefault?_keep {fallback x : β} (h : r.withDefault? name fallback read = some x) :
    (r.keep keeps fun _ value ↦ value).withDefault? name fallback read =
      some (if keeps name then x else fallback) := by
  rw [withDefault?, get?_keep, Option.map_id']
  split_ifs
  · exact h
  · rfl

theorem optional?_keep {x : Option β} (h : r.optional? name read = some x) :
    (r.keep keeps fun _ value ↦ value).optional? name read =
      some (if keeps name then x else none) := withDefault?_keep h

/-- A field that has to be there may not be left out. -/
theorem required?_keep {x : β} (h : r.required? name read = some x) :
    (r.keep keeps fun _ value ↦ value).required? name read =
      if keeps name then some x else none := by
  rw [required?, get?_keep, Option.map_id']
  split_ifs
  · exact h
  · rfl

/-- An object without some of its members is the record without their fields. -/
theorem of?_keep (keeps : String → Bool) {value : Json}
    (hvalue : ∃ members, value = .object members) (h : of? names value = some r) :
    of? names (value.keep keeps) = some (r.keep keeps fun _ value ↦ value) ∧ r.isArray = false := by
  obtain ⟨members, rfl⟩ := hvalue
  exact ⟨ofMembers?_keptMembers h, by rw [(ofMembers?_eq_some h).1]⟩

end Record

end Json

open Json (Record)

/-! ### Sections -/

variable {α : Type} [Scalar α] {keeps : String → Bool} {value : Json}

/-- The tools, with defaults for the fields of other names. -/
def ToolConfig.keep (keeps : String → Bool) (c : ToolConfig) : ToolConfig where
  ffmpeg := if keeps "ffmpeg" then c.ffmpeg else ({} : ToolConfig).ffmpeg
  ffprobe := if keeps "ffprobe" then c.ffprobe else ({} : ToolConfig).ffprobe
  videoPreset := if keeps "video_preset" then c.videoPreset else ({} : ToolConfig).videoPreset
  silenceSampleRate :=
    if keeps "silence_sample_rate" then c.silenceSampleRate
    else ({} : ToolConfig).silenceSampleRate

/-- The options of rendering, with defaults for the fields of other names. -/
def RenderDefaults.keep (keeps : String → Bool) (c : RenderDefaults) : RenderDefaults where
  tempRoot? := if keeps "temp_root" then c.tempRoot? else ({} : RenderDefaults).tempRoot?
  trace := if keeps "trace" then c.trace else ({} : RenderDefaults).trace

/-- The options of logging, with defaults for the fields of other names. -/
def LogConfig.keep (keeps : String → Bool) (c : LogConfig) : LogConfig where
  level := if keeps "level" then c.level else ({} : LogConfig).level
  json := if keeps "json" then c.json else ({} : LogConfig).json
  file? := if keeps "file" then c.file? else ({} : LogConfig).file?

/-- Tools that are left out have their defaults. -/
theorem ToolConfig.decode?_keep {c : ToolConfig} (hvalue : ∃ members, value = .object members)
    (h : decode? α value = some c) : decode? α (value.keep keeps) = some (c.keep keeps) := by
  simp only [decode?, Option.bind_eq_bind, Option.bind_eq_some_iff] at h
  obtain ⟨r, hr, ffmpeg, hffmpeg, ffprobe, hffprobe, preset, hpreset, rate, hrate, hc⟩ := h
  obtain rfl := Option.some.inj hc
  rw [decode?, (Record.of?_keep keeps hvalue hr).1]
  simp only [Option.bind_eq_bind, Option.bind_some, Record.withDefault?_keep hffmpeg,
    Record.withDefault?_keep hffprobe, Record.withDefault?_keep hpreset,
    Record.withDefault?_keep hrate]
  rfl

/-- Options of rendering that are left out have theirs. -/
theorem RenderDefaults.decode?_keep {c : RenderDefaults}
    (hvalue : ∃ members, value = .object members) (h : decode? value = some c) :
    decode? (value.keep keeps) = some (c.keep keeps) := by
  simp only [decode?, Option.bind_eq_bind, Option.bind_eq_some_iff] at h
  obtain ⟨r, hr, root, hroot, trace, htrace, hc⟩ := h
  obtain rfl := Option.some.inj hc
  rw [decode?, (Record.of?_keep keeps hvalue hr).1]
  simp only [Option.bind_eq_bind, Option.bind_some, Record.optional?_keep hroot,
    Record.withDefault?_keep htrace]
  rfl

/-- The level and the form of logging may not be left out. -/
theorem LogConfig.decode?_keep {c : LogConfig} (hvalue : ∃ members, value = .object members)
    (h : decode? value = some c) : decode? (value.keep keeps) =
      if keeps "level" ∧ keeps "json" then some (c.keep keeps) else none := by
  simp only [decode?, Option.bind_eq_bind, Option.bind_eq_some_iff] at h
  obtain ⟨r, hr, level, hlevel, json, hjson, file, hfile, hc⟩ := h
  obtain rfl := Option.some.inj hc
  obtain ⟨hkeep, hisArray⟩ := Record.of?_keep keeps hvalue hr
  have hnullable (r : Record) (hr : r.isArray = false) :
      r.nullable? "file" Path.decode? = r.optional? "file" Path.decode? := by
    rw [Record.nullable?, hr]
    rfl
  rw [hnullable r hisArray] at hfile
  rw [decode?, hkeep]
  simp only [Option.bind_eq_bind, Option.bind_some, Record.required?_keep hlevel,
    Record.required?_keep hjson, hnullable (r.keep keeps _) hisArray, Record.optional?_keep hfile]
  cases hkeepsLevel : keeps "level" <;> cases hkeepsJson : keeps "json" <;>
    simp [LogConfig.keep, hkeepsLevel, hkeepsJson]

/-! ### Documents -/

namespace Config

/-- Which members of a document are kept: some sections, and some fields of each of them. -/
structure Selection where
  keepsSection : String → Bool
  keepsField : String → String → Bool

namespace Selection

/-- The document without the members that are not kept. -/
def prune (s : Selection) : Json → Json
  | .object members =>
    .object (Json.keptMembers s.keepsSection (fun name value ↦ value.keep (s.keepsField name))
      members)
  | value => value

/-- The configuration with defaults for what is not kept. -/
def fill (s : Selection) (c : Config) : Config where
  tools := if s.keepsSection "backend" then c.tools.keep (s.keepsField "backend") else {}
  render := if s.keepsSection "render" then c.render.keep (s.keepsField "render") else {}
  logging := if s.keepsSection "logging" then c.logging.keep (s.keepsField "logging") else {}

/-- Whether the level and the form of logging are kept, if the section is. -/
def KeepsLogging (s : Selection) : Prop :=
  s.keepsSection "logging" = true →
    s.keepsField "logging" "level" = true ∧ s.keepsField "logging" "json" = true

instance (s : Selection) : Decidable s.KeepsLogging := inferInstanceAs (Decidable (_ → _))

end Selection

/-- A document with all its sections, each of which is an object. -/
def HasSections (value : Json) : Prop :=
  ∃ members, value = .object members ∧ ∀ name ∈ ["backend", "render", "logging"],
    ∃ fields, members.lookup name = some (.object fields)

/-- The standard values count for a section that is left out. -/
theorem withDefault?_prune {β : Type} {r : Record} {name : String} {read : Json → Option β}
    {v : Json} {kept? : Option β} (s : Selection) (fallback : β) (hv : r.get? name = some v)
    (hread : read (v.keep (s.keepsField name)) = kept?) :
    (r.keep s.keepsSection fun name value ↦ value.keep (s.keepsField name)).withDefault? name
      fallback read = if s.keepsSection name then kept? else some fallback := by
  rw [Record.withDefault?, Record.get?_keep, hv, Option.map_some]
  split_ifs
  · exact hread
  · rfl

/-- What is left of a document is filled with defaults, or refused for what logging lacks. -/
theorem decode?_prune {c : Config} (hvalue : HasSections value) (h : decode? α value = some c)
    (s : Selection) :
    decode? α (s.prune value) = if s.KeepsLogging then some (s.fill c) else none := by
  obtain ⟨members, rfl, hsections⟩ := hvalue
  simp only [decode?, Option.bind_eq_bind, Option.bind_eq_some_iff] at h
  obtain ⟨r, hr, tools, htools, render, hrender, logging, hlogging, hc⟩ := h
  obtain rfl := Option.some.inj hc
  have hget (name : String) (hname : name ∈ ["backend", "render", "logging"]) :
      ∃ fields, r.get? name = some (.object fields) := by
    rw [Record.get?_of_ofMembers? hr hname]
    exact hsections name hname
  obtain ⟨toolFields, htoolFields⟩ := hget "backend" (by decide)
  obtain ⟨renderFields, hrenderFields⟩ := hget "render" (by decide)
  obtain ⟨logFields, hlogFields⟩ := hget "logging" (by decide)
  rw [Record.withDefault?, htoolFields] at htools
  rw [Record.withDefault?, hrenderFields] at hrender
  rw [Record.withDefault?, hlogFields] at hlogging
  -- a section that is left out has its default, and one that is kept is read from what is left of
  -- it
  have hpruned : Record.of? ["backend", "render", "logging"] (s.prune (.object members)) =
      some (r.keep s.keepsSection fun name value ↦ value.keep (s.keepsField name)) :=
    Record.ofMembers?_keptMembers hr
  rw [decode?, hpruned]
  simp only [Option.bind_eq_bind, Option.bind_some,
    withDefault?_prune s {} htoolFields (ToolConfig.decode?_keep ⟨_, rfl⟩ htools),
    withDefault?_prune s {} hrenderFields (RenderDefaults.decode?_keep ⟨_, rfl⟩ hrender),
    withDefault?_prune s {} hlogFields (LogConfig.decode?_keep ⟨_, rfl⟩ hlogging), ← apply_ite some]
  -- the fields of logging have no defaults, so this section alone can be refused
  by_cases hkept : s.keepsSection "logging" = true
  · have hiff : s.KeepsLogging ↔
        s.keepsField "logging" "level" = true ∧ s.keepsField "logging" "json" = true :=
      forall_prop_of_true hkept
    rw [if_pos hkept, if_congr hiff rfl rfl, Selection.fill, if_pos hkept]
    split_ifs <;> rfl
  · have hlogging : s.KeepsLogging := fun h ↦ absurd h hkept
    rw [if_neg hkept, if_pos hlogging, Selection.fill, if_neg hkept]
    rfl

end Config

/-! ### Saved configurations -/

/-- The document of the tools. -/
def ToolConfig.encode (c : ToolConfig) : Json :=
  .object [("ffmpeg", .string c.ffmpeg), ("ffprobe", .string c.ffprobe),
    ("video_preset", .string c.videoPreset), ("silence_sample_rate", .ofNat c.silenceSampleRate)]

/-- The document of the options of rendering. -/
def RenderDefaults.encode (c : RenderDefaults) : Json :=
  .object [("temp_root", Config.encodePath? c.tempRoot?), ("trace", .bool c.trace)]

/-- The document of the options of logging. -/
def LogConfig.encode (c : LogConfig) : Json :=
  .object [("level", .string c.level), ("json", .bool c.json),
    ("file", Config.encodePath? c.file?)]

/-- The document of a configuration has one section for each of its parts. -/
theorem Config.encode_eq (c : Config) : c.encode = .object [("backend", c.tools.encode),
    ("render", c.render.encode), ("logging", c.logging.encode)] := rfl

theorem returns_path? {limit : ℕ} (path? : Option Path) :
    Json.Returns α (Json.nullable? Path.decode?) Config.encodePath? limit path? := by
  cases path? with
  | none => exact ⟨rfl, trivial, rfl, Nat.zero_le _⟩
  | some path => exact ⟨rfl, trivial, rfl, Nat.zero_le _⟩

/-- The tools are read back from their section, if the sample rate fits its word. -/
theorem ToolConfig.returns {c : ToolConfig} (h : c.silenceSampleRate < Word.count32) :
    Json.Returns α (decode? α) encode 1 c := by
  have hffmpeg : Json.Returns α Json.string? .string 0 c.ffmpeg := Json.returns_string _
  have hffprobe : Json.Returns α Json.string? .string 0 c.ffprobe := Json.returns_string _
  have hpreset : Json.Returns α Json.string? .string 0 c.videoPreset := Json.returns_string _
  have hrate : Json.Returns α (Json.nat32? α) .ofNat 0 c.silenceSampleRate := Json.returns_nat32 h
  refine Record.returns ["ffmpeg", "ffprobe", "video_preset", "silence_sample_rate"]
    [("ffmpeg", some (.string c.ffmpeg)), ("ffprobe", some (.string c.ffprobe)),
      ("video_preset", some (.string c.videoPreset)),
      ("silence_sample_rate", some (.ofNat c.silenceSampleRate))]
    (by simp) rfl ?_ (fun r hr ↦ ?_) fun _ ↦ rfl
  · simp only [List.forall_mem_cons, Option.mem_some_iff, forall_eq']
    exact ⟨hffmpeg.fit, hffprobe.fit, hpreset.fit, hrate.fit, List.forall_mem_nil _⟩
  · simp only [hr.withDefault? "ffmpeg" _ hffmpeg (by simp) (by simp),
      hr.withDefault? "ffprobe" _ hffprobe (by simp) (by simp),
      hr.withDefault? "video_preset" _ hpreset (by simp) (by simp),
      hr.withDefault? "silence_sample_rate" _ hrate (by simp) (by simp)]
    rfl

/-- So are the options of rendering. -/
theorem RenderDefaults.returns (c : RenderDefaults) :
    Json.Returns α decode? encode 1 c := by
  have hroot : Json.Returns α (Json.nullable? Path.decode?) Config.encodePath? 0 c.tempRoot? :=
    returns_path? _
  have htrace : Json.Returns α Json.bool? .bool 0 c.trace := Json.returns_bool _
  refine Record.returns ["temp_root", "trace"]
    [("temp_root", some (Config.encodePath? c.tempRoot?)), ("trace", some (.bool c.trace))]
    (by simp) rfl ?_ (fun r hr ↦ ?_) fun _ ↦ rfl
  · simp only [List.forall_mem_cons, Option.mem_some_iff, forall_eq']
    exact ⟨hroot.fit, htrace.fit, List.forall_mem_nil _⟩
  · simp only [Record.optional?, hr.withDefault? "temp_root" _ hroot (by simp) (by simp),
      hr.withDefault? "trace" _ htrace (by simp) (by simp)]
    rfl

/-- And those of logging. -/
theorem LogConfig.returns (c : LogConfig) : Json.Returns α decode? encode 1 c := by
  have hlevel : Json.Returns α Json.string? .string 0 c.level := Json.returns_string _
  have hjson : Json.Returns α Json.bool? .bool 0 c.json := Json.returns_bool _
  have hfile : Json.Returns α (Json.nullable? Path.decode?) Config.encodePath? 0 c.file? :=
    returns_path? _
  refine Record.returns ["level", "json", "file"]
    [("level", some (.string c.level)), ("json", some (.bool c.json)),
      ("file", some (Config.encodePath? c.file?))]
    (by simp) rfl ?_ (fun r hr ↦ ?_) fun _ ↦ rfl
  · simp only [List.forall_mem_cons, Option.mem_some_iff, forall_eq']
    exact ⟨hlevel.fit, hjson.fit, hfile.fit, List.forall_mem_nil _⟩
  · -- the place of the log is there, so it does not matter that it may be left out of an object
    have hplace : r.nullable? "file" Path.decode? = some c.file? := by
      rw [Record.nullable?, Record.optional?, hr.required? "file" hfile (by simp) (by simp),
        hr.withDefault? "file" _ hfile (by simp) (by simp), ite_self]
    simp only [hr.required? "level" hlevel (by simp) (by simp),
      hr.required? "json" hjson (by simp) (by simp), hplace]
    rfl

namespace Config

/-- Whether the words of a configuration hold its numbers. -/
def IsStorable (c : Config) : Prop := c.tools.silenceSampleRate < Word.count32

instance (c : Config) : Decidable c.IsStorable := inferInstanceAs (Decidable (_ < _))

/-- A configuration is read back from its document. -/
theorem returns {c : Config} (h : c.IsStorable) : Json.Returns α (decode? α) encode 2 c := by
  have htools : Json.Returns α (ToolConfig.decode? α) ToolConfig.encode 1 c.tools :=
    ToolConfig.returns h
  have hrender := RenderDefaults.returns (α := α) c.render
  have hlogging := LogConfig.returns (α := α) c.logging
  refine Record.returns ["backend", "render", "logging"]
    [("backend", some c.tools.encode), ("render", some c.render.encode),
      ("logging", some c.logging.encode)]
    (by simp) c.encode_eq ?_ (fun r hr ↦ ?_) fun _ ↦ rfl
  · simp only [List.forall_mem_cons, Option.mem_some_iff, forall_eq']
    exact ⟨htools.fit, hrender.fit, hlogging.fit, List.forall_mem_nil _⟩
  · simp only [hr.withDefault? "backend" _ htools (by simp) (by simp),
      hr.withDefault? "render" _ hrender (by simp) (by simp),
      hr.withDefault? "logging" _ hlogging (by simp) (by simp)]
    rfl

/-- And from the text of the document. -/
theorem ofText?_text {c : Config} (h : c.IsStorable) : ofText? α c.text = some c := by
  have hreturns := returns (α := α) h
  rw [ofText?, text, Json.parse?_pretty hreturns.fit.wellFormed, Option.bind_some,
    hreturns.read_encode]

/-! ### Files -/

section Files

variable {σ : Type} {host : Host (StateM σ)} {path : Path} {s s' : σ}

/-- A file is loaded by reading its text. -/
theorem fst_loadFile_of_readText {file : String} (h : (host.readText path s).1 = .ok file) :
    (loadFile host α path s).1 = match ofText? α file with
      | some c => .ok c
      | none => .error (.config
          ("cannot parse " ++ path.text ++ ": " ++ Failure.unreadable.message)) := by
  rw [loadFile]
  simp only [bind, StateT.bind]
  rcases hread : host.readText path s with ⟨result, t⟩
  obtain rfl : result = .ok file := by rw [← h, hread]
  dsimp only
  cases ofText? α file <;> rfl

/-- The standard file has the text of the configuration that was saved. -/
theorem readText_of_save {c : Config} (hhost : host.KeepsTexts)
    (h : save host c s = (.ok (), s')) :
    (host.readText (standardPath host s).1 s').1 = .ok c.text := by
  rcases hpath : standardPath host s with ⟨path, t⟩
  rw [save] at h
  simp only [bind, StateT.bind, hpath] at h
  cases hparent : path.parent? with
  | none =>
    rw [hparent] at h
    exact hhost path c.text t s' h
  | some around =>
    rw [hparent] at h
    rcases hprepared : host.createDirs around t with ⟨prepared, t'⟩
    simp only [StateT.bind, bind, hprepared] at h
    cases prepared with
    | error e => cases (Prod.mk.inj h).1
    | ok u => exact hhost path c.text t' s' h

end Files

/-- How the documents are read that are left when members are taken out of one. -/
structure FillsDefaults (α : Type) [Scalar α] (value : Json) (c : Config) : Prop where
  /-- What is taken out has its default, unless it is one of the two fields of logging that have to
  be there. -/
  loadFile_eq : ∀ (kept : Selection) {σ : Type} (host : Host (StateM σ)) (path : Path) (s : σ)
    (file : String), (host.readText path s).1 = .ok file →
      Json.parse? file = some (kept.prune value) →
        (loadFile host α path s).1 =
          if kept.KeepsLogging then .ok (kept.fill c)
          else .error (.config ("cannot parse " ++ path.text ++ ": " ++
            Failure.unreadable.message))

/-- What is read of a configuration's text is the configuration. -/
structure IsKept (α : Type) [Scalar α] (c : Config) : Prop where
  ofText?_text : ofText? α c.text = some c
  /-- The standard file is read as the configuration that was saved, on hosts that keep texts. -/
  loadFile_save : ∀ {σ : Type} (host : Host (StateM σ)) (s s' : σ), host.KeepsTexts →
    save host c s = (.ok (), s') →
      (loadFile host α (standardPath host s).1 s').1 = .ok c

/-- What is left of a configuration's document is filled with defaults, if it keeps the level and
the form of logging wherever it keeps logging; and a configuration is read back from its text. -/
theorem fillsDefaults {c : Config} (hvalue : HasSections value) (h : decode? α value = some c) :
    FillsDefaults α value c ∧ ∀ saved : Config, saved.IsStorable → saved.IsKept α := by
  refine ⟨⟨fun kept σ host path s file hfile hparse ↦ ?_⟩, fun saved hsaved ↦ ?_⟩
  · have hread : ofText? α file = if kept.KeepsLogging then some (kept.fill c) else none := by
      rw [ofText?, hparse, Option.bind_some, decode?_prune hvalue h]
    rw [fst_loadFile_of_readText hfile, hread]
    split_ifs <;> rfl
  · refine ⟨ofText?_text hsaved, fun host s s' hhost hsave ↦ ?_⟩
    rw [fst_loadFile_of_readText (readText_of_save hhost hsave), ofText?_text hsaved]

/-- A configuration with no setting at its default. -/
def sample : Config where
  tools := ⟨"/opt/ffmpeg/bin/ffmpeg", "/opt/ffmpeg/bin/ffprobe", "medium", 48000⟩
  render := ⟨some ⟨"/scratch"⟩, true⟩
  logging := ⟨"debug", true, some ⟨"/var/log/montage.log"⟩⟩

theorem hasSections_sample : HasSections sample.encode :=
  ⟨_, rfl, by simp [List.lookup_cons]⟩

/-- Without one of its tools, the sample has the standard one. -/
theorem fillsDefaults_sample : HasSections sample.encode ∧
    decode? Float sample.encode = some sample ∧ FillsDefaults Float sample.encode sample ∧
      sample.IsStorable ∧ sample.IsKept Float ∧
        (Selection.mk (fun _ ↦ true) (fun _ name ↦ name != "ffprobe")).fill sample =
          { sample with tools := { sample.tools with ffprobe := "ffprobe" } } := by
  have hdecode : decode? Float sample.encode = some sample := by decide +kernel
  have hfills := fillsDefaults hasSections_sample hdecode
  exact ⟨hasSections_sample, hdecode, hfills.1, by decide, hfills.2 sample (by decide), by decide⟩

/-- Without the level of logging, the whole document is refused. -/
theorem decode?_prune_level : HasSections sample.encode ∧
    decode? Float sample.encode = some sample ∧
      decode? Float ((Selection.mk (fun _ ↦ true) (fun _ name ↦ name != "level")).prune
        sample.encode) = none :=
  ⟨hasSections_sample, by decide +kernel, by decide +kernel⟩

end Config

end Splice
