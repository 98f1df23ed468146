import Splice.Json.Basic
import Splice.Json.Parse
import Splice.Json.Print
import Splice.Json.Record
import Splice.Path
import Splice.Text.Blank

/-!
# Configuration

What a user sets once for all renders: the tools and their options, the place for intermediate
files, and logging. A document may leave out sections and, except for logging, single settings; what
it leaves out has its default.
-/

namespace Splice

open Json (Record string? bool? nat32?)

/-- The external tools and the options of encoding. -/
structure ToolConfig where
  ffmpeg : String := "ffmpeg"
  ffprobe : String := "ffprobe"
  videoPreset : String := "fast"
  silenceSampleRate : Nat := 44100
deriving DecidableEq, Repr

/-- The options of rendering. -/
structure RenderDefaults where
  tempRoot? : Option Path := none
  trace : Bool := false
deriving DecidableEq, Repr

/-- The options of logging. -/
structure LogConfig where
  level : String := "info"
  json : Bool := false
  file? : Option Path := none
deriving DecidableEq, Repr

/-- A configuration. -/
structure Config where
  tools : ToolConfig := {}
  render : RenderDefaults := {}
  logging : LogConfig := {}
deriving DecidableEq, Repr

/-! ### Documents -/

/-- Reads a path. -/
def Path.decode? (value : Json) : Option Path := value.string?.map Path.mk

/-- Reads the tools. The scalars only decide which literals are numbers. -/
def ToolConfig.decode? (α : Type) [Scalar α] (value : Json) : Option ToolConfig := do
  let standard : ToolConfig := {}
  let r ← Record.of? ["ffmpeg", "ffprobe", "video_preset", "silence_sample_rate"] value
  return {
    ffmpeg := ← r.withDefault? "ffmpeg" standard.ffmpeg string?
    ffprobe := ← r.withDefault? "ffprobe" standard.ffprobe string?
    videoPreset := ← r.withDefault? "video_preset" standard.videoPreset string?
    silenceSampleRate :=
      ← r.withDefault? "silence_sample_rate" standard.silenceSampleRate (nat32? α) }

/-- Reads the options of rendering. -/
def RenderDefaults.decode? (value : Json) : Option RenderDefaults := do
  let r ← Record.of? ["temp_root", "trace"] value
  return {
    tempRoot? := ← r.optional? "temp_root" Path.decode?
    trace := ← r.withDefault? "trace" false bool? }

/-- Reads the options of logging. -/
def LogConfig.decode? (value : Json) : Option LogConfig := do
  let r ← Record.of? ["level", "json", "file"] value
  return {
    level := ← r.required? "level" string?
    json := ← r.required? "json" bool?
    file? := ← r.nullable? "file" Path.decode? }

namespace Config

/-- Reads a configuration. -/
def decode? (α : Type) [Scalar α] (value : Json) : Option Config := do
  let r ← Record.of? ["backend", "render", "logging"] value
  return {
    tools := ← r.withDefault? "backend" {} (ToolConfig.decode? α)
    render := ← r.withDefault? "render" {} RenderDefaults.decode?
    logging := ← r.withDefault? "logging" {} LogConfig.decode? }

/-- Reads a configuration from its text. -/
def ofText? (α : Type) [Scalar α] (text : String) : Option Config :=
  (Json.parse? text).bind (decode? α)

/-- A path that may be left open, as a document. -/
def encodePath? (path? : Option Path) : Json := .ofOption (fun p : Path ↦ .string p.text) path?

/-- The document of a configuration. -/
def encode (c : Config) : Json :=
  .object [
    ("backend", .object [("ffmpeg", .string c.tools.ffmpeg), ("ffprobe", .string c.tools.ffprobe),
      ("video_preset", .string c.tools.videoPreset),
      ("silence_sample_rate", .ofNat c.tools.silenceSampleRate)]),
    ("render", .object [("temp_root", encodePath? c.render.tempRoot?),
      ("trace", .bool c.render.trace)]),
    ("logging", .object [("level", .string c.logging.level), ("json", .bool c.logging.json),
      ("file", encodePath? c.logging.file?)])]

/-- The text of a configuration. -/
def text (c : Config) : String := c.encode.pretty

end Config

/-! ### Switches -/

/-- Whether the value of an environment variable switches something on. -/
def isSwitchedOn (value : String) : Bool :=
  ["1", "true", "yes", "on"].contains (Text.nameKey value)

end Splice
