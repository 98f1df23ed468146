import Splice.Job.Graph

/-!
# Command lines of jobs

The arguments with which a command-line media engine does a job. The file that the job writes is the
last one.

Files are concatenated in two ways: their streams are copied, and where an engine refuses that, they
are encoded again. Both read the files from a list (`Job.fileList`).
-/

namespace Splice

open Scalar (numeral)

/-- What all jobs of one engine have in common. -/
structure EncoderOptions where
  videoPreset : String
  silenceSampleRate : Nat

namespace Job

/-! ### Lists of files -/

/-- A path as it stands in a list: between single quotes, with slashes for backslashes. -/
def listedPath (p : Path) : String :=
  let slashed := Quoting.replaceChar '\\' ['/'] p.text.toList
  Quoting.quote (String.ofList (Quoting.replaceChar '\'' ['\'', '\\', '\'', '\''] slashed))

/-- A list of files, one line each, by absolute paths. -/
def fileList (current : Path) (inputs : List Path) : String :=
  String.join <| inputs.map fun input ↦
    "file " ++ listedPath ((Path.absolute? current input).getD input) ++ "\n"

/-! ### Arguments -/

/-- How every command line begins. -/
def overwriting : List String := ["-y", "-hide_banner"]

/-- An input that a filter makes up. -/
def madeInput (source : String) : List String := ["-f", "lavfi", "-i", source]

/-- A list of files as an input. -/
def listInput (j : Concat) : List String := ["-f", "concat", "-safe", "0", "-i", j.listPath.text]

/-- The encoding of sound. -/
def audioCodec : List String := ["-c:a", "aac", "-movflags", "+faststart"]

/-- A list of steps under its option, unless there are none. -/
def chainOption (option : String) (steps : List String) : List String :=
  if steps.isEmpty then [] else [option, ",".intercalate steps]

variable {α : Type} [Scalar α] (o : EncoderOptions)

/-- The encoding of pictures. -/
def videoCodec (e : Encoding α) : List String :=
  ["-r", numeral e.fps, "-c:v", "libx264", "-preset", o.videoPreset, "-pix_fmt", "yuv420p"] ++
    match e.bitrate?.filter (!·.isEmpty) with
    | some bitrate => ["-b:v", bitrate]
    | none => []

/-- The encoding of pictures and sound. -/
def codecs (e : Encoding α) : List String := videoCodec o e ++ audioCodec

/-- The arguments of a job between the start of the command line and its output. -/
def innerArguments : Job α → List String
  | blank j =>
    madeInput (blackVideo j.width j.height j.encoding.fps j.duration) ++
      madeInput (silentSound o.silenceSampleRate j.duration) ++ ["-shortest"] ++
      codecs o j.encoding
  | segment j =>
    ["-ss", numeral j.seek, "-t", numeral j.sourceDuration, "-i", j.input.text] ++
      (if j.hasAudio then []
        else madeInput (silentSound o.silenceSampleRate j.outputDuration)) ++
      chainOption "-vf" (j.videoFilters.map VideoFilter.text) ++
      chainOption "-af" (j.audioFilters.map AudioFilter.text) ++
      ["-map", "0:v", "-map", if j.hasAudio then "0:a?" else "1:a"] ++ codecs o j.encoding
  | transition j =>
    ["-i", j.first.text, "-i", j.second.text, "-filter_complex",
      blendGraph j.style j.duration j.offset, "-map", "[v]", "-map", "[a]"] ++
      codecs o j.encoding
  | concat j => listInput j ++ ["-c", "copy"]
  | overlay j =>
    ["-i", j.base.text] ++
      (if j.isStill then ["-loop", "1", "-t", numeral (Scalar.max (j.stop - j.start) 0.0)]
        else []) ++
      ["-i", j.source.path.text, "-filter_complex", j.graph, "-map", "[v]", "-map", "0:a?"] ++
      codecs o j.encoding
  | text j =>
    ["-i", j.base.text, "-vf", j.filter, "-map", "0:v", "-map", "0:a?"] ++ codecs o j.encoding
  | audioTrim j =>
    ["-ss", numeral (Scalar.max j.start 0.0), "-t", numeral j.duration, "-i", j.input.text,
        "-vn"] ++
      chainOption "-af" (j.filters.map AudioFilter.text) ++ ["-c:a", "aac"]
  | audioMix j =>
    ["-i", j.base.text, "-i", j.audio.text, "-filter_complex", j.graph, "-map", "0:v", "-map",
      "[a]", "-c:v", "copy", "-c:a", "aac"]

/-- The arguments of a job. Files are concatenated by copying their streams. -/
def arguments (j : Job α) : List String := overwriting ++ innerArguments o j ++ [j.output.text]

/-- The arguments that concatenate files by encoding them again. -/
def Concat.encodingArguments (j : Concat) : List String :=
  overwriting ++ listInput j ++
    ["-c:v", "libx264", "-preset", o.videoPreset, "-pix_fmt", "yuv420p"] ++ audioCodec ++
    [j.output.text]

end Job

end Splice
