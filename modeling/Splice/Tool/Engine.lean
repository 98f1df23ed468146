import Splice.Config.Basic
import Splice.Job.Arguments
import Splice.Media.Report
import Splice.Render.Session

/-!
# The command-line engine

The media engine that does every job by one call of an external tool, and looks at media files with
another one. Only files are concatenated in more steps: a list of them is written first, and if the
tool cannot copy their streams it encodes them again.
-/

namespace Splice

/-- The options of encoding. -/
def ToolConfig.encoderOptions (config : ToolConfig) : EncoderOptions :=
  ⟨config.videoPreset, config.silenceSampleRate⟩

namespace Tool

variable {m : Type → Type} [Monad m] (host : Host m) (config : ToolConfig)

/-- The name of the engine. -/
def name : String := "ffmpeg"

/-! ### Calls -/

/-- The failure to start a program. -/
def cannotStart (program operation : String) : OsError → Failure
  | .notFound => .unavailable (program ++ " is not installed")
  | e => .ofDiagnostic operation ("Failed to start " ++ program ++ ": " ++ e.message)

/-- What a program said on its standard error. -/
def diagnosticOf (finished : Finished) : String :=
  finished.errors?.getD ("<failed to read stderr: " ++ OsError.notUnicode.message ++ ">")

/-- The output of a program that succeeded. -/
def outputOf (operation : String) (finished : Finished) : Except Failure String :=
  match finished.output? with
  | none =>
    .error (.ofDiagnostic operation ("Failed reading output: " ++ OsError.notUnicode.message))
  | some output =>
    if finished.succeeded then .ok output
    else .error (.ofDiagnostic operation (diagnosticOf finished))

/-- Runs a program for an operation, and gives its output. -/
def call (program : String) (arguments : List String) (operation : String) :
    m (Except Failure String) := do
  match ← host.spawn program arguments with
  | .error e => return .error (cannotStart program operation e)
  | .ok finished => return outputOf operation finished

/-! ### Jobs -/

variable {α : Type} [Scalar α]

/-- Runs the encoding tool for an operation. -/
def encode (arguments : List String) (operation : String) : m (Except Failure Unit) := do
  return (← call host config.ffmpeg arguments operation).map fun _ ↦ ()

/-- Concatenates files by copying their streams, or else by encoding them again. -/
def concatByList (α : Type) [Scalar α] (job : Job.Concat) : m (Except Failure Unit) := do
  let options := config.encoderOptions
  match ← encode host config (Job.arguments options (Job.concat job : Job α)) "concat" with
  | .error (.engine ..) => encode host config (Job.Concat.encodingArguments options job) "concat"
  | outcome => return outcome

/-- Concatenates files. The list of files is removed afterwards. -/
def concat (α : Type) [Scalar α] (job : Job.Concat) : m (Except Failure Unit) := do
  match ← host.writeText job.listPath (Job.fileList (← host.currentDir) job.inputs) with
  | .error e =>
    return .error (.resource
      ("Failed to write concat list " ++ job.listPath.text ++ ": " ++ e.message))
  | .ok () =>
    let outcome ← concatByList host config α job
    let _ ← host.removeFile job.listPath
    return outcome

/-- Does a job. -/
def run (job : Job α) : m (Except Failure Unit) :=
  match job with
  | .concat job => concat host config α job
  | job => encode host config (Job.arguments config.encoderOptions job) job.operation

/-! ### Probes -/

/-- The arguments that ask for a report on a file. -/
def probeArguments (path : Path) : List String :=
  ["-v", "quiet", "-print_format", "json", "-show_format", "-show_streams", path.text]

/-- Looks at a media file. -/
def probe (path : Path) : m (Except Failure (MediaInfo α)) := do
  match ← call host config.ffprobe (probeArguments path) "probe" with
  | .error e => return .error (.probe path e.message)
  | .ok report =>
    match MediaInfo.ofReport? report with
    | some info => return .ok info
    | none =>
      return .error (.probe path
        ("Unreadable ffprobe output: " ++ Failure.unreadable.message))

/-- The engine. -/
def engine : Engine m α := ⟨run host config, probe host config⟩

/-- Whether both tools are there. -/
def isAvailable : m Bool := do
  if ← host.hasCommand config.ffmpeg then host.hasCommand config.ffprobe else return false

end Tool

end Splice
