import Splice.Command.Request
import Splice.Render.Studio
import Splice.Timeline.File
import Splice.Tool.Engine

/-!
# Running commands

What the program prints and writes for each command, and the code with which it ends: `0` for
success, `1` for a failure, whose message goes to the standard error, and `2` for arguments that it
does not understand.
-/

namespace Splice

/-- A command either succeeds or fails with a message. -/
abbrev CommandT (m : Type → Type) := ExceptT String m

namespace Command

variable {m : Type → Type} [Monad m] (host : Host m)

/-- An action that cannot fail. -/
def always {β : Type} (action : m β) : CommandT m β := ExceptT.lift action

/-- Prints a line. -/
def printLine (text : String) : CommandT m Unit := always (host.print (text ++ "\n"))

/-- The result of an action, or its failure as the failure of the command. -/
def orFail {ε β : Type} (message : ε → String) (action : m (Except ε β)) : CommandT m β := do
  match ← always action with
  | .ok result => return result
  | .error e => throw (message e)

/-! ### Loading -/

/-- What a command on a project works with. -/
structure Inputs (m : Type → Type) (α : Type) where
  project : Project α
  media : Manifest
  storage : Storage m

/-- The directory around a file. -/
def directoryOf (path : Path) : Path := (path.parent?.filter (!·.text.isEmpty)).getD ⟨"."⟩

/-- The directory below which media are stored: the given one, else that of the manifest, else that
of the project. -/
def mediaRoot (files : ProjectFiles) : Path :=
  (files.mediaRoot?.or (files.media?.map directoryOf)).getD (directoryOf files.project)

/-- Reads the manifest, if there is one. -/
def loadMedia (path? : Option Path) : CommandT m Manifest :=
  match path? with
  | none => return {}
  | some path =>
    orFail (fun e ↦ "Failed to load media manifest " ++ path.text ++ "\n\nCaused by:\n    " ++
      e.message) (Manifest.load host path)

variable {α : Type} [Scalar α]

/-- Reads a project and its manifest. -/
def loadInputs (files : ProjectFiles) : CommandT m (Inputs m α) := do
  let project ← orFail (fun e ↦ "Failed to load project: " ++ e.message)
    (Project.load host files.project)
  let media ← loadMedia host files.media?
  return ⟨project, media, .folder host (mediaRoot files)⟩

/-- The studio on a host. -/
def studio (config : Config) (storage : Storage m) (report : Stage → m Unit) : Studio m α where
  engine := Tool.engine host config.tools
  storage := storage
  workspace := .ofHost host
  report := report

/-! ### Validating -/

/-- The failure to find what a clip plays. -/
def missingMedia (inputs : Inputs m α) (clip : Clip α) : m (Option Failure) := do
  let failureOf (found : Except Failure Path) : Option Failure := match found with
    | .ok _ => none
    | .error e => some e
  match clip.content with
  | .video media => return failureOf (← inputs.storage.source inputs.media media.sourceId)
  | .image media => return failureOf (← inputs.storage.asset inputs.media media.sourceId)
  | .audio audio =>
    if inputs.media.hasSource audio.sourceId then
      return failureOf (← inputs.storage.source inputs.media audio.sourceId)
    else return failureOf (← inputs.storage.asset inputs.media audio.sourceId)
  | .text _ => return none
  | .shape _ => return none

/-- The messages about media that are missing. -/
def missingMessages (inputs : Inputs m α) : m (List String) := do
  let found ← inputs.project.clips.mapM fun clip ↦ do
    return (← missingMedia inputs clip).map fun failure ↦
      "clip " ++ Text.quoted clip.id ++ ": " ++ failure.message
  return found.filterMap id

/-- The messages about a project and, if there is a manifest, about its media. -/
def allMessages (files : ProjectFiles) (inputs : Inputs m α) : m (List String) := do
  let own := inputs.project.issues.map Issue.message
  let empty := if inputs.project.isEmpty then ["project has no clips"] else []
  let missing ← if files.media?.isSome then missingMessages inputs else pure []
  return own ++ empty ++ missing

/-- Reports the faults of a project. -/
def runValidate (α : Type) [Scalar α] (files : ProjectFiles) : CommandT m Unit := do
  printLine host ("Validating project: " ++ files.project.text)
  let inputs : Inputs m α ← loadInputs host files
  printLine host ("  Tracks: " ++ toString inputs.project.tracks.length)
  printLine host ("  Clips: " ++ toString inputs.project.clipCount)
  printLine host ("  Timeline end: " ++ Scalar.fixed 3 inputs.project.timelineEnd ++ "s")
  let messages ← always (allMessages files inputs)
  if messages.isEmpty then printLine host "\nProject is valid."
  else
    printLine host "\nValidation issues:"
    messages.forM fun message ↦ printLine host ("  - " ++ message)
    throw (toString messages.length ++ " issue(s) found")

/-! ### Planning and rendering -/

/-- Prints what a render would do. -/
def runPlan (config : Config) (files : ProjectFiles) (settings : OutputSettings α) :
    CommandT m Unit := do
  let inputs ← loadInputs host files
  let planner : Studio m α := studio host config inputs.storage fun _ ↦ pure ()
  let composition ← orFail Failure.message (planner.plan inputs.project inputs.media settings)
  printLine host composition.encode.pretty

/-- Shows a stage in the line of progress. -/
def showStage (stage : Stage) : m Unit :=
  host.print ("\r  Stage: " ++ stage.title ++ String.ofList (List.replicate 20 ' '))

/-- Prints what a render amounts to. -/
def printReport (report : RenderReport α) : CommandT m Unit := do
  printLine host ""
  printLine host ("Render complete: " ++ report.output.text)
  printLine host ("  Canvas: " ++ toString report.canvas.width ++ "x" ++
    toString report.canvas.height ++ " @ " ++ Scalar.plain report.canvas.fps ++ " fps")
  printLine host ("  Duration: " ++ Scalar.fixed 3 report.duration ++ "s")
  printLine host ("  Base clips: " ++ toString report.baseClipCount ++ ", overlays: " ++
    toString report.overlayCount ++ ", audio clips: " ++ toString report.audioClipCount)
  match report.trace? with
  | some (path, _) => printLine host ("  Trace: " ++ path.text)
  | none => return ()

/-- Renders a project. -/
def runRender (config : Config) (files : ProjectFiles) (output : Path)
    (settings : OutputSettings α) (trace : Bool) (tempRoot? : Option Path) : CommandT m Unit := do
  printLine host ("Rendering project: " ++ files.project.text)
  let inputs ← loadInputs host files
  printLine host ("  Clips: " ++ toString inputs.project.clipCount)
  printLine host ("  Output: " ++ output.text)
  let configured ← always (config.tracesRenders host)
  let options : RenderOptions := ⟨trace || configured, tempRoot?.or config.render.tempRoot?⟩
  if !(← always (Tool.isAvailable host config.tools)) then
    throw ("ffmpeg/ffprobe not found. Install ffmpeg or set the backend paths in the config " ++
      "file.")
  let renderer : Studio m α := studio host config inputs.storage (showStage host)
  let run := renderer.render inputs.project inputs.media output settings options
  let report ← orFail Failure.message (StateT.run' run.run {})
  printReport host report

/-! ### The other commands -/

/-- Says whether the tools are there. -/
def runCheck (config : Config) : CommandT m Unit := do
  printLine host "Montage System Check"
  printLine host (String.ofList (List.replicate 50 '='))
  printLine host ("  ffmpeg:  " ++ config.tools.ffmpeg)
  printLine host ("  ffprobe: " ++ config.tools.ffprobe)
  printLine host ("  preset:  " ++ config.tools.videoPreset)
  printLine host ("  temp:    " ++ (← always (config.tempRoot host)).text)
  printLine host ""
  if ← always (Tool.isAvailable host config.tools) then
    printLine host ("[OK] Backend: " ++ Tool.name)
    printLine host "\nMontage is ready to render."
  else
    printLine host ("[MISSING] Backend: " ++ Tool.name)
    throw "ffmpeg/ffprobe could not be executed"

/-- Prints the configuration, and writes it to the standard file if that is asked for. -/
def runConfig (config : Config) (save : Bool) : CommandT m Unit := do
  printLine host config.text
  if save then
    orFail OsError.message (config.save host)
    printLine host ("\nSaved to " ++ (← always (Config.standardPath host)).text)

/-- Runs a command. -/
def run (config : Config) : Command α → CommandT m Unit
  | render files output settings trace tempRoot? =>
    runRender host config files output settings trace tempRoot?
  | plan files settings => runPlan host config files settings
  | validate files => runValidate host α files
  | check => runCheck host config
  | .config save => runConfig host config save

end Command

/-! ### The program -/

namespace Request

variable {m : Type → Type} [Monad m] (host : Host m) {α : Type} [Scalar α]

/-- The configuration for a request: the named file, or the standard one. -/
def configOf (request : Request α) : CommandT m Config := do
  let config ← match request.config? with
    | some path => Command.orFail Failure.message (Config.loadFile host α path)
    | none => Command.always (Config.load host α)
  return if request.verbose then { config with logging := { config.logging with level := "debug" } }
    else config

/-- Makes the log file, if one is configured. -/
def openLog (logging : LogConfig) : m Unit :=
  match logging.file? with
  | none => return ()
  | some path => do
    match path.parent? with
    | some around => let _ ← host.createDirs around
    | none => pure ()
    match ← host.ensureFile path with
    | .ok () => return ()
    | .error e =>
      host.printError ("montage: cannot open log file " ++ path.text ++ ": " ++ e.message ++ "\n")

/-- Answers a request. -/
def run (request : Request α) : CommandT m Unit := do
  let config ← configOf host request
  Command.always (openLog host config.logging)
  request.command.run host config

end Request

/-- The name and the version of the program. -/
def versionLine : String := "montage 0.1.0\n"

/-- A short description of the commands. -/
def usageText : String :=
  "Usage: montage [OPTIONS] <COMMAND>\n\n" ++
  "Commands:\n" ++
  "  render    Render a project to a video file\n" ++
  "  plan      Print the composition plan without rendering\n" ++
  "  validate  Validate a project and its media references\n" ++
  "  check     Check that the media backend is usable\n" ++
  "  config    Show the effective configuration\n"

/-- Runs the program, and gives the code with which it ends. -/
def runProgram {m : Type → Type} [Monad m] (host : Host m) (α : Type) [Scalar α]
    (arguments : List String) : m Nat := do
  match (Request.ofArguments arguments : Reading (Request α)) with
  | .help => host.print usageText; return 0
  | .version => host.print versionLine; return 0
  | .misuse => host.printError usageText; return 2
  | .done request =>
    match ← (request.run host).run with
    | .ok () => return 0
    | .error message => host.printError ("Error: " ++ message ++ "\n"); return 1

end Splice
