import Splice.Config.File
import Splice.Render.Painting
import Splice.Render.Assembly
import Splice.Render.Trace
import Splice.Timeline.Validation

/-!
# Studios

A whole render, from a project to a published file. A studio has an engine, a storage and a
workspace for intermediate files; `Studio.plan` says what it would do, and `Studio.render` does it,
stage by stage.

Nothing is probed, run or written before the project and the settings have passed validation. The
directory for intermediate files is removed at the end of every render, whether or not it
succeeded.
-/

namespace Splice

/-- A place for intermediate files and for the trace. -/
structure Workspace (m : Type → Type) where
  /-- Makes a fresh directory, below the given one or at the usual place. -/
  openDir : Option Path → m (Except Failure Path)
  /-- Removes such a directory with everything in it. -/
  closeDir : Path → m Unit
  /-- Draws a picture into a file. -/
  draw : Path → Picture → m (Except Failure Unit)
  /-- Writes a text into a file. -/
  write : Path → String → m (Except Failure Unit)

/-- What a render needs. -/
structure Studio (m : Type → Type) (α : Type) where
  /-- The engine that does the jobs. -/
  engine : Engine m α
  /-- Access to the media and to the place of the result. -/
  storage : Storage m
  /-- The place for intermediate files. -/
  workspace : Workspace m
  /-- Takes notice of every stage. -/
  report : Stage → m Unit

/-- The options of a render. -/
structure RenderOptions where
  trace : Bool := false
  tempRoot? : Option Path := none

/-- What a successful render amounts to. -/
structure RenderReport (α : Type) where
  output : Path
  duration : α
  canvas : Canvas α
  clipCount : Nat
  baseClipCount : Nat
  overlayCount : Nat
  audioClipCount : Nat
  trace? : Option (Path × Trace α)

/-! ### Workspaces -/

namespace Workspace

variable {m : Type → Type} [Monad m] (host : Host m)

/-- Makes a fresh directory on a host. -/
def makeDir (root? : Option Path) : m (Except Failure Path) := do
  let root ← match root? with
    | some root => pure root
    | none => Config.tempDir host
  match ← host.createDirs root with
  | .error e =>
    return .error (.resource
      ("Failed to create temp root " ++ root.text ++ ": " ++ e.message))
  | .ok () =>
    match ← host.createScratch root "montage-render-" with
    | .error e =>
      return .error (.resource ("Failed to create working directory: " ++ e.message))
    | .ok path => return .ok path

/-- The workspace on a host. -/
def ofHost : Workspace m where
  openDir := makeDir host
  closeDir := host.removeTree
  draw path picture := do
    return (← host.writePicture path picture).mapError fun e ↦
      .resource ("Failed to write shape " ++ path.text ++ ": " ++ e.message)
  write path text := do return (← host.writeText path text).mapError .os

end Workspace

/-! ### Validation -/

/-- The messages of all faults of a project and of settings that override its own. A message stands
only once. -/
def Project.faults {α : Type} [Scalar α] (project : Project α) (settings : OutputSettings α) :
    List String :=
  let messages := project.issues.map Issue.message
  messages ++ (settings.issues.map Issue.message).filter (!messages.contains ·)

/-- Refuses a project without clips or with faults. -/
def Project.check {α : Type} [Scalar α] (project : Project α) (settings : OutputSettings α) :
    Except Failure Unit :=
  if project.isEmpty then .error .emptyProject
  else if (project.faults settings).isEmpty then .ok ()
  else .error (.invalid ("; ".intercalate (project.faults settings)))

/-- What the first video of a project plays. -/
def Project.firstVideo? {α : Type} (project : Project α) : Option (MediaClip α) :=
  project.clips.findSome? Clip.video?

namespace Studio

open RenderT (observe perform record)

variable {m : Type → Type} [Monad m] {α : Type} [Scalar α] (studio : Studio m α)

/-! ### Planning -/

/-- The facts about a media file, if it can be looked at. -/
def inspect (path : Path) : m (Option (MediaInfo α)) := do
  return (← studio.engine.probe path).toOption

/-- The canvas for a project. The file of the first video has to be there, even if it is not looked
at. -/
def canvas (project : Project α) (media : Manifest) (settings : OutputSettings α) :
    m (Except Failure (Canvas α)) := do
  match project.firstVideo? with
  | none => return .ok (← Canvas.resolveWith settings (pure none))
  | some video =>
    match ← studio.storage.source media video.sourceId with
    | .error e => return .error e
    | .ok path => return .ok (← Canvas.resolveWith settings (studio.inspect path))

/-- What a render of a project would do. The settings override the project's own. -/
def plan (project : Project α) (media : Manifest) (settings : OutputSettings α) :
    m (Except Failure (Composition α)) := do
  let settings := settings.or project.outputSettings
  match project.check settings with
  | .error e => return .error e
  | .ok () => return (← studio.canvas project media settings).map (Composition.ofProject project)

/-! ### Rendering -/

/-- Goes on to a stage. -/
def reach (stage : Stage) : RenderT α m Unit := do
  observe (studio.report stage)
  record (.reached stage)

/-- Runs a computation in a fresh directory, and removes the directory. -/
def inFreshDir {β : Type} (root? : Option Path) (body : Path → RenderT α m β) :
    RenderT α m β := do
  let workdir ← perform (studio.workspace.openDir root?)
  let result ← ExceptT.lift (body workdir).run
  observe (studio.workspace.closeDir workdir)
  MonadExcept.ofExcept result

/-- Renders a composition to one file. -/
def assemble (session : Session m α) (c : Composition α) : RenderT α m (RenderedFile α) := do
  studio.reach .renderingSegments
  let pieces ← c.entries.mapM (session.renderEntry c)
  studio.reach .compositingSequence
  let base ← session.mergePieces c.blendAfter? pieces
  studio.reach .compositingOverlays
  let painted ← session.addOverlays base c.layers.overlays
  studio.reach .mixingAudio
  session.addSounds painted c.layers.audio

/-- Writes the trace of a render beside its output. -/
def leaveTrace (project : Project α) (c : Composition α) (output : Path) (duration : α) :
    RenderT α m (Path × Trace α) := do
  let trace := Trace.of project c (← get) duration
  perform (studio.workspace.write (traceFile output) trace.text)
  return (traceFile output, trace)

/-- Renders a composition, publishes the result, and leaves a trace if that is asked for. -/
def renderPlanned (project : Project α) (media : Manifest) (c : Composition α)
    (destination : Path) (options : RenderOptions) (workdir : Path) :
    RenderT α m (RenderReport α) := do
  let session : Session m α :=
    ⟨studio.engine, studio.storage, studio.workspace.draw, media, c.canvas, workdir⟩
  let rendered ← studio.assemble session c
  studio.reach .finalizing
  let output ← perform (studio.storage.publish rendered.path destination)
  record (.published output)
  let trace? ←
    if options.trace then
      some <$> studio.leaveTrace project c output rendered.duration
    else pure none
  studio.reach .complete
  return {
    output
    duration := rendered.duration
    canvas := c.canvas
    clipCount := project.clipCount
    baseClipCount := c.layers.base.length
    overlayCount := c.layers.overlays.length
    audioClipCount := c.layers.audio.length
    trace? }

/-- Renders a project to a destination. The settings override the project's own. -/
def render (project : Project α) (media : Manifest) (destination : Path)
    (settings : OutputSettings α) (options : RenderOptions) : RenderT α m (RenderReport α) := do
  let settings := settings.or project.outputSettings
  studio.reach .validating
  MonadExcept.ofExcept (project.check settings)
  studio.reach .resolvingCanvas
  let canvas ← perform (studio.canvas project media settings)
  studio.reach .planning
  let c := Composition.ofProject project canvas
  studio.inFreshDir options.tempRoot? (studio.renderPlanned project media c destination options)

end Studio

/-- The document of a report. -/
def RenderReport.encode {α : Type} [Scalar α] (r : RenderReport α) : Json :=
  .object <|
    [("output", .string r.output.text), ("duration", .ofScalar r.duration),
      ("canvas", r.canvas.encode), ("clip_count", .ofNat r.clipCount),
      ("base_clip_count", .ofNat r.baseClipCount), ("overlay_count", .ofNat r.overlayCount),
      ("audio_clip_count", .ofNat r.audioClipCount)] ++
    Json.member? "trace_path" (fun traced : Path × Trace α ↦ .string traced.1.text) r.trace?

end Splice
