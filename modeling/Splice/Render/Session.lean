import Splice.Failure
import Splice.Job.Basic
import Splice.Plan.Entry
import Splice.Raster.Picture
import Splice.Render.Stage
import Splice.Storage.Basic

/-!
# Sessions

The setting in which jobs run: an engine and a storage, the canvas, and a directory for intermediate
files. A session keeps a journal of everything that happens; a failure keeps the journal up to
itself (`RenderT`).

Intermediate files are numbered in the order in which they get their names (`Session.freshPath`), so
no two of them are the same, and their names hold nothing of a clip's id that could leave the
directory.
-/

namespace Splice

/-- A media engine. -/
structure Engine (m : Type → Type) (α : Type) where
  /-- Does a job. -/
  run : Job α → m (Except Failure Unit)
  /-- Finds out about a media file. -/
  probe : Path → m (Except Failure (MediaInfo α))

/-- A rendered file and its length. -/
structure RenderedFile (α : Type) where
  path : Path
  duration : α

/-! ### Journals -/

/-- One step in the assembly of the base sequence: a rendered entry, or a merge of what is there
with the next entry. -/
inductive MergeStep (α : Type) where
  | filler (filler : Filler α)
  | clip (clipId : String) (duration : α)
  | transition (fromClipId toClipId : String) (style : TransitionStyle) (duration left right : α)
      (result : α) (usedFallback : Bool)
  | concat (left right result : α)

/-- A sound that is not mixed in, since its source is a video. -/
structure SkippedAudio where
  clipId : String
  sourceId : String

/-- Something that happened in a session. -/
inductive Event (α : Type) where
  | reached (stage : Stage)
  | ran (job : Job α) (failure? : Option Failure)
  | drew (path : Path)
  | merged (step : MergeStep α)
  | skipped (audio : SkippedAudio)
  | published (path : Path)

/-- What happened in a session, and how many intermediate files have a name. -/
structure Journal (α : Type) where
  freshCount : Nat := 0
  events : List (Event α) := []

namespace Journal

variable {α : Type} (j : Journal α)

/-- The stages that were reached. -/
def stages : List Stage := j.events.filterMap fun
  | .reached stage => some stage
  | _ => none

/-- The jobs that were given to the engine, those that failed too. -/
def jobs : List (Job α) := j.events.filterMap fun
  | .ran job _ => some job
  | _ => none

/-- The steps in the assembly of the base sequence. -/
def steps : List (MergeStep α) := j.events.filterMap fun
  | .merged step => some step
  | _ => none

/-- The sounds that were not mixed in. -/
def skippedAudio : List SkippedAudio := j.events.filterMap fun
  | .skipped audio => some audio
  | _ => none

end Journal

/-! ### Running in a session -/

/-- Computations that keep a journal and may fail. -/
abbrev RenderT (α : Type) (m : Type → Type) := ExceptT Failure (StateT (Journal α) m)

namespace RenderT

variable {α : Type} {m : Type → Type} [Monad m]

/-- An action outside of the session. -/
def observe {β : Type} (action : m β) : RenderT α m β := ExceptT.lift (StateT.lift action)

/-- An action outside of the session that may fail. -/
def perform {β : Type} (action : m (Except Failure β)) : RenderT α m β :=
  ExceptT.mk (StateT.lift action)

/-- Adds an event to the journal. -/
def record (event : Event α) : RenderT α m Unit :=
  modify fun journal ↦ { journal with events := journal.events ++ [event] }

end RenderT

/-- The setting in which jobs run. -/
structure Session (m : Type → Type) (α : Type) where
  /-- The engine that does the jobs. -/
  engine : Engine m α
  /-- Access to the media. -/
  storage : Storage m
  /-- Draws a picture into a file. -/
  draw : Path → Picture → m (Except Failure Unit)
  /-- Which stored files the clips mean. -/
  media : Manifest
  /-- The format of all pictures. -/
  canvas : Canvas α
  /-- The directory for intermediate files. -/
  workdir : Path

/-- A clip's id in the name of a file. -/
def fileLabel (id : String) : String :=
  let safe := (id.toList.map fun c ↦ if c.isAlphanum || c == '-' then c else '_').take 40
  if safe.isEmpty then "clip" else String.ofList safe

/-- The name of an intermediate file. -/
def freshName (number : Nat) (label extension : String) : String :=
  String.ofList (Decimal.padded 3 number) ++ "_" ++ label ++ "." ++ extension

namespace Session

open RenderT (observe perform record)

variable {m : Type → Type} [Monad m] {α : Type} (s : Session m α)

/-- A fresh path for an intermediate file. -/
def freshPath (label extension : String) : RenderT α m Path := do
  let number := (← get).freshCount
  modify fun journal ↦ { journal with freshCount := number + 1 }
  return s.workdir.join (freshName number label extension)

/-- Gives a job to the engine, and says how it failed. -/
def attempt (job : Job α) : RenderT α m (Option Failure) := do
  let failure? ← match ← observe (s.engine.run job) with
    | .ok () => pure none
    | .error e => pure (some e)
  record (.ran job failure?)
  return failure?

/-- Does a job, and gives the file that it wrote. -/
def run (job : Job α) : RenderT α m Path := do
  match ← s.attempt job with
  | none => return job.output
  | some e => throw e

/-- Draws a picture into a file. -/
def drawInto (path : Path) (picture : Picture) : RenderT α m Unit := do
  perform (s.draw path picture)
  record (.drew path)

/-- What is known about a media file, if it can be looked at. -/
def inspect (path : Path) : RenderT α m (Option (MediaInfo α)) := do
  match ← observe (s.engine.probe path) with
  | .ok info => return some info
  | .error _ => return none

/-- Whether a file has sound; one that cannot be looked at has none. -/
def hasAudio (path : Path) : RenderT α m Bool := do return (← s.inspect path).any (·.hasAudio)

/-- The file of a video source. -/
def source (id : String) : RenderT α m Path := perform (s.storage.source s.media id)

/-- The file of an asset. -/
def asset (id : String) : RenderT α m Path := perform (s.storage.asset s.media id)

end Session

end Splice
