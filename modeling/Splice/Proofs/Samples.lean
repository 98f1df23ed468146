import Splice.Render.Studio

/-!
# Samples

A small project and a studio to render it in, at which general statements are tried.
-/

namespace Splice.Sample

variable {α : Type} [Scalar α]

/-- A placement that fills the canvas. -/
def look (effects : Effects α) : Look α := ⟨.origin, .full, 0.0, .fit, none, effects, []⟩

/-- A video on the lowest layer. -/
def video (id : String) (start duration : α) (trimEnd? : Option α) (effects : Effects α) : Clip α :=
  ⟨id, start, duration, 0, none, .video ⟨"source", 0.0, trimEnd?, look effects⟩⟩

/-- A text. -/
def text (id : String) (start duration : α) : Clip α :=
  ⟨id, start, duration, 1, none, .text ⟨some id, none, none, look {}⟩⟩

/-- A sound. -/
def sound (id : String) (start duration : α) : Clip α :=
  ⟨id, start, duration, 0, none, .audio ⟨"sound", 0.0, {}⟩⟩

/-- Effects that ask for a transition to the next clip. -/
def blend (style : String) (duration : α) : Effects α :=
  { transition? := some style, transitionDuration? := some duration }

/-- Two videos that blend, with one that overlaps the first, and after a gap one more, with a text
and a sound. -/
def clips : List (Clip α) :=
  [video "a" 0.0 2.0 none (blend "wipe left" 0.5), text "title" 1.0 1.0,
    video "b" 1.0 3.0 none {}, video "c" 2.0 5.0 (some 1.0) {}, sound "music" 0.0 5.0,
    video "d" 4.0 1.0 none {}]

/-- The project with these clips. -/
def project : Project α := ⟨[⟨none, clips⟩], none⟩

/-- Clips of every kind, with fields of every kind present and absent. -/
def gallery : Project α where
  tracks := [
    ⟨some "pictures", [
      video "clip" 0.0 2.5 (some 3.25) (blend "dissolve" 0.5),
      ⟨"still", 2.5, 1.1, -3, some "graphics", .image ⟨"photo", 0.0, none,
        { position := ⟨12.5, -7.0⟩, size := ⟨50.0, 33.3⟩, rotation := 90.0, fitMode := .stretch,
          crop? := some ⟨0.1, 0.2, 0.5, 0.5⟩, effects := { opacity? := some 0.75 },
          keyframes := [⟨0.0, false, some ⟨some 10.0, none⟩, none⟩,
            ⟨1e21, true, none, some 0.0⟩] }⟩⟩,
      ⟨"box", 0.0, 4.0, 7, none,
        .shape ⟨some "frame", none, some "#ff0000", true, look { blur? := some 1e-7 }⟩⟩]⟩,
    ⟨none, [text "line\n\"é\"" 0.0 1.0, sound "music" 0.0 5.0]⟩]
  outputSettings? := some { width? := some 1280, fps? := some 29.97, preset? := some "slow" }

/-- A small canvas at 30 frames per second. -/
def canvas : Canvas α := ⟨64, 36, 30.0, none⟩

/-- The stored media of the sample clips. -/
def media : Manifest := ⟨[("source", "source.mp4")], [("sound", "sound.m4a")]⟩

/-- An engine that does every job but wipes, and a storage that has every file. -/
def studio : Studio (StateM Unit) α where
  engine := {
    run := fun job ↦ pure <| match job with
      | .transition blend =>
        if blend.style = .wipeLeft then .error (.engine "transition" "no wipes") else .ok ()
      | _ => .ok ()
    probe := fun _ ↦ pure (.ok ⟨1.0, 64, 36, 30.0, true⟩) }
  storage := {
    resolve := fun reference ↦ pure (.ok ⟨reference⟩)
    publish := fun _ destination ↦ pure (.ok destination) }
  workspace := {
    openDir := fun _ ↦ pure (.ok ⟨"work"⟩)
    closeDir := fun _ ↦ pure ()
    draw := fun _ _ ↦ pure (.ok ())
    write := fun _ _ ↦ pure (.ok ()) }
  report := fun _ ↦ pure ()

/-- A session in this studio. -/
def session : Session (StateM Unit) α :=
  let studio : Studio (StateM Unit) α := studio
  ⟨studio.engine, studio.storage, studio.workspace.draw, media, canvas, ⟨"work"⟩⟩

/-- Whether the engine is asked for a wipe. -/
def isWipe : Job α → Bool
  | .transition blend => blend.style = .wipeLeft
  | _ => false

/-- Whether the engine is asked to put videos one after another. -/
def isConcat : Job α → Bool
  | .concat _ => true
  | _ => false

/-- The sample studio in a directory of its own, with an engine that refuses certain jobs and names
the file that it did not write. Its world keeps the files that were written, and how often a render
reported. -/
def studioIn (refuses : Job α → Bool) (dir : Path) (step : Nat) :
    Studio (StateM (List Path × Nat)) α where
  engine := {
    run := fun job (files, reports) ↦
      if refuses job then (.error (.engine "job" ("no " ++ job.output.text)), files, reports)
      else (.ok (), job.output :: files, reports)
    probe := fun _ ↦ pure (.ok ⟨1.0, 64, 36, 30.0, true⟩) }
  storage := {
    resolve := fun reference ↦ pure (.ok ⟨reference⟩)
    publish := fun _ destination (files, reports) ↦
      (.ok destination, destination :: files, reports) }
  workspace := {
    openDir := fun _ ↦ pure (.ok dir)
    closeDir := fun _ ↦ pure ()
    draw := fun path _ (files, reports) ↦ (.ok (), path :: files, reports)
    write := fun path _ (files, reports) ↦ (.ok (), path :: files, reports) }
  report := fun _ (files, reports) ↦ ((), files, reports + step)

end Splice.Sample
