import Splice.Render.Footage

/-!
# Sounds

Standalone sounds are cut, scaled and faded, and then mixed into what is there. A sound whose source
is a video is skipped, since the base already carries it; a muted one is not mixed in either.
-/

namespace Splice.Session

open RenderT (record)

variable {m : Type → Type} [Monad m] {α : Type} [Scalar α] (s : Session m α)

/-- Mixes a sound in from a time on. The file must have sound. -/
def mixSound (base : RenderedFile α) (audio : Path) (time : α) (label : String) :
    RenderT α m (RenderedFile α) := do
  if !(← s.hasAudio audio) then
    throw (.ofDiagnostic "audio_mix" "Provided audio file has no audio stream")
  let baseHasAudio ← s.hasAudio base.path
  let job : Job.AudioMix α := {
    base := base.path
    audio
    time
    volume := 1.0
    baseHasAudio
    maxDuration := base.duration
    output := ← s.freshPath ("mix_" ++ fileLabel label) "mp4" }
  return ⟨← s.run (.audioMix job), base.duration⟩

/-- Cuts a sound out of a file and mixes it in. -/
def mixClip (base : RenderedFile α) (clip : Clip α) (audio : AudioClip α) :
    RenderT α m (RenderedFile α) := do
  let input ← s.asset audio.sourceId
  let job : Job.AudioTrim α := {
    input
    start := Scalar.max audio.trimStart 0.0
    duration := Scalar.max clip.duration leastSegment
    volume := audio.effects.volume
    fadeIn := audio.effects.audioFadeIn
    fadeOut := audio.effects.audioFadeOut
    output := ← s.freshPath ("audio_" ++ fileLabel clip.id) "m4a" }
  let trimmed ← s.run (.audioTrim job)
  s.mixSound base trimmed clip.startTime clip.id

/-- Mixes in a clip, if it is a sound to be mixed in. -/
def addSound (base : RenderedFile α) (clip : Clip α) : RenderT α m (RenderedFile α) := do
  match clip.content with
  | .audio audio =>
    if s.media.hasSource audio.sourceId then
      record (.skipped ⟨clip.id, audio.sourceId⟩)
      return base
    else if audio.effects.volume ≤ 0.0 then return base
    else s.mixClip base clip audio
  | _ => return base

/-- Mixes in clips, one after another. -/
def addSounds (base : RenderedFile α) (clips : List (Clip α)) : RenderT α m (RenderedFile α) :=
  clips.foldlM s.addSound base

end Splice.Session
