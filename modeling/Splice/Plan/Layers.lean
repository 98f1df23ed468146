import Splice.Plan.Cursor
import Splice.Timeline.Clip

/-!
# Layers

How the clips of a project share the work. The videos of the lowest video layer form the base
sequence, one after another in order of their starts; a clip among them that starts before the
sequence has reached it is demoted to an overlay. All other clips that can be seen are overlays, and
the sounds are mixed in.

Overlays are painted in the order of group, layer and start; overlays that agree in all three keep
their order, with the demoted clips after the other videos and before everything else.
-/

namespace Splice

/-- A base clip that became an overlay, with the cursor that it did not wait for. -/
structure Demotion (α : Type) where
  clipId : String
  start : α
  cursor : α

/-- The shares of the clips. -/
structure Layers (α : Type) where
  baseLayer? : Option Int
  base : List (Clip α)
  overlays : List (Clip α)
  audio : List (Clip α)
  demotions : List (Demotion α)

/-! ### Kinds of shares -/

/-- Whether the clip is a sound. -/
def Clip.isAudio {α : Type} (clip : Clip α) : Bool :=
  match clip.content with
  | .audio _ => true
  | _ => false

/-- Whether the clip can be seen and is no video. -/
def Clip.isGraphic {α : Type} (clip : Clip α) : Bool := !clip.isVideo && !clip.isAudio

namespace Layers

/-! ### Orders -/

section Order

variable {α : Type} [Scalar α]

/-- The order of starts. -/
def startsBefore (a b : Clip α) : Bool := Scalar.precedes a.startTime b.startTime

/-- The order of painting. -/
def paintsBefore (a b : Clip α) : Bool :=
  match compare a.group.rank b.group.rank with
  | .lt => true
  | .gt => false
  | .eq => match compare a.layer b.layer with
    | .lt => true
    | .gt => false
    | .eq => startsBefore a b

/-- The clips in order of their starts. -/
def sortByStart (clips : List (Clip α)) : List (Clip α) := clips.mergeSort startsBefore

end Order

/-! ### The base sequence -/

/-- The lowest layer among clips. -/
def lowest? {α : Type} (clips : List (Clip α)) : Option Int := (clips.map Clip.layer).min?

section Base

variable {α : Type} [Scalar α]

/-- The clips of the base sequence, and the other ones with the cursor at their turn. -/
def split (cursor : Cursor α) : List (Clip α) → List (Clip α) × List (Clip α × α)
  | [] => ([], [])
  | clip :: rest =>
    if cursor.overlaps clip.startTime then
      let (base, demoted) := split cursor rest
      (base, (clip, cursor.position) :: demoted)
    else
      let (base, demoted) := split (cursor.place clip.startTime clip.effectiveDuration) rest
      (clip :: base, demoted)

/-- The shares of clips at a frame rate. -/
def ofClips (clips : List (Clip α)) (fps : α) : Layers α :=
  let videos := clips.filter Clip.isVideo
  let baseLayer? := lowest? videos
  let (candidates, above) := videos.partition fun clip ↦ some clip.layer == baseLayer?
  let (base, demoted) := split (.start fps) (sortByStart candidates)
  { baseLayer?
    base
    overlays :=
      (above ++ demoted.map Prod.fst ++ clips.filter Clip.isGraphic).mergeSort paintsBefore
    audio := sortByStart (clips.filter Clip.isAudio)
    demotions := demoted.map fun (clip, cursor) ↦ ⟨clip.id, clip.startTime, cursor⟩ }

end Base

end Layers

end Splice
