import Splice.Timeline.Clip

/-!
# Clips as a plan shows them

A clip as the plan sees it, with everything that it takes by default filled in.
-/

namespace Splice

/-- A clip as the plan sees it. -/
structure ClipView (α : Type) where
  id : String
  kind : String
  start : α
  duration : α
  effectiveDuration : α
  layer : Int
  group : LayerGroup
  sourceId? : Option String
  transition? : Option String
  transitionTarget? : Option String
  transitionDuration : α

/-- The view of a clip. -/
def Clip.view {α : Type} [Scalar α] (clip : Clip α) : ClipView α where
  id := clip.id
  kind := clip.content.name
  start := clip.startTime
  duration := clip.duration
  effectiveDuration := clip.effectiveDuration
  layer := clip.layer
  group := clip.group
  sourceId? := clip.content.sourceId?
  transition? := clip.effects.transition?
  transitionTarget? := clip.effects.transitionTarget?
  transitionDuration := clip.effects.transitionDuration

end Splice
