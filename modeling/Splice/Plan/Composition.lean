import Splice.Plan.Canvas
import Splice.Plan.Entry
import Splice.Plan.Layers
import Splice.Plan.Transition
import Splice.Timeline.Project

/-!
# Compositions

Everything that is decided about a render before the first job runs: the shares of the clips, the
entries of the base sequence and the transitions between its clips, on a canvas.
-/

namespace Splice

/-- What is decided about a render before it begins. -/
structure Composition (α : Type) where
  canvas : Canvas α
  timelineEnd : α
  layers : Layers α
  entries : List (Entry α)
  decisions : List (EdgeDecision α)

/-- Which edges of a base clip blend into a neighbour. -/
structure BlendedEdges where
  incoming : Bool := false
  outgoing : Bool := false
deriving DecidableEq, Repr

namespace Composition

/-- The composition of a project on a canvas. -/
def ofProject {α : Type} [Scalar α] (project : Project α) (canvas : Canvas α) : Composition α :=
  let timelineEnd := project.timelineEnd
  let layers := Layers.ofClips project.clips canvas.fps
  { canvas, timelineEnd, layers
    entries := Entry.ofBase layers.base timelineEnd canvas.fps
    decisions := EdgeDecision.ofBase layers.base canvas.fps }

variable {α : Type} (c : Composition α)

/-- The accepted transition after the base clip of an index. -/
def blendAfter? (index : Nat) : Option (TransitionStyle × α) :=
  c.decisions[index]?.bind EdgeDecision.transition?

/-- The edges at which the base clip of an index blends into its neighbours. -/
def blendedEdges (index : Nat) : BlendedEdges where
  incoming := match index with
    | 0 => false
    | previous + 1 => (c.blendAfter? previous).isSome
  outgoing := (c.blendAfter? index).isSome

end Composition

end Splice
