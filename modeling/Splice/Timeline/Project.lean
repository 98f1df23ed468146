import Splice.Timeline.Clip
import Splice.Timeline.Settings

/-!
# Projects

The document of an editor: tracks of clips and the requested output format. The order of tracks has
no meaning for the picture; it only gives the clips of a project their order.
-/

namespace Splice

/-- An ordered list of clips. -/
structure Track (α : Type) where
  id? : Option String
  clips : List (Clip α)
deriving BEq

/-- A project. -/
structure Project (α : Type) where
  tracks : List (Track α)
  outputSettings? : Option (OutputSettings α)
deriving BEq

namespace Project

/-- All clips, track after track. -/
def clips {β : Type} (p : Project β) : List (Clip β) := p.tracks.flatMap Track.clips

/-- The number of clips. -/
def clipCount {β : Type} (p : Project β) : Nat := p.clips.length

/-- Whether there is no clip. -/
def isEmpty {β : Type} (p : Project β) : Bool := p.clipCount == 0

/-- The requested output format. -/
def outputSettings {β : Type} (p : Project β) : OutputSettings β := p.outputSettings?.getD {}

/-- The latest end of a clip, or zero. -/
def timelineEnd {α : Type} [Scalar α] (p : Project α) : α :=
  (p.clips.map Clip.endTime).foldl Scalar.max 0.0

end Project

end Splice
