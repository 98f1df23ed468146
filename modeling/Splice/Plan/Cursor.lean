import Splice.Number.Scalar

/-!
# The cursor of the base sequence

The running end of a sequence of clips. A gap counts only if it is longer than the tolerance and
rounds to at least one frame; anything smaller is adjacency.
-/

namespace Splice

/-- The slack, in seconds, for overlaps and gaps. -/
def tolerance {α : Type} [Scalar α] : α := 0.01

/-- The end of the clips placed so far, at a frame rate. -/
structure Cursor (α : Type) where
  position : α
  fps : α

namespace Cursor

variable {α : Type} [Scalar α]

/-- The cursor before any clip. -/
def start (fps : α) : Cursor α := ⟨0.0, fps⟩

/-- Whether a clip with that start would overlap the clips placed so far. -/
def overlaps (c : Cursor α) (start : α) : Bool := decide (start < c.position - tolerance)

/-- The gap up to a time, if it counts. -/
def gapUntil? (c : Cursor α) (time : α) : Option α :=
  let gap := time - c.position
  if tolerance < gap ∧ 1.0 ≤ Scalar.round (gap * c.fps) then some gap else none

/-- The cursor after a clip. A clip that does not overlap begins at its own start. -/
def place (c : Cursor α) (start duration : α) : Cursor α :=
  { c with position := (if c.overlaps start then c.position else start) + duration }

end Cursor

end Splice
