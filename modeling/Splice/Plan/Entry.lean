import Splice.Plan.Cursor
import Splice.Timeline.Clip

/-!
# Entries of the base sequence

The base sequence covers the whole timeline: between its clips, and after the last one, stand black
and silent fillers wherever a gap counts. Without a clip, one blank covers everything.
-/

namespace Splice

/-- Why there is a filler: before a clip, after the last clip, or in place of all clips. -/
inductive FillerKind where
  | gap
  | tail
  | blank
deriving DecidableEq, Repr

/-- A black and silent stretch. -/
structure Filler (α : Type) where
  kind : FillerKind
  start : α
  duration : α

/-- One entry of the base sequence. A clip carries its index among the base clips. -/
inductive Entry (α : Type) where
  | clip (index : Nat) (clip : Clip α)
  | filler (filler : Filler α)

/-- The name of a kind of filler. -/
def FillerKind.name : FillerKind → String
  | gap => "gap"
  | tail => "gap_tail"
  | blank => "blank"

variable {α : Type} [Scalar α]

/-- The end of a filler. -/
def Filler.stop (f : Filler α) : α := f.start + f.duration

namespace Entry

/-- The seconds that an entry is planned to take. -/
def duration : Entry α → α
  | clip _ c => c.effectiveDuration
  | filler f => f.duration

/-- The shortest blank, in seconds. -/
def leastBlank : α := 1.0

/-- The filler from the cursor up to a time, if the gap counts. -/
def fill (kind : FillerKind) (cursor : Cursor α) (time : α) : List (Entry α) :=
  match cursor.gapUntil? time with
  | some gap => [filler ⟨kind, cursor.position, gap⟩]
  | none => []

/-- The entries for the clips from an index on, up to the end of the timeline. -/
def fillFrom (timelineEnd : α) (cursor : Cursor α) (index : Nat) :
    List (Clip α) → List (Entry α)
  | [] => fill .tail cursor timelineEnd
  | c :: rest =>
    fill .gap cursor c.startTime ++ clip index c ::
      fillFrom timelineEnd (cursor.place c.startTime c.effectiveDuration) (index + 1) rest

/-- The entries for base clips, up to the end of the timeline. -/
def ofBase (base : List (Clip α)) (timelineEnd fps : α) : List (Entry α) :=
  if base.isEmpty then [filler ⟨.blank, 0.0, Scalar.max timelineEnd leastBlank⟩]
  else fillFrom timelineEnd (.start fps) 0 base

end Entry

end Splice
