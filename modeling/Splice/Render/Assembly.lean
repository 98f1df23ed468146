import Splice.Render.Footage

/-!
# The base sequence

The rendered entries of the base sequence, merged into one file from left to right: two neighbouring
clips blend where their transition is accepted, everything else follows without a blend. A style
that the engine cannot render is replaced by the fallback, once.
-/

namespace Splice

/-- A rendered entry. A clip carries its index among the base clips, and its id. -/
structure Piece (α : Type) where
  rendered : RenderedFile α
  clip? : Option (Nat × String)

/-- The shortest length of a blend, in seconds. -/
def leastMerged {α : Type} [Scalar α] : α := 0.01

/-- The transition between two pieces, with the ids of their clips: that of neighbouring clips. -/
def Piece.transitionTo? {α : Type} (blendAfter? : Nat → Option (TransitionStyle × α))
    (left right : Option (Nat × String)) : Option (TransitionStyle × α × String × String) :=
  match left, right with
  | some (i, fromId), some (j, toId) =>
    if i + 1 = j then
      (blendAfter? i).map fun (style, duration) ↦ (style, duration, fromId, toId)
    else none
  | _, _ => none

namespace Session

open RenderT (record)

variable {m : Type → Type} [Monad m] {α : Type} [Scalar α] (s : Session m α)

/-! ### Merging two files -/

/-- The job that blends two files. -/
def blendJob (left right : RenderedFile α) (style : TransitionStyle) (duration : α) :
    RenderT α m (Job.Transition α) := do
  return {
    first := left.path
    second := right.path
    style
    duration
    offset := Scalar.max (left.duration - duration) 0.0
    encoding := s.canvas.encoding
    output := ← s.freshPath ("xfade_" ++ style.name) "mp4" }

/-- Blends two files, and gives the result, the style of it, and whether that is the fallback. -/
def blendFiles (left right : RenderedFile α) (style : TransitionStyle) (duration : α) :
    RenderT α m (Path × TransitionStyle × Bool) := do
  let job := Job.transition (← s.blendJob left right style duration)
  match ← s.attempt job with
  | none => return (job.output, style, false)
  | some e =>
    if e.isEngine && style != .fallback then
      let job := Job.transition (← s.blendJob left right .fallback duration)
      return (← s.run job, .fallback, true)
    else throw e

/-- Merges two files by a transition between two clips. -/
def mergeByTransition (left right : RenderedFile α) (style : TransitionStyle) (duration : α)
    (fromId toId : String) : RenderT α m (RenderedFile α) := do
  let (path, used, usedFallback) ← s.blendFiles left right style duration
  let result := Scalar.max (left.duration + right.duration - duration) leastMerged
  record (.merged
    (.transition fromId toId used duration left.duration right.duration result usedFallback))
  return ⟨path, result⟩

/-- Merges two files without a blend. -/
def mergeByConcat (left right : RenderedFile α) : RenderT α m (RenderedFile α) := do
  let listPath ← s.freshPath "concat_list" "txt"
  let output ← s.freshPath "concat" "mp4"
  let path ← s.run (.concat ⟨[left.path, right.path], listPath, output⟩)
  let result := left.duration + right.duration
  record (.merged (.concat left.duration right.duration result))
  return ⟨path, result⟩

/-! ### Merging all pieces -/

/-- Merges pieces onto what is already there, which ends with a clip or not. -/
def mergeOnto (blendAfter? : Nat → Option (TransitionStyle × α)) :
    RenderedFile α → Option (Nat × String) → List (Piece α) → RenderT α m (RenderedFile α)
  | running, _, [] => return running
  | running, last?, next :: rest => do
    let merged ← match Piece.transitionTo? blendAfter? last? next.clip? with
      | some (style, duration, fromId, toId) =>
        s.mergeByTransition running next.rendered style duration fromId toId
      | none => s.mergeByConcat running next.rendered
    mergeOnto blendAfter? merged next.clip? rest

/-- Merges all pieces. -/
def mergePieces (blendAfter? : Nat → Option (TransitionStyle × α)) :
    List (Piece α) → RenderT α m (RenderedFile α)
  | [] => throw (.invalid "Base sequence is empty")
  | first :: rest => s.mergeOnto blendAfter? first.rendered first.clip? rest

/-! ### Rendering the entries -/

/-- Renders an entry of the base sequence. -/
def renderEntry (c : Composition α) : Entry α → RenderT α m (Piece α)
  | .clip index clip => do
    match clip.video? with
    | none => throw (.invalid ("Base clip " ++ clip.id ++ " is not a video"))
    | some media =>
      let input ← s.source media.sourceId
      let rendered ← s.makeSegment clip media input (c.blendedEdges index)
      record (.merged (.clip clip.id rendered.duration))
      return ⟨rendered, some (index, clip.id)⟩
  | .filler filler => do
    let rendered ← s.renderFiller filler
    record (.merged (.filler filler))
    return ⟨rendered, none⟩

end Session

end Splice
