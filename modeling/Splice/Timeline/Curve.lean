import Splice.Timeline.Expression

/-!
# Curves

The course of one animated quantity over time: a piecewise linear curve through samples. Before the
first sample it holds the first value, after the last it holds the last.

* `Curve.ofSamples` drops samples that are not finite, sorts the others by time, and of samples
  closer than `leastStep` keeps the latest in that order.
* `Curve.eval` evaluates the curve; `Curve.expression` says the same as an expression of a
  filter, whose last segment stands innermost.
-/

namespace Splice

/-- A curve through at least one sample `(time, value)`, in order of time. -/
structure Curve (α : Type) where
  first : α × α
  rest : List (α × α)
deriving BEq

namespace Curve

/-- The samples of a curve. -/
def points {α : Type} (c : Curve α) : List (α × α) := c.first :: c.rest

/-- The curve that holds one value. -/
def flat {α : Type} [Scalar α] (value : α) : Curve α := ⟨(0.0, value), []⟩

variable {α : Type} [Scalar α]

/-! ### Curves from samples -/

/-- Samples closer together than this have the same time. -/
def leastStep : α := 1e-4

/-- Samples in order of time, without those that the next one replaces. -/
def thin : List (α × α) → List (α × α)
  | sample :: next :: rest =>
    if Scalar.abs (next.1 - sample.1) < leastStep then thin (next :: rest)
    else sample :: thin (next :: rest)
  | samples => samples

/-- The samples that can be drawn. -/
def finiteSamples (samples : List (α × α)) : List (α × α) :=
  samples.filter fun sample ↦ Scalar.isFinite sample.1 && Scalar.isFinite sample.2

/-- Samples in order of time; samples of one time keep their order. -/
def sortByTime (samples : List (α × α)) : List (α × α) :=
  samples.mergeSort fun a b ↦ Scalar.precedes a.1 b.1

/-- The curve through samples in any order, or the constant `fallback` without any. -/
def ofSamples (samples : List (α × α)) (fallback : α) : Curve α :=
  match thin (sortByTime (finiteSamples samples)) with
  | [] => flat fallback
  | first :: rest => ⟨first, rest⟩

/-! ### Evaluation -/

/-- Values closer together than this are the same. -/
def valueEpsilon : α := 1e-9

/-- Whether the curve holds one value. -/
def isFlat (c : Curve α) : Bool :=
  c.points.all fun sample ↦ Scalar.abs (sample.2 - c.first.2) < valueEpsilon

/-- The value at a time not before `start`, on the part of a curve that begins there. -/
def valueFrom (time : α) (start : α × α) : List (α × α) → α
  | [] => start.2
  | stop :: rest =>
    if time < stop.1 then
      start.2 + (stop.2 - start.2) * ((time - start.1) / (stop.1 - start.1))
    else valueFrom time stop rest

/-- The value at a time. -/
def eval (c : Curve α) (time : α) : α :=
  if time ≤ c.first.1 then c.first.2 else valueFrom time c.first c.rest

/-! ### Lowering -/

/-- Offsets smaller than this are none. -/
def offsetEpsilon : α := 1e-9

/-- The time of the curve in terms of a symbol: shifted by the offset, if there is one. -/
def shifted (symbol : String) (offset : α) : Expression α :=
  if Scalar.abs offset < offsetEpsilon then .symbol symbol
  else .bracket (.difference (.symbol symbol) (.number offset))

/-- The part of a curve that begins at `start`, in terms of the time. -/
def expressionFrom (time : Expression α) (start : α × α) : List (α × α) → Expression α
  | [] => .number start.2
  | stop :: rest =>
    let slope := (stop.2 - start.2) / (stop.1 - start.1)
    .ifLess time (.number stop.1)
      (.sum (.number start.2)
        (.product (.bracket (.number slope)) (.bracket (.difference time (.number start.1)))))
      (expressionFrom time stop rest)

/-- The curve as an expression of a symbol that runs ahead of the curve by an offset. -/
def expression (c : Curve α) (symbol : String) (offset : α) : Expression α :=
  if c.isFlat then .number c.first.2
  else
    let time := shifted symbol offset
    .ifLess time (.number c.first.1) (.number c.first.2) (expressionFrom time c.first c.rest)

end Curve

end Splice
