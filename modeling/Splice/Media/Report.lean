import Splice.Json.Parse
import Splice.Json.Record
import Splice.Media.Info
import Splice.Number.Reading
import Splice.Text.Blank

/-!
# Probe reports

The report that a media prober prints: a JSON document with the streams of a file and its container.
The picture of a file is its first video stream. What a report leaves out is unknown; only a text
that is not such a document is refused.
-/

namespace Splice

open Json (Record string? nat32? list?)

variable {α : Type} [Scalar α]

/-- One stream of a media file. -/
structure MediaStream where
  kind? : Option String
  width? : Option Nat
  height? : Option Nat
  rate? : Option String

/-- Reads a stream. -/
def MediaStream.decode? (α : Type) [Scalar α] (value : Json) : Option MediaStream := do
  let r ← Record.of? ["codec_type", "width", "height", "r_frame_rate"] value
  return {
    kind? := ← r.nullable? "codec_type" string?
    width? := ← r.nullable? "width" (nat32? α)
    height? := ← r.nullable? "height" (nat32? α)
    rate? := ← r.nullable? "r_frame_rate" string? }

/-- Reads the duration of a container, as text. -/
def containerDuration? (value : Json) : Option (Option String) := do
  let r ← Record.of? ["duration"] value
  r.nullable? "duration" string?

/-- The two sides of the first occurrence of a character. -/
def splitAtFirst? (mark : Char) : List Char → Option (List Char × List Char)
  | [] => none
  | c :: rest =>
    if c = mark then some ([], rest)
    else (splitAtFirst? mark rest).map fun (left, right) ↦ (c :: left, right)

/-- The number that a text consists of, blanks at its ends aside. -/
def trimmedScalar? (text : String) : Option α := Scalar.read? (Text.trim text)

/-- A frame rate, written as a number or as a fraction. It is finite and positive. -/
def frameRate? (text : String) : Option α :=
  let rate : Option α := match splitAtFirst? '/' text.toList with
    | some (above, below) => do
      let numerator : α ← trimmedScalar? (String.ofList above)
      let denominator : α ← trimmedScalar? (String.ofList below)
      if denominator == 0.0 then none else some (numerator / denominator)
    | none => trimmedScalar? text
  rate.filter fun fps ↦ Scalar.isFinite fps && decide (0.0 < fps)

/-- The facts that streams and a container's duration amount to. -/
def MediaInfo.ofStreams (streams : List MediaStream) (duration? : Option String) : MediaInfo α :=
  let picture := streams.find? (·.kind? == some "video")
  { duration := (duration?.bind trimmedScalar?).filter
      (fun seconds ↦ Scalar.isFinite seconds && decide (0.0 ≤ seconds)) |>.getD 0.0
    width := (picture.bind (·.width?)).getD 0
    height := (picture.bind (·.height?)).getD 0
    fps := ((picture.bind (·.rate?)).bind frameRate?).getD 0.0
    hasAudio := streams.any (·.kind? == some "audio") }

/-- Reads a report. -/
def MediaInfo.ofReport? (text : String) : Option (MediaInfo α) := do
  let r ← Record.of? ["streams", "format"] (← Json.parse? text)
  let streams ← r.withDefault? "streams" [] (list? (MediaStream.decode? α))
  let duration? ← r.withDefault? "format" none containerDuration?
  return .ofStreams streams duration?

end Splice
