import Splice.Job.Basic
import Splice.Job.Quoting

/-!
# Filters

The steps that a job applies to a picture or to a sound, one after another, and how a media engine
spells them. A step that would change nothing is left out.
-/

namespace Splice

open Scalar (numeral)

variable {α : Type} [Scalar α]

/-! ### Spelling shared by several filters -/

/-- Numbers separated by colons. -/
def colons (numbers : List Nat) : String := ":".intercalate (numbers.map toString)

/-- Scaling into a box. -/
def FitMode.filter (mode : FitMode) (width height : Nat) : String :=
  let box := colons [width, height]
  match mode with
  | fill => "scale=" ++ box ++ ":force_original_aspect_ratio=increase,crop=" ++ box
  | stretch => "scale=" ++ box
  | fit => "scale=" ++ box ++ ":force_original_aspect_ratio=decrease,pad=" ++ box ++
      ":(ow-iw)/2:(oh-ih)/2"

/-- Cutting out a rectangle. -/
def PixelBox.filter (r : PixelBox) : String :=
  "crop=" ++ colons [r.width, r.height] ++ ":" ++ toString r.x ++ ":" ++ toString r.y

/-- A fade in or out, from a time on, of a given length. -/
def fadeArguments (direction start : String) (length : α) : String :=
  "t=" ++ direction ++ ":st=" ++ start ++ ":d=" ++ numeral length

/-- The factors by which the tempo of a sound changes, one after another; each is within the range
`[0.5, 2]` of a single change. -/
def tempoSteps (speed : α) : List String :=
  let speed := Scalar.clamp leastSpeed greatestSpeed speed
  if (2.0 : α) < speed then ["2.0", Scalar.fixed 3 (speed / 2.0)]
  else if speed < 0.5 then ["0.5", Scalar.fixed 3 (speed / 0.5)]
  else [Scalar.fixed 3 speed]

/-- The change of a sound's tempo. -/
def tempoFilter (speed : α) : String := ",".intercalate ((tempoSteps speed).map ("atempo=" ++ ·))

/-- The condition that the time is within `[start, stop)`. -/
def enableCondition (start stop : α) : String :=
  "gte(t," ++ numeral start ++ ")*lt(t," ++ numeral stop ++ ")"

/-- A source of silence. -/
def silentSound (sampleRate : Nat) (duration : α) : String :=
  "anullsrc=channel_layout=stereo:sample_rate=" ++ toString sampleRate ++ ":d=" ++
    numeral duration

/-- A source of black video. -/
def blackVideo (width height : Nat) (fps duration : α) : String :=
  "color=c=black:s=" ++ toString width ++ "x" ++ toString height ++ ":r=" ++ numeral fps ++
    ":d=" ++ numeral duration

/-! ### Steps for pictures -/

/-- A step that changes a picture. -/
inductive VideoFilter (α : Type) where
  | crop (rect : PixelBox)
  | scale (mode : FitMode) (width height : Nat)
  | rotate (degrees : α)
  | adjust (color : ColorBalance α)
  | hue (degrees : α)
  | blur (radius : α)
  | opacity (alpha : α)
  | speed (speed : α)
  | fadeIn (length : α)
  | fadeOut (start length : α)

/-- The spelling of a step. -/
def VideoFilter.text : VideoFilter α → String
  | crop rect => rect.filter
  | scale mode width height => mode.filter width height
  | rotate degrees => "rotate=" ++ numeral degrees ++ "*PI/180"
  | adjust c =>
    "eq=brightness=" ++ numeral c.brightness ++ ":contrast=" ++ numeral c.contrast ++
      ":saturation=" ++ numeral c.saturation ++ ":gamma=" ++ numeral c.gamma
  | hue degrees => "hue=h=" ++ numeral degrees
  | blur radius => "boxblur=luma_radius=" ++ numeral radius
  | opacity alpha => "format=rgba,colorchannelmixer=aa=" ++ numeral alpha
  | speed s => "setpts=" ++ numeral (1.0 / s) ++ "*PTS"
  | fadeIn length => "fade=" ++ fadeArguments "in" "0" length
  | fadeOut start length => "fade=" ++ fadeArguments "out" (numeral start) length

/-! ### Steps for sounds -/

/-- A step that changes a sound. -/
inductive AudioFilter (α : Type) where
  | tempo (speed : α)
  | volume (gain : α)
  | fadeIn (length : α)
  | fadeOut (start length : α)

/-- The spelling of a step. -/
def AudioFilter.text : AudioFilter α → String
  | tempo speed => tempoFilter speed
  | volume gain => "volume=" ++ numeral gain
  | fadeIn length => "afade=" ++ fadeArguments "in" "0" length
  | fadeOut start length => "afade=" ++ fadeArguments "out" (numeral start) length

/-! ### The steps of a job -/

/-- The item if a condition holds. -/
def listIf {β : Type} (holds : Bool) (item : β) : List β := if holds then [item] else []

/-- Whether the speed is not the neutral one. -/
def changesSpeed (speed : α) : Bool := decide ((0.001 : α) < Scalar.abs (speed - 1.0))

/-- Whether the volume is not the neutral one. -/
def changesVolume (volume : α) : Bool := decide ((0.001 : α) < Scalar.abs (volume - 1.0))

/-- Whether a rotation can be seen. -/
def isRotated (degrees : α) : Bool := decide ((0.01 : α) < Scalar.abs degrees)

/-- Whether every part of the adjustment is neutral. -/
def ColorBalance.isNeutral (c : ColorBalance α) : Bool :=
  [c.brightness, c.contrast - 1.0, c.saturation - 1.0, c.gamma - 1.0].all fun delta ↦
    decide (Scalar.abs delta ≤ 0.001)

/-- The start of a fade that ends with a sequence. -/
def fadeOutStart (duration length : α) : α := Scalar.max (duration - length) 0.0

namespace Job

/-- The steps for the picture of a segment. -/
def Segment.videoFilters (j : Segment α) : List (VideoFilter α) :=
  (j.crop?.map VideoFilter.crop).toList ++ [.scale j.fit j.width j.height] ++
    listIf (isRotated j.rotation) (.rotate j.rotation) ++
    listIf (!j.color.isNeutral) (.adjust j.color) ++
    listIf (decide ((0.001 : α) < Scalar.abs j.hue)) (.hue j.hue) ++
    listIf (decide ((0.1 : α) < j.blur)) (.blur j.blur) ++
    listIf (decide (j.opacity < 1.0)) (.opacity j.opacity) ++
    listIf (changesSpeed j.speed) (.speed j.speed) ++
    listIf (decide (0.0 < j.fades.videoIn)) (.fadeIn j.fades.videoIn) ++
    listIf (decide (0.0 < j.fades.videoOut))
      (.fadeOut (fadeOutStart j.outputDuration j.fades.videoOut) j.fades.videoOut)

/-- The steps for the sound of a segment. Silence needs none. -/
def Segment.audioFilters (j : Segment α) : List (AudioFilter α) :=
  if !j.hasAudio then []
  else
    listIf (changesSpeed j.speed) (.tempo j.speed) ++
    listIf (changesVolume j.volume) (.volume j.volume) ++
    listIf (decide (0.0 < j.fades.audioIn)) (.fadeIn j.fades.audioIn) ++
    listIf (decide (0.0 < j.fades.audioOut))
      (.fadeOut (fadeOutStart j.outputDuration j.fades.audioOut) j.fades.audioOut)

/-- The steps for a part of a sound. -/
def AudioTrim.filters (j : AudioTrim α) : List (AudioFilter α) :=
  listIf (changesVolume j.volume) (.volume j.volume) ++
  listIf (decide (0.0 < j.fadeIn)) (.fadeIn j.fadeIn) ++
  listIf (decide (0.0 < j.fadeOut)) (.fadeOut (fadeOutStart j.duration j.fadeOut) j.fadeOut)

end Job

end Splice
