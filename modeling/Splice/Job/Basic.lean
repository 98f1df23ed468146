import Splice.Path
import Splice.Plan.Canvas
import Splice.Plan.Transition
import Splice.Timeline.Curve
import Splice.Timeline.Area

/-!
# Jobs

The units of work of a media engine. A job reads files and writes one file; it carries everything
that the engine has to know, so it can be described, run and compared without the project that it
comes from.
-/

namespace Splice

/-- How an overlay combines with what lies below it. All but `normal` combine color by color. -/
inductive BlendMode where
  | normal
  | multiply
  | screen
  | overlay
  | darken
  | lighten
  | hardLight
  | softLight
  | difference
  | exclusion
deriving DecidableEq, Repr

namespace BlendMode

/-- The blend mode of a name; an unknown name is `normal`. -/
def ofName (name : String) : BlendMode :=
  match Text.nameKey name with
  | "multiply" => multiply
  | "screen" => screen
  | "overlay" => overlay
  | "darken" => darken
  | "lighten" => lighten
  | "hardlight" | "hard-light" | "hard_light" => hardLight
  | "softlight" | "soft-light" | "soft_light" => softLight
  | "difference" => difference
  | "exclusion" => exclusion
  | _ => normal

/-- The name of a blend mode. -/
def name : BlendMode → String
  | normal => "normal"
  | multiply => "multiply"
  | screen => "screen"
  | overlay => "overlay"
  | darken => "darken"
  | lighten => "lighten"
  | hardLight => "hardlight"
  | softLight => "softlight"
  | difference => "difference"
  | exclusion => "exclusion"

end BlendMode

/-- An adjustment of colors. -/
structure ColorBalance (α : Type) where
  brightness : α
  contrast : α
  saturation : α
  gamma : α

/-- The lengths of fades, in seconds; zero is no fade. -/
structure Fades (α : Type) where
  videoIn : α
  videoOut : α
  audioIn : α
  audioOut : α

namespace Job

/-- Black video with silent sound. -/
structure Blank (α : Type) where
  width : Nat
  height : Nat
  duration : α
  encoding : Encoding α
  output : Path

/-- A part of a source, rendered onto a canvas. -/
structure Segment (α : Type) where
  input : Path
  seek : α
  sourceDuration : α
  outputDuration : α
  hasAudio : Bool
  crop? : Option PixelBox
  fit : FitMode
  width : Nat
  height : Nat
  rotation : α
  color : ColorBalance α
  hue : α
  blur : α
  opacity : α
  speed : α
  volume : α
  fades : Fades α
  encoding : Encoding α
  output : Path

/-- Two files, blended for a while that begins at an offset into the first. -/
structure Transition (α : Type) where
  first : Path
  second : Path
  style : TransitionStyle
  duration : α
  offset : α
  encoding : Encoding α
  output : Path

/-- Files one after another. The list file is scratch space. -/
structure Concat where
  inputs : List Path
  listPath : Path
  output : Path

/-- What an overlay shows: a moving or a still picture. -/
inductive OverlayPicture where
  | video (path : Path)
  | image (path : Path)

/-- A picture painted onto a base from `start` to `stop`. The position and the opacity run with the
time since the start. -/
structure Overlay (α : Type) where
  base : Path
  source : OverlayPicture
  start : α
  stop : α
  x : Curve α
  y : Curve α
  width : Nat
  height : Nat
  opacity : Curve α
  fit : FitMode
  rotation : α
  blend : BlendMode
  canvasWidth : Nat
  canvasHeight : Nat
  encoding : Encoding α
  output : Path

/-- A text written onto a base from `start` to `stop`. An opacity that does not change is part of
the color. -/
structure Text (α : Type) where
  base : Path
  text : String
  start : α
  stop : α
  x : Curve α
  y : Curve α
  opacity : Curve α
  fontSize : Nat
  color : String
  encoding : Encoding α
  output : Path

/-- A part of a sound. -/
structure AudioTrim (α : Type) where
  input : Path
  start : α
  duration : α
  volume : α
  fadeIn : α
  fadeOut : α
  output : Path

/-- A sound mixed into a base from a time on. The mix does not run past the base. -/
structure AudioMix (α : Type) where
  base : Path
  audio : Path
  time : α
  volume : α
  baseHasAudio : Bool
  maxDuration : α
  output : Path

end Job

/-- A unit of work. -/
inductive Job (α : Type) where
  | blank (job : Job.Blank α)
  | segment (job : Job.Segment α)
  | transition (job : Job.Transition α)
  | concat (job : Job.Concat)
  | overlay (job : Job.Overlay α)
  | text (job : Job.Text α)
  | audioTrim (job : Job.AudioTrim α)
  | audioMix (job : Job.AudioMix α)

namespace Job

variable {α : Type}

/-- The file that an overlay shows. -/
def OverlayPicture.path : OverlayPicture → Path
  | video path => path
  | image path => path

/-- The name of the operation. -/
def operation : Job α → String
  | blank _ => "blank"
  | segment _ => "segment"
  | transition _ => "transition"
  | concat _ => "concat"
  | overlay _ => "overlay"
  | text _ => "text"
  | audioTrim _ => "audio_trim"
  | audioMix _ => "audio_mix"

/-- The file that a job writes. -/
def output : Job α → Path
  | blank j => j.output
  | segment j => j.output
  | transition j => j.output
  | concat j => j.output
  | overlay j => j.output
  | text j => j.output
  | audioTrim j => j.output
  | audioMix j => j.output

/-- The files that a job reads, the base first. -/
def inputs : Job α → List Path
  | blank _ => []
  | segment j => [j.input]
  | transition j => [j.first, j.second]
  | concat j => j.inputs
  | overlay j => [j.base, j.source.path]
  | text j => [j.base]
  | audioTrim j => [j.input]
  | audioMix j => [j.base, j.audio]

end Job

end Splice
