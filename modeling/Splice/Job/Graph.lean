import Splice.Job.Filter

/-!
# Filter graphs

The graphs of jobs with two inputs, and the options of a written text. Input 0 of a graph is the
base; its outputs are named `v` and `a`.
-/

namespace Splice

open Scalar (numeral)
open Quoting (quote escape)

variable {α : Type} [Scalar α]

/-! ### Transitions -/

/-- The blend of two pictures and of their sounds. -/
def blendGraph (style : TransitionStyle) (duration offset : α) : String :=
  let length := numeral duration
  "[0:v][1:v]xfade=transition=" ++ style.name ++ ":duration=" ++ length ++ ":offset=" ++
    numeral offset ++ "[v];[0:a][1:a]acrossfade=d=" ++ length ++ ":c1=tri:c2=tri[a]"

/-! ### Overlays -/

/-- A step that prepares the picture of an overlay. -/
inductive LayerFilter (α : Type) where
  | shift (start : α)
  | scale (mode : FitMode) (width height : Nat)
  | transparent
  | rotate (degrees : α)
  | opacity (alpha : α)
  | opacityCurve (alpha : Expression α)
  | pad (width height : Nat) (x y : α)

/-- The spelling of a step. -/
def LayerFilter.text : LayerFilter α → String
  | shift start => "setpts=PTS-STARTPTS+" ++ numeral start ++ "/TB"
  | scale mode width height => mode.filter width height
  | transparent => "format=rgba"
  | rotate degrees => "rotate=" ++ numeral degrees ++ "*PI/180:c=none"
  | opacity alpha => "colorchannelmixer=aa=" ++ numeral alpha
  | opacityCurve alpha =>
    "geq=r='r(X,Y)':g='g(X,Y)':b='b(X,Y)':a='alpha(X,Y)*clip(" ++ alpha.text ++ ",0,1)'"
  | pad width height x y =>
    "pad=" ++ colons [width, height] ++ ":" ++ numeral x ++ ":" ++ numeral y ++
      ":color=0x00000000"

namespace Job.Overlay

variable (j : Overlay α)

/-- The steps for the opacity. A picture that is opaque all the time needs none. -/
def opacityFilters : List (LayerFilter α) :=
  if j.opacity.isFlat then
    let alpha := Scalar.clamp 0.0 1.0 (j.opacity.eval 0.0)
    listIf (decide (alpha < 1.0)) (.opacity alpha)
  else [.opacityCurve (j.opacity.expression "T" j.start)]

/-- The steps that bring the picture onto a canvas of its own. A canvas does not move, so the
picture lies where its position curves are at the start. -/
def padFilters : List (LayerFilter α) :=
  if j.blend = .normal then []
  else [.pad j.canvasWidth j.canvasHeight (Scalar.max (Scalar.floor (j.x.eval 0.0)) 0.0)
    (Scalar.max (Scalar.floor (j.y.eval 0.0)) 0.0)]

/-- The steps that prepare the picture. -/
def layerFilters : List (LayerFilter α) :=
  [.shift j.start, .scale j.fit j.width j.height, .transparent] ++
    listIf (isRotated j.rotation) (.rotate j.rotation) ++ j.opacityFilters ++ j.padFilters

/-- How the prepared picture meets the base. -/
def combination : String :=
  if j.blend = .normal then
    "overlay=" ++ quote (j.x.expression "t" j.start).text ++ ":" ++
      quote (j.y.expression "t" j.start).text
  else "blend=all_mode=" ++ j.blend.name ++ ":all_opacity=1"

/-- The graph of an overlay. -/
def graph : String :=
  "[1:v]" ++ ",".intercalate (j.layerFilters.map LayerFilter.text) ++ "[ov];[0:v][ov]" ++
    j.combination ++ ":enable=" ++ quote (enableCondition j.start j.stop) ++ "[v]"

/-- Whether the picture stands still, so that it has to be repeated. -/
def isStill {β : Type} (j : Overlay β) : Bool :=
  match j.source with
  | .image _ => true
  | .video _ => false

end Job.Overlay

/-! ### Texts -/

/-- The options of a written text, by name. -/
def Job.Text.options (j : Job.Text α) : List (String × String) :=
  [("text", quote (escape j.text)), ("fontcolor", j.color), ("fontsize", toString j.fontSize),
    ("box", "1"), ("boxcolor", "black@0.35"), ("boxborderw", "10"),
    ("x", quote (j.x.expression "t" j.start).text),
    ("y", quote (j.y.expression "t" j.start).text)] ++
  listIf (!j.opacity.isFlat) ("alpha", quote (j.opacity.expression "t" j.start).text) ++
  [("enable", quote (enableCondition j.start j.stop))]

/-- The filter that writes a text. -/
def Job.Text.filter (j : Job.Text α) : String :=
  "drawtext=" ++ ":".intercalate (j.options.map fun (name, value) ↦ name ++ "=" ++ value)

/-! ### Mixed sounds -/

/-- The delay of a mixed sound, in whole milliseconds. -/
def Job.AudioMix.delay (j : Job.AudioMix α) : Nat :=
  Scalar.toNat64 (Scalar.max j.time 0.0 * 1000.0)

/-- The graph of a mixed sound. Without sound in the base the mixed sound is the only one. -/
def Job.AudioMix.graph (j : Job.AudioMix α) : String :=
  let delayed := "[1:a]volume=" ++ numeral (Scalar.max j.volume 0.0) ++ ",adelay=" ++
    toString j.delay ++ ":all=1"
  if j.baseHasAudio then
    delayed ++
      "[a1];[0:a][a1]amix=inputs=2:duration=first:dropout_transition=2:normalize=0[a]"
  else delayed ++ ",atrim=end=" ++ numeral j.maxDuration ++ "[a]"

end Splice
