import Splice.Number.Scalar
import Splice.Text.Blank

/-!
# Effects

The effect parameters of a clip. Each may be left out; an accessor gives the value in effect, which
for a missing or infinite parameter, or one that is no number, is the neutral one.
-/

namespace Splice

/-- Effect parameters as the project gives them. -/
structure Effects (α : Type) where
  opacity? : Option α := none
  brightness? : Option α := none
  contrast? : Option α := none
  saturation? : Option α := none
  gamma? : Option α := none
  hue? : Option α := none
  blur? : Option α := none
  volume? : Option α := none
  fadeIn? : Option α := none
  fadeOut? : Option α := none
  audioFadeIn? : Option α := none
  audioFadeOut? : Option α := none
  speed? : Option α := none
  transition? : Option String := none
  transitionDuration? : Option α := none
  transitionWith? : Option String := none
  blendMode? : Option String := none
deriving BEq

/-- The lowest playback speed. -/
def leastSpeed {α : Type} [Scalar α] : α := 0.25

/-- The highest playback speed. -/
def greatestSpeed {α : Type} [Scalar α] : α := 4.0

namespace Effects

variable {α : Type} [Scalar α] (e : Effects α)

/-- The opacity, within `[0, 1]`. -/
def opacity : α := Scalar.clamp 0.0 1.0 (Scalar.finiteElse 1.0 e.opacity?)

/-- The brightness. -/
def brightness : α := Scalar.finiteElse 0.0 e.brightness?

/-- The contrast. -/
def contrast : α := Scalar.finiteElse 1.0 e.contrast?

/-- The saturation. -/
def saturation : α := Scalar.finiteElse 1.0 e.saturation?

/-- The gamma. -/
def gamma : α := Scalar.finiteElse 1.0 e.gamma?

/-- The hue, in degrees. -/
def hue : α := Scalar.finiteElse 0.0 e.hue?

/-- The radius of the blur. -/
def blur : α := Scalar.finiteElse 0.0 e.blur?

/-- The volume. -/
def volume : α := Scalar.finiteElse 1.0 e.volume?

/-- The length of the fade at the start. -/
def fadeIn : α := Scalar.max (Scalar.finiteElse 0.0 e.fadeIn?) 0.0

/-- The length of the fade at the end. -/
def fadeOut : α := Scalar.max (Scalar.finiteElse 0.0 e.fadeOut?) 0.0

/-- The length of the sound's fade at the start; by default the picture's. -/
def audioFadeIn : α := Scalar.max (Scalar.finiteElse e.fadeIn e.audioFadeIn?) 0.0

/-- The length of the sound's fade at the end; by default the picture's. -/
def audioFadeOut : α := Scalar.max (Scalar.finiteElse e.fadeOut e.audioFadeOut?) 0.0

/-- The playback speed, within its bounds. -/
def speed : α := Scalar.clamp leastSpeed greatestSpeed (Scalar.finiteElse 1.0 e.speed?)

/-- The requested length of the transition to the next clip. -/
def transitionDuration : α := Scalar.finiteElse 0.0 e.transitionDuration?

/-- The clip that the transition is meant for, if one is named. -/
def transitionTarget? : Option String :=
  (e.transitionWith?.map Text.trim).filter (!·.isEmpty)

end Effects

end Splice
