import Splice.Text.Lowercase
import Splice.Timeline.Clip

/-!
# Transitions

Whether a base clip blends into the next one. A transition is accepted if no frame lies between the
clips, the author did not mean another clip, and the requested style and length are usable. Every
pair of neighbours has a decision, so a plan can say why there is no transition.
-/

namespace Splice

/-! ### Styles -/

/-- How one picture replaces another. -/
inductive TransitionStyle where
  | fade
  | wipeLeft
deriving DecidableEq, Repr

namespace TransitionStyle

/-- The name of a style. -/
def name : TransitionStyle → String
  | fade => "fade"
  | wipeLeft => "wipeleft"

/-- The style that replaces one which could not be rendered. -/
def fallback : TransitionStyle := fade

/-- How a name in lowercase is compared: by its words, with one space between two of them. Blanks,
underscores and hyphens stand between words. -/
def key (lowered : List Char) : List Char :=
  let spaced := lowered.map fun c ↦ if c = '_' ∨ c = '-' then ' ' else c
  [' '].intercalate (Text.words spaced)

/-- Whether a text stands inside another one. -/
def isInside (part : List Char) : List Char → Bool
  | [] => part.isEmpty
  | c :: rest => part.isPrefixOf (c :: rest) || isInside part rest

/-- The style of a name in lowercase. -/
def ofLowercase? (lowered : List Char) : Option TransitionStyle :=
  let text := key lowered
  if text = "fade".toList ∨ text = "cross fade".toList ∨ text = "crossfade".toList then some fade
  else if isInside "wipe".toList text then some wipeLeft
  else none

/-- The style of a name. -/
def ofName? (name : String) : Option TransitionStyle :=
  ofLowercase? (Text.lowercase (Text.trimChars name.toList))

end TransitionStyle

/-! ### Decisions -/

/-- Why a transition was accepted or not. -/
inductive TransitionReason where
  | accepted
  | gapBetween
  | otherTarget
  | notUsable
deriving DecidableEq, Repr

/-- The name of a reason. -/
def TransitionReason.name : TransitionReason → String
  | accepted => "ok"
  | gapBetween => "gap_not_adjacent_frames"
  | otherTarget => "transition_with_mismatch"
  | notUsable => "missing_or_invalid_transition"

/-- The decision on the edge from the base clip at an index to the next one. The lengths are there
if the style and the requested length are usable. -/
structure EdgeDecision (α : Type) where
  index : Nat
  fromClipId : String
  toClipId : String
  gapSeconds : α
  gapFrames : Int
  reason : TransitionReason
  style? : Option TransitionStyle
  requestedDuration : α
  duration? : Option α
  maxDuration? : Option α

namespace EdgeDecision

/-- Whether the transition is accepted. -/
def isAccepted {α : Type} (d : EdgeDecision α) : Bool := d.reason == .accepted

/-- The style and the length of an accepted transition. -/
def transition? {α : Type} (d : EdgeDecision α) : Option (TransitionStyle × α) :=
  if d.isAccepted then do return (← d.style?, ← d.duration?) else none

variable {α : Type} [Scalar α]

/-- Whether the author meant another clip than the next one. A clip without an id is never another
one. -/
def missesTarget (effects : Effects α) (nextId : String) : Bool :=
  !nextId.isEmpty && effects.transitionTarget?.any (· != nextId)

/-- The decision on the transition from a clip to the next one. -/
def decide (index : Nat) (previous next : Clip α) (fps : α) : EdgeDecision α :=
  let effects := previous.effects
  let gapSeconds := next.startTime - previous.effectiveEnd
  let gapFrames := Scalar.toInt64 (Scalar.round (gapSeconds * fps))
  let style? := effects.transition?.bind TransitionStyle.ofName?
  let requested := effects.transitionDuration
  let isUsable := style?.isSome && Decidable.decide (0.0 < requested)
  let longest := Scalar.min previous.effectiveDuration next.effectiveDuration
  { index
    fromClipId := previous.id
    toClipId := next.id
    gapSeconds
    gapFrames
    reason :=
      if gapFrames ≠ 0 then .gapBetween
      else if missesTarget effects next.id then .otherTarget
      else if isUsable then .accepted
      else .notUsable
    style?
    requestedDuration := requested
    duration? := if isUsable then some (Scalar.min requested longest) else none
    maxDuration? := if isUsable then some longest else none }

/-- The decisions on the edges of a base sequence from an index on. -/
def decideFrom (fps : α) (index : Nat) : List (Clip α) → List (EdgeDecision α)
  | previous :: next :: rest =>
    decide index previous next fps :: decideFrom fps (index + 1) (next :: rest)
  | _ => []

/-- The decisions on all edges of a base sequence. -/
def ofBase (base : List (Clip α)) (fps : α) : List (EdgeDecision α) := decideFrom fps 0 base

end EdgeDecision

end Splice
