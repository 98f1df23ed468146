import Splice.Timeline.Project
import Splice.Json.Record

/-!
# Projects from documents

Reading a project from a document. Records are read as `Json.Record` says; a clip has to be an
object. The members of a clip that are not its own fields are read for its kind and its placement,
so all of them have to be readable, whether or not they are known, and may not nest too deeply
(`nestingLimit`, counted from the outermost value of the document).
-/

namespace Splice

open Json (scalar? bool? string? nat32? int32? list? Record)

variable {α : Type} [Scalar α]

/-! ### Parts of a clip -/

/-- Reads a position. -/
def Position.decode? (value : Json) : Option (Position α) := do
  let r ← Record.of? ["x", "y"] value
  return { x := ← r.withDefault? "x" 0.0 scalar?, y := ← r.withDefault? "y" 0.0 scalar? }

/-- Reads a size. -/
def Size.decode? (value : Json) : Option (Size α) := do
  let r ← Record.of? ["width", "height"] value
  return {
    width := ← r.withDefault? "width" 100.0 scalar?
    height := ← r.withDefault? "height" 100.0 scalar? }

/-- Reads a crop box. -/
def Crop.decode? (value : Json) : Option (Crop α) := do
  let r ← Record.of? ["x", "y", "width", "height"] value
  return {
    x := ← r.withDefault? "x" 0.0 scalar?
    y := ← r.withDefault? "y" 0.0 scalar?
    width := ← r.withDefault? "width" 1.0 scalar?
    height := ← r.withDefault? "height" 1.0 scalar? }

/-- Reads a fit mode: any string. -/
def FitMode.decode? (value : Json) : Option FitMode := value.string?.map FitMode.ofName

/-- Reads effects. -/
def Effects.decode? (value : Json) : Option (Effects α) := do
  let r ← Record.of? ["opacity", "brightness", "contrast", "saturation", "gamma", "hue", "blur",
    "volume", "fadeIn", "fadeOut", "audioFadeIn", "audioFadeOut", "speed", "transition",
    "transitionDuration", "transitionWith", "blendMode"] value
  return {
    opacity? := ← r.optional? "opacity" scalar?
    brightness? := ← r.optional? "brightness" scalar?
    contrast? := ← r.optional? "contrast" scalar?
    saturation? := ← r.optional? "saturation" scalar?
    gamma? := ← r.optional? "gamma" scalar?
    hue? := ← r.optional? "hue" scalar?
    blur? := ← r.optional? "blur" scalar?
    volume? := ← r.optional? "volume" scalar?
    fadeIn? := ← r.optional? "fadeIn" scalar?
    fadeOut? := ← r.optional? "fadeOut" scalar?
    audioFadeIn? := ← r.optional? "audioFadeIn" scalar?
    audioFadeOut? := ← r.optional? "audioFadeOut" scalar?
    speed? := ← r.optional? "speed" scalar?
    transition? := ← r.optional? "transition" string?
    transitionDuration? := ← r.optional? "transitionDuration" scalar?
    transitionWith? := ← r.optional? "transitionWith" string?
    blendMode? := ← r.optional? "blendMode" string? }

/-- Reads a keyframe's position. -/
def PartialPosition.decode? (value : Json) : Option (PartialPosition α) := do
  let r ← Record.of? ["x", "y"] value
  return { x? := ← r.optional? "x" scalar?, y? := ← r.optional? "y" scalar? }

/-- Reads a keyframe. -/
def Keyframe.decode? (value : Json) : Option (Keyframe α) := do
  let r ← Record.of? ["time", "absolute", "position", "opacity"] value
  return {
    time := ← r.required? "time" scalar?
    absolute := ← r.withDefault? "absolute" false bool?
    position? := ← r.optional? "position" PartialPosition.decode?
    opacity? := ← r.optional? "opacity" scalar? }

/-- Reads a placement from the members of a clip. -/
def Look.ofMembers? (members : List (String × Json)) : Option (Look α) := do
  let r ← Record.ofMembers?
    ["position", "size", "rotation", "fitMode", "crop", "effects", "keyframes"] members
  return {
    position := ← r.withDefault? "position" .origin Position.decode?
    size := ← r.withDefault? "size" .full Size.decode?
    rotation := ← r.withDefault? "rotation" 0.0 scalar?
    fitMode := ← r.withDefault? "fitMode" .fit FitMode.decode?
    crop? := ← r.optional? "crop" Crop.decode?
    effects := ← r.withDefault? "effects" {} Effects.decode?
    keyframes := ← r.withDefault? "keyframes" [] (list? Keyframe.decode?) }

/-! ### Kinds of clips -/

/-- Reads a video or an image clip. -/
def MediaClip.ofMembers? (members : List (String × Json)) : Option (MediaClip α) := do
  let r ← Record.ofMembers? ["sourceId", "trimStart", "trimEnd"] members
  return {
    sourceId := ← r.required? "sourceId" string?
    trimStart := ← r.withDefault? "trimStart" 0.0 scalar?
    trimEnd? := ← r.optional? "trimEnd" scalar?
    look := ← Look.ofMembers? members }

/-- Reads the style of a text. -/
def TextClip.style? (value : Json) : Option (Option String) := do
  let r ← Record.of? ["color"] value
  r.optional? "color" string?

/-- Reads a text clip. -/
def TextClip.ofMembers? (members : List (String × Json)) : Option (TextClip α) := do
  let r ← Record.ofMembers? ["text", "label", "style"] members
  return {
    text? := ← r.optional? "text" string?
    label? := ← r.optional? "label" string?
    color? := ← r.withDefault? "style" none TextClip.style?
    look := ← Look.ofMembers? members }

/-- Reads the style of a shape: its type, its color, and whether it has an outline. -/
def ShapeClip.style? (value : Json) : Option (Option String × Option String × Bool) := do
  let r ← Record.of? ["shapeType", "color", "outline"] value
  let shapeType ← r.optional? "shapeType" string?
  let color ← r.optional? "color" string?
  let outline ← r.withDefault? "outline" false bool?
  return (shapeType, color, outline)

/-- Reads a shape clip. -/
def ShapeClip.ofMembers? (members : List (String × Json)) : Option (ShapeClip α) := do
  let r ← Record.ofMembers? ["label", "style"] members
  let (shapeType, color, outline) ← r.withDefault? "style" (none, none, false) ShapeClip.style?
  return {
    label? := ← r.optional? "label" string?
    shapeType? := shapeType
    color? := color
    outline := outline
    look := ← Look.ofMembers? members }

/-- Reads a sound. -/
def AudioClip.ofMembers? (members : List (String × Json)) : Option (AudioClip α) := do
  let r ← Record.ofMembers? ["sourceId", "trimStart", "effects"] members
  return {
    sourceId := ← r.required? "sourceId" string?
    trimStart := ← r.withDefault? "trimStart" 0.0 scalar?
    effects := ← r.withDefault? "effects" {} Effects.decode? }

/-! ### Clips -/

/-- The kinds of clips, without their contents. -/
inductive ClipType where
  | video
  | image
  | text
  | shape
  | audio
deriving DecidableEq, Repr

/-- The kinds in the order of their numbers. -/
def ClipType.all : List ClipType := [video, image, text, shape, audio]

/-- The name of a kind. -/
def ClipType.name : ClipType → String
  | video => "video"
  | image => "image"
  | text => "text"
  | shape => "shape"
  | audio => "audio"

/-- Reads the kind of a clip: its name or its number. -/
def ClipType.decode? (α : Type) [Scalar α] : Json → Option ClipType
  | .string name => all.find? (·.name == name)
  | .number literal =>
    match literal.number? (α := α) with
    | some (.natural n) => all[n]?
    | _ => none
  | _ => none

/-- Reads what a clip consists of from its members. -/
def Content.ofMembers? (members : List (String × Json)) : Option (Content α) := do
  let r ← Record.ofMembers? ["type"] members
  match ← r.required? "type" (ClipType.decode? α) with
  | .video => (MediaClip.ofMembers? members).map video
  | .image => (MediaClip.ofMembers? members).map image
  | .text => (TextClip.ofMembers? members).map text
  | .shape => (ShapeClip.ofMembers? members).map shape
  | .audio => (AudioClip.ofMembers? members).map audio

/-- The greatest depth at which a member of a clip may open an array or an object. -/
def nestingLimit : Nat := 127

/-- The fields that every clip has. -/
def Clip.ownNames : List String := ["id", "startTime", "duration", "layer", "layerGroup"]

/-- Reads a clip whose object stands at a depth of the document. -/
def Clip.decode? (level : Nat) : Json → Option (Clip α)
  | .object members => do
    let r ← Record.ofMembers? ownNames members
    let others := members.filter fun member ↦ !ownNames.contains member.1
    if !others.all fun member ↦
        member.2.isReadable α && level + member.2.depth ≤ nestingLimit then none
    else return {
      id := ← r.withDefault? "id" "" string?
      startTime := ← r.withDefault? "startTime" 0.0 scalar?
      duration := ← r.required? "duration" scalar?
      layer := ← r.withDefault? "layer" 1 (int32? α)
      layerGroup? := ← r.optional? "layerGroup" string?
      content := ← Content.ofMembers? others }
  | _ => none

/-! ### Projects -/

/-- Reads a requested output format. -/
def OutputSettings.decode? (value : Json) : Option (OutputSettings α) := do
  let r ← Record.of? ["width", "height", "fps", "bitrate", "preset"] value
  return {
    width? := ← r.optional? "width" (nat32? α)
    height? := ← r.optional? "height" (nat32? α)
    fps? := ← r.optional? "fps" scalar?
    bitrate? := ← r.optional? "bitrate" string?
    preset? := ← r.optional? "preset" string? }

/-- The depth of a clip's object in a project: below the project, its tracks, a track and its
clips. -/
def Project.clipLevel : Nat := 5

/-- Reads a track. -/
def Track.decode? (value : Json) : Option (Track α) := do
  let r ← Record.of? ["id", "clips"] value
  return {
    id? := ← r.optional? "id" string?
    clips := ← r.withDefault? "clips" [] (list? (Clip.decode? Project.clipLevel)) }

/-- Reads a project. -/
def Project.decode? (value : Json) : Option (Project α) := do
  let r ← Record.of? ["tracks", "outputSettings"] value
  return {
    tracks := ← r.withDefault? "tracks" [] (list? Track.decode?)
    outputSettings? := ← r.optional? "outputSettings" OutputSettings.decode? }

end Splice
