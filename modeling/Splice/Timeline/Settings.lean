import Splice.Number.Scalar
import Splice.Text.Blank

/-!
# Output settings

The output format that is asked for, field by field, and the formats that publishing platforms ask
for under their names.
-/

namespace Splice

/-- The requested output format. -/
structure OutputSettings (α : Type) where
  width? : Option Nat := none
  height? : Option Nat := none
  fps? : Option α := none
  bitrate? : Option String := none
  preset? : Option String := none
deriving BEq

/-- The format of a publishing platform. -/
structure Preset (α : Type) where
  name : String
  width : Nat
  height : Nat
  fps : α
  bitrate : String

namespace Preset

variable {α : Type} [Scalar α]

/-- A format in portrait orientation. -/
def portrait (name bitrate : String) : Preset α := ⟨name, 1080, 1920, 30.0, bitrate⟩

/-- The known platforms. -/
def all : List (Preset α) :=
  [portrait "tiktok" "4M", portrait "instagram" "4M", portrait "reels" "4M",
    portrait "facebook" "4M", portrait "youtube_shorts" "6M", ⟨"youtube", 1920, 1080, 30.0, "8M"⟩]

/-- The platform of a name. Letter case does not matter; a space or a hyphen is an underscore. -/
def ofName? (name : String) : Option (Preset α) :=
  let key := (Text.nameKey name).map fun c ↦ if c = ' ' ∨ c = '-' then '_' else c
  all.find? (·.name == key)

end Preset

namespace OutputSettings

/-- Each field from the first settings, else from the second. -/
def or {β : Type} (s t : OutputSettings β) : OutputSettings β where
  width? := s.width?.or t.width?
  height? := s.height?.or t.height?
  fps? := s.fps?.or t.fps?
  bitrate? := s.bitrate?.or t.bitrate?
  preset? := s.preset?.or t.preset?

/-- The platform that the settings name. -/
def platform? {α : Type} [Scalar α] (s : OutputSettings α) : Option (Preset α) :=
  s.preset?.bind Preset.ofName?

end OutputSettings

end Splice
