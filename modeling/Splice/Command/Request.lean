import Splice.Command.Grammar
import Splice.Path
import Splice.Timeline.Settings

/-!
# Requests

The commands of the program and their arguments. The options for the configuration and for verbosity
may stand before or after the name of the command; after it they count more.
-/

namespace Splice

/-- A project, and where its media are. -/
structure ProjectFiles where
  project : Path
  media? : Option Path
  mediaRoot? : Option Path

/-- A command. -/
inductive Command (α : Type) where
  | render (files : ProjectFiles) (output : Path) (settings : OutputSettings α) (trace : Bool)
      (tempRoot? : Option Path)
  | plan (files : ProjectFiles) (settings : OutputSettings α)
  | validate (files : ProjectFiles)
  | check
  | config (save : Bool)

/-- What a user asks for. -/
structure Request (α : Type) where
  verbose : Bool
  config? : Option Path
  command : Command α

namespace Request

/-! ### Options -/

/-- The options of every command. -/
def sharedOptions : List OptionSpec :=
  [⟨"verbose", some 'v', none⟩, ⟨"config", none, some .path⟩, ⟨"help", some 'h', none⟩]

/-- The options before the name of a command. -/
def leadingOptions : List OptionSpec := ⟨"version", some 'V', none⟩ :: sharedOptions

/-- The options that say where the media of a project are. -/
def mediaOptions : List OptionSpec :=
  [⟨"media", some 'm', some .path⟩, ⟨"media-root", none, some .path⟩]

/-- The options that override the settings of a project. -/
def settingsOptions : List OptionSpec :=
  [⟨"width", none, some .natural⟩, ⟨"height", none, some .natural⟩, ⟨"fps", none, some .scalar⟩,
    ⟨"bitrate", none, some .text⟩, ⟨"preset", none, some .text⟩]

/-- The options of rendering. -/
def renderOptions : List OptionSpec :=
  [⟨"output", some 'o', some .path⟩, ⟨"trace", none, none⟩, ⟨"temp-root", none, some .path⟩]

/-- The arguments after the name of a command, if there is such a command. -/
def usageOf? : String → Option Usage
  | "render" => some ⟨sharedOptions ++ mediaOptions ++ settingsOptions ++ renderOptions, true⟩
  | "plan" => some ⟨sharedOptions ++ mediaOptions ++ settingsOptions, true⟩
  | "validate" => some ⟨sharedOptions ++ mediaOptions, true⟩
  | "check" => some ⟨sharedOptions, false⟩
  | "config" => some ⟨⟨"save", none, none⟩ :: sharedOptions, false⟩
  | _ => none

/-! ### Commands -/

/-- The path that is the value of an option. -/
def path? (g : Given) (name : String) : Option Path := (g.value? name).map Path.mk

/-- The project of a command. -/
def files? (g : Given) : Option ProjectFiles :=
  g.positional?.map fun project ↦ ⟨⟨project⟩, path? g "media", path? g "media-root"⟩

variable {α : Type} [Scalar α]

/-- The settings of a command. -/
def settingsOf (g : Given) : OutputSettings α where
  width? := (g.value? "width").bind ValueKind.natural?
  height? := (g.value? "height").bind ValueKind.natural?
  fps? := (g.value? "fps").bind Scalar.read?
  bitrate? := g.value? "bitrate"
  preset? := g.value? "preset"

/-- The command of a name, if nothing is missing. -/
def commandOf? (name : String) (g : Given) : Option (Command α) :=
  match name with
  | "render" => do
    return .render (← files? g) (← path? g "output") (settingsOf g) (g.has "trace")
      (path? g "temp-root")
  | "plan" => do return .plan (← files? g) (settingsOf g)
  | "validate" => (files? g).map .validate
  | "check" => some .check
  | "config" => some (.config (g.has "save"))
  | _ => none

/-- Whether the words after a request for help name at most one command. -/
def isHelpTopic (words : List String) : Bool :=
  match words with
  | [] => true
  | [name] => name == "help" || (usageOf? name).isSome
  | _ => false

/-- Reads the arguments of a command. -/
def ofCommand (leading : Given) (name : String) (arguments : List String) :
    Reading (Request α) :=
  match usageOf? name with
  | none => if name == "help" && isHelpTopic arguments then .help else .misuse
  | some usage =>
    match readArguments α usage {} arguments with
    | .help => .help
    | .version => .version
    | .misuse => .misuse
    | .done g =>
      match commandOf? name g with
      | none => .misuse
      | some command =>
        .done {
          verbose := leading.has "verbose" || g.has "verbose"
          config? := (path? g "config").or (path? leading "config")
          command }

/-- Reads the arguments of the program. -/
def ofArguments (arguments : List String) : Reading (Request α) :=
  match readUpToCommand α leadingOptions {} arguments with
  | .done (leading, name, rest) => ofCommand leading name rest
  | .help => .help
  | .version => .version
  | .misuse => .misuse

end Request

end Splice
