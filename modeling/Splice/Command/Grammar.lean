import Splice.Number.Reading

/-!
# The grammar of arguments

How the arguments of a command are read: options with a long name and perhaps a letter, some of them
with a value, and for some commands one positional argument. A value follows its option, or is
attached to it; letters may share one dash. After two dashes everything is positional.

Arguments are read from left to right. The first fault ends the reading, and so does a request for
help.
-/

namespace Splice

/-- What the value of an option has to be. -/
inductive ValueKind where
  | path
  | text
  | natural
  | scalar
deriving DecidableEq, Repr

/-- An option. -/
structure OptionSpec where
  name : String
  letter? : Option Char := none
  value? : Option ValueKind := none

/-- The arguments that a command takes. -/
structure Usage where
  options : List OptionSpec
  takesPath : Bool

/-- The arguments that were given. -/
structure Given where
  flags : List String := []
  values : List (String × String) := []
  positional? : Option String := none

/-- How the reading of arguments ended. -/
inductive Reading (β : Type) where
  | done (result : β)
  | help
  | version
  | misuse

namespace ValueKind

/-- The natural number below `2 ^ 32` that a text consists of; a plus sign may stand before it. -/
def natural? (text : String) : Option Nat :=
  let (negative, digits) := splitSign text.toList
  if digits.isEmpty || !digits.all Char.isDigit then none
  else
    let n := natOfDigits digits
    if negative && n != 0 then none else if n < Word.count32 then some n else none

/-- Whether a text can be the value. -/
def accepts (α : Type) [Scalar α] (kind : ValueKind) (text : String) : Bool :=
  match kind with
  | path => !text.isEmpty
  | .text => true
  | natural => (natural? text).isSome
  | scalar => (Scalar.read? (α := α) text).isSome

end ValueKind

namespace Given

/-- Whether a flag was given. -/
def has (g : Given) (flag : String) : Bool := g.flags.contains flag

/-- The value of an option, if it was given. -/
def value? (g : Given) (name : String) : Option String := g.values.lookup name

/-- With a flag, unless it was given before. -/
def addFlag? (g : Given) (name : String) : Option Given :=
  if g.has name then none else some { g with flags := name :: g.flags }

/-- With the value of an option, unless it was given before or the value is of another kind. -/
def addValue? (α : Type) [Scalar α] (g : Given) (name : String) (kind : ValueKind)
    (value : String) : Option Given :=
  if (g.value? name).isSome || !kind.accepts α value then none
  else some { g with values := (name, value) :: g.values }

/-- With a positional argument, which is a path, if the command takes one and has none yet. -/
def addPositional? (usage : Usage) (g : Given) (value : String) : Option Given :=
  if !usage.takesPath || g.positional?.isSome || value.isEmpty then none
  else some { g with positional? := some value }

end Given

/-! ### Reading options -/

/-- What one argument with a dash amounts to. -/
inductive OptionStep where
  | given (given : Given)
  | needsValue (given : Given) (name : String) (kind : ValueKind)
  | help
  | version
  | misuse

namespace OptionStep

/-- The step to what is given, if that is possible. -/
def ofGiven? : Option Given → OptionStep
  | some g => given g
  | none => misuse

variable (α : Type) [Scalar α]

/-- An option by its long name, with the value that is attached to it. -/
def ofName (options : List OptionSpec) (g : Given) (name : String) (attached? : Option String) :
    OptionStep :=
  match options.find? (·.name == name), attached? with
  | some ⟨_, _, some kind⟩, some value => ofGiven? (g.addValue? α name kind value)
  | some ⟨_, _, some kind⟩, none => needsValue g name kind
  | _, some _ => misuse
  | some ⟨_, _, none⟩, none =>
    if name == "help" then help
    else if name == "version" then version
    else ofGiven? (g.addFlag? name)
  | none, none => misuse

/-- Options by their letters. The rest of the letters is the value of an option that takes one. -/
def ofLetters (options : List OptionSpec) (g : Given) : List Char → OptionStep
  | [] => given g
  | c :: rest =>
    match options.find? (·.letter? == some c) with
    | none => misuse
    | some ⟨name, _, some _⟩ =>
      let attached? := match rest with
        | [] => none
        | '=' :: value => some (String.ofList value)
        | value => some (String.ofList value)
      ofName α options g name attached?
    | some ⟨name, _, none⟩ =>
      match ofName α options g name none with
      | given g => ofLetters options g rest
      | other => other

/-- The name before the first equals sign, and the text after it. -/
def splitAttached (text : List Char) : String × Option String :=
  match text.dropWhile (· != '=') with
  | [] => (String.ofList text, none)
  | _ :: value => (String.ofList (text.takeWhile (· != '=')), some (String.ofList value))

/-- An argument with a dash. -/
def ofArgument (options : List OptionSpec) (g : Given) (argument : List Char) : OptionStep :=
  match argument with
  | '-' :: '-' :: rest =>
    let (name, attached?) := splitAttached rest
    ofName α options g name attached?
  | '-' :: letters => ofLetters α options g letters
  | _ => misuse

end OptionStep

/-- Whether an argument is an option: it begins with a dash and is not only one. -/
def isOption (argument : String) : Bool :=
  match argument.toList with
  | ['-'] => false
  | '-' :: _ => true
  | _ => false

/-! ### Reading all arguments -/

/-- Reads arguments after two dashes. -/
def readPositional (usage : Usage) (g : Given) (arguments : List String) : Reading Given :=
  match arguments.foldlM (Given.addPositional? usage) g with
  | some g => .done g
  | none => .misuse

/-- Reads the arguments of a command. -/
def readArguments (α : Type) [Scalar α] (usage : Usage) (g : Given) :
    List String → Reading Given
  | [] => .done g
  | argument :: rest =>
    if argument == "--" then readPositional usage g rest
    else if isOption argument then
      match OptionStep.ofArgument α usage.options g argument.toList with
      | .given g => readArguments α usage g rest
      | .needsValue g name kind =>
        match rest with
        | value :: rest =>
          if isOption value then .misuse
          else match g.addValue? α name kind value with
            | some g => readArguments α usage g rest
            | none => .misuse
        | [] => .misuse
      | .help => .help
      | .version => .version
      | .misuse => .misuse
    else match g.addPositional? usage argument with
      | some g => readArguments α usage g rest
      | none => .misuse

/-- Reads options up to the name of a command, and gives the arguments after it. -/
def readUpToCommand (α : Type) [Scalar α] (options : List OptionSpec) (g : Given) :
    List String → Reading (Given × String × List String)
  | [] => .misuse
  | argument :: rest =>
    if argument == "--" then .misuse
    else if isOption argument then
      match OptionStep.ofArgument α options g argument.toList with
      | .given g => readUpToCommand α options g rest
      | .needsValue g name kind =>
        match rest with
        | value :: rest =>
          if isOption value then .misuse
          else match g.addValue? α name kind value with
            | some g => readUpToCommand α options g rest
            | none => .misuse
        | [] => .misuse
      | .help => .help
      | .version => .version
      | .misuse => .misuse
    else .done (g, argument, rest)

end Splice
