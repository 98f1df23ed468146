import Splice.Config.Basic
import Splice.Failure
import Splice.Host.Basic

/-!
# Configuration files

Where a configuration lies, and how it is read and written. The standard file may be missing or
unreadable, and then the defaults count; a file that a user names has to be right.
-/

namespace Splice

namespace Config

variable {m : Type → Type} [Monad m] (host : Host m)

/-! ### Places -/

/-- The variable that switches the trace on. -/
def traceVariable : String := "MONTAGE_PARITY_DEBUG"

/-- The directory for temporary files. -/
def tempDir : m Path := do return ⟨(← host.setting? "TMPDIR").getD "/tmp"⟩

/-- The path of the standard file. -/
def standardPath : m Path := do
  let base ← match ← host.setting? "XDG_CONFIG_HOME" with
    | some directory => pure (Path.mk directory)
    | none => pure ((Path.mk ((← host.setting? "HOME").getD "/tmp")).join ".config")
  return (base.join "montage").join "config.json"

/-- Whether an environment variable is switched on. -/
def flag (name : String) : m Bool := do return (← host.setting? name).any isSwitchedOn

/-- Whether renders leave a trace. -/
def tracesRenders (c : Config) : m Bool := do
  return c.render.trace || (← flag host traceVariable)

/-- The directory for intermediate files. -/
def tempRoot (c : Config) : m Path :=
  match c.render.tempRoot? with
  | some path => return path
  | none => tempDir host

/-! ### Reading and writing -/

/-- Reads a file. -/
def loadFile (α : Type) [Scalar α] (path : Path) : m (Except Failure Config) := do
  match ← host.readText path with
  | .error e => return .error (.config ("cannot read " ++ path.text ++ ": " ++ e.message))
  | .ok text =>
    match ofText? α text with
    | some config => return .ok config
    | none =>
      return .error (.config
        ("cannot parse " ++ path.text ++ ": " ++ Failure.unreadable.message))

/-- Reads the standard file, or gives the defaults. -/
def load (α : Type) [Scalar α] : m Config := do
  let path ← standardPath host
  if ← host.isPresent path then
    match ← loadFile host α path with
    | .ok config => return config
    | .error _ => return {}
  else return {}

/-- Writes the standard file. -/
def save (c : Config) : m (Except OsError Unit) := do
  let path ← standardPath host
  let prepared ← match path.parent? with
    | some around => host.createDirs around
    | none => pure (.ok ())
  match prepared with
  | .error e => return .error e
  | .ok () => host.writeText path c.text

end Config

end Splice
