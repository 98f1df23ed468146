import Splice.Host.Basic
import Splice.Json.Parse
import Splice.Json.Print
import Splice.Timeline.Decode
import Splice.Timeline.Encode
import Splice.Timeline.Validation

/-!
# Project files

A project as a text, and the file that holds it.
-/

namespace Splice

/-- Why a project could not be read, written or approved. -/
inductive ProjectError where
  | os (path : Path) (error : OsError)
  | unreadable (path : Path)
  | invalid (summary : String)
deriving DecidableEq, Repr

/-- The message of an error. -/
def ProjectError.message : ProjectError → String
  | os path error => "I/O error at " ++ path.text ++ ": " ++ error.message
  | unreadable path => "Parse error in " ++ path.text ++ ": not a project"
  | invalid summary => "Invalid timeline: " ++ summary

namespace Project

variable {α : Type} [Scalar α] {m : Type → Type} [Monad m]

/-- The text of a project. -/
def text (project : Project α) : String := project.encode.pretty

/-- Reads a project from its text. -/
def ofText? (text : String) : Option (Project α) := (Json.parse? text).bind decode?

/-- Reads a project from a file. -/
def load (host : Host m) (path : Path) : m (Except ProjectError (Project α)) := do
  match ← host.readText path with
  | .error e => return .error (.os path e)
  | .ok text =>
    match ofText? text with
    | some project => return .ok project
    | none => return .error (.unreadable path)

/-- Writes a project to a file. -/
def save (host : Host m) (project : Project α) (path : Path) : m (Except ProjectError Unit) := do
  return (← host.writeText path project.text).mapError (.os path)

/-- Refuses a project with faults. -/
def validate (project : Project α) : Except ProjectError Unit :=
  if project.issues.isEmpty then .ok () else .error (.invalid (Issue.summary project.issues))

end Project

end Splice
