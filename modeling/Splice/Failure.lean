import Splice.Host.OsError
import Splice.Path
import Splice.Text.Blank

/-!
# Failures

Why a command or a render did not succeed. What an engine says about a failed job can be long, so
only the beginning of it is kept (`shortened`).

Only failures that something here raises are listed, so there is none of an unknown kind. A document
that cannot be read is `unreadable` without more words: where in the text the reader stopped is for
the user alone, and nothing decides by it.
-/

namespace Splice

/-- Why something did not succeed. An engine that failed can be told from everything else
(`Failure.isEngine`). -/
inductive Failure where
  /-- The timeline or the output settings are refused, before any job runs. -/
  | invalid (message : String)
  | emptyProject
  | missingSource (id : String)
  | missingAsset (id : String)
  /-- A job failed, with the beginning of what the engine said. -/
  | engine (operation diagnostic : String)
  | unavailable (message : String)
  | probe (path : Path) (message : String)
  /-- The working directory or the disk failed. -/
  | resource (message : String)
  | config (message : String)
  | os (error : OsError)
  /-- A document is not of the expected form. -/
  | unreadable
deriving DecidableEq, Repr

/-! ### Diagnostics -/

/-- The greatest number of characters of a diagnostic that are kept. -/
def longestDiagnostic : Nat := 500

/-- The diagnostic of an engine that said nothing. -/
def standardDiagnostic : String := "Video processing command failed"

/-- The beginning of a diagnostic, without blanks at its ends; dots show that it goes on. -/
def shortened (text : String) (limit : Nat) : String :=
  let trimmed := Text.trimChars text.toList
  if trimmed.isEmpty then standardDiagnostic
  else if trimmed.length ≤ limit then String.ofList trimmed
  else String.ofList (trimmed.take limit) ++ "..."

namespace Failure

/-- The failure of a job, from what the engine said. -/
def ofDiagnostic (operation text : String) : Failure :=
  engine operation (shortened text longestDiagnostic)

/-- Whether an engine failed, as opposed to everything around it. -/
def isEngine : Failure → Bool
  | engine .. => true
  | _ => false

/-- The message of a failure. -/
def message : Failure → String
  | invalid text => "Validation error: " ++ text
  | emptyProject => "Project has no clips to export"
  | missingSource id => "Missing source video " ++ id
  | missingAsset id => "Missing asset " ++ id
  | engine operation diagnostic => operation ++ " failed: " ++ diagnostic
  | unavailable text => "Media backend unavailable: " ++ text
  | probe path text => "Probe error for " ++ path.text ++ ": " ++ text
  | resource text => "Resource error: " ++ text
  | config text => "Configuration error: " ++ text
  | os error => error.message
  | unreadable => "not a document of the expected form"

end Failure

end Splice
