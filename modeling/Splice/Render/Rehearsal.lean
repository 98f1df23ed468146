import Splice.Host.Memory
import Splice.Render.Studio

/-!
# Rehearsals

A render without media tools. In a rehearsal all files are in memory, what is known about a media
file follows from its name (`MediaRules`), and a job only leaves a file that holds its own name,
unless a rule lets it fail (`Fault`). The rehearsal keeps every job that it is given and every name
that it is asked about.
-/

namespace Splice

/-! ### Rules -/

/-- What is known about media files: the first rule whose text stands in the name of a file decides.
Files without facts cannot be looked at. -/
structure MediaRules (α : Type) where
  rules : List (String × Option (MediaInfo α))
  fallback? : Option (MediaInfo α)

/-- Whether characters stand one after another somewhere in a text. -/
def standsIn (part : List Char) : List Char → Bool
  | [] => part.isEmpty
  | c :: rest => part.isPrefixOf (c :: rest) || standsIn part rest

/-- What is known about a file of the given name. -/
def MediaRules.info? {α : Type} (media : MediaRules α) (name : String) : Option (MediaInfo α) :=
  match media.rules.find? fun rule ↦ standsIn rule.1.toList name.toList with
  | some rule => rule.2
  | none => media.fallback?

/-- A rule that lets jobs fail: those of an operation, of a transition style and with a number,
wherever these are given. -/
structure Fault where
  operation? : Option String
  style? : Option String
  number? : Option Nat
  /-- The failure of an operation. -/
  failure : String → Failure

/-- The transition style of a job. -/
def Job.style? {α : Type} : Job α → Option TransitionStyle
  | .transition job => some job.style
  | _ => none

/-- Whether a rule lets a job with the given number fail. -/
def Fault.hits {α : Type} (fault : Fault) (job : Job α) (number : Nat) : Bool :=
  fault.operation?.all (· == job.operation) &&
  fault.style?.all (fun style ↦ job.style?.any (·.name == style)) &&
  fault.number?.all (· == number)

/-! ### Runs -/

/-- A rehearsal so far. A job stands beside the picture that it paints, if that was drawn in the
rehearsal. -/
structure Rehearsal (α : Type) where
  machine : Machine := {}
  probed : List String := []
  jobs : List (Job α × Option Picture) := []

/-- What is done in a rehearsal. -/
abbrev RehearsalM (α : Type) := StateM (Rehearsal α)

namespace Rehearsal

variable {α : Type}

/-- The machine of a rehearsal. -/
def host : Host (RehearsalM α) :=
  Machine.host.lift fun action rehearsal ↦
    let (result, machine) := action rehearsal.machine
    (result, { rehearsal with machine })

/-- The name that a path ends in. -/
def nameOf (path : Path) : String := path.fileName?.getD ""

/-- Looks at a media file. -/
def probe (media : MediaRules α) (path : Path) : RehearsalM α (Except Failure (MediaInfo α)) := do
  modify fun rehearsal ↦ { rehearsal with probed := rehearsal.probed ++ [nameOf path] }
  match media.info? (nameOf path) with
  | some info => return .ok info
  | none => return .error (.probe path "nothing is known")

/-- The drawn picture that a job paints. -/
def painted? (machine : Machine) : Job α → Option Picture
  | .overlay job =>
    match job.source with
    | .image path => machine.picture? path
    | .video _ => none
  | _ => none

/-- Does a job, as far as a rehearsal does it. -/
def perform (faults : List Fault) (job : Job α) : RehearsalM α (Except Failure Unit) := do
  let rehearsal ← get
  set { rehearsal with jobs := rehearsal.jobs ++ [(job, painted? rehearsal.machine job)] }
  match faults.find? (·.hits job rehearsal.jobs.length) with
  | some fault => return .error (fault.failure job.operation)
  | none =>
    let _ ← host.writeText job.output (nameOf job.output)
    return .ok ()

/-- The engine of a rehearsal. -/
def engine (media : MediaRules α) (faults : List Fault) : Engine (RehearsalM α) α :=
  ⟨perform faults, probe media⟩

/-- The studio of a rehearsal, with its media below the given directory. -/
def studio (root : Path) (media : MediaRules α) (faults : List Fault) :
    Studio (RehearsalM α) α where
  engine := engine media faults
  storage := .folder host root
  workspace := .ofHost host
  report _ := pure ()

end Rehearsal

end Splice
