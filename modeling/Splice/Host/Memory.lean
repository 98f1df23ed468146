import Splice.Host.Basic
import Splice.Host.FileTree

/-!
# Hosts in memory

A machine as a value: its files, its environment, its programs and what it has printed. Every
operation of the host is a function on that value, so a run is a function too, and can be looked at
from the start to the end.

A program is a function of its arguments, of the number of calls before and of the files. Files in
the tree cannot be run.
-/

namespace Splice

/-- A program: what it leaves behind and the files after it, from its arguments, the number of
earlier calls of it, and the files before it. -/
abbrev Program := List String → Nat → FileTree → Finished × FileTree

/-- A call of a program, with the files at its beginning. -/
structure Call where
  program : String
  arguments : List String
  files : FileTree

/-- A machine in memory. -/
structure Machine where
  files : FileTree := {}
  current : Place := []
  settings : List (String × String) := []
  commands : List String := []
  programs : List (String × Program) := []
  calls : List Call := []
  pictures : List (Place × Picture) := []
  scratchCount : Nat := 0
  output : String := ""
  errors : String := ""

namespace Machine

/-- The path of a place. -/
def pathOf (place : Place) : Path := ⟨"/" ++ "/".intercalate place⟩

/-- A change of the files that may fail. -/
def update (change : FileTree → Place → Except OsError FileTree) :
    StateM Machine (Except OsError Unit) := fun machine ↦
  match change machine.files machine.current with
  | .ok files => (.ok (), { machine with files })
  | .error e => (.error e, machine)

/-- Draws a picture into a file. -/
def drawPicture (path : Path) (picture : Picture) : StateM Machine (Except OsError Unit) :=
  fun machine ↦
    match machine.files.fileSlot machine.current path with
    | .ok place =>
      (.ok (), { machine with
        files := machine.files.put place (.file "")
        pictures := (place, picture) :: machine.pictures })
    | .error e => (.error e, machine)

/-- The picture in a file. -/
def picture? (machine : Machine) (path : Path) : Option Picture :=
  match machine.files.locate machine.current path with
  | .ok place => machine.pictures.lookup place
  | .error _ => none

/-- Makes a fresh directory. -/
def makeScratch (root : Path) (start : String) : StateM Machine (Except OsError Path) :=
  fun machine ↦
    let around := if root.isAbsolute then root else (pathOf machine.current).join root.text
    let path := around.join (start ++ toString machine.scratchCount)
    match machine.files.createDir machine.current path with
    | .ok files => (.ok path, { machine with files, scratchCount := machine.scratchCount + 1 })
    | .error e => (.error e, machine)

/-- Removes a directory with everything in it. -/
def dropTree (path : Path) : StateM Machine Unit := fun machine ↦
  match machine.files.locate machine.current path with
  | .ok place => ((), { machine with files := machine.files.eraseBelow place })
  | .error _ => ((), machine)

/-- Why a path cannot be run. -/
def refusal (machine : Machine) (path : Path) : OsError :=
  match machine.files.stat machine.current path with
  | .ok _ => .permissionDenied
  | .error e => e

/-- Runs a program. -/
def call (name : String) (arguments : List String) : StateM Machine (Except OsError Finished) :=
  fun machine ↦
    if (name :: arguments).any (·.toList.contains '\x00') then (.error .nulInArgument, machine)
    else if name.toList.contains '/' then (.error (machine.refusal ⟨name⟩), machine)
    else match machine.programs.lookup name with
      | none => (.error .notFound, machine)
      | some program =>
        let earlier := machine.calls.filter (·.program == name)
        let (finished, files) := program arguments earlier.length machine.files
        (.ok finished, { machine with
          files
          calls := machine.calls ++ [⟨name, arguments, machine.files⟩] })

/-- The machine as a host. -/
def host : Host (StateM Machine) where
  readText path := do return (← get).files.read (← get).current path
  writeText path text := update fun files current ↦ files.write current path text
  ensureFile path := update fun files current ↦ files.ensure current path
  writePicture := drawPicture
  isFile path := do return (← get).files.isFile (← get).current path
  isPresent path := do return ((← get).files.stat (← get).current path).isOk
  createDirs path := update fun files current ↦ files.createDirs current path
  createScratch := makeScratch
  copyFile source target := update fun files current ↦ files.copy current source target
  removeFile path := update fun files current ↦ files.remove current path
  removeTree := dropTree
  currentDir := do return pathOf (← get).current
  setting? name := do return (← get).settings.lookup name
  hasCommand name := do
    return (← get).commands.contains name || ((← get).programs.lookup name).isSome
  spawn := call
  print text := modify fun machine ↦ { machine with output := machine.output ++ text }
  printError text := modify fun machine ↦ { machine with errors := machine.errors ++ text }

end Machine

end Splice
