import Splice.Command.Run
import Splice.Number.Binary64
import Splice.Raster.Png

/-!
# The command line

The host of the machine that runs the program, and the program on it. Other programs cannot be
started from here: a host without programs answers every command but those that need the media
tools. -/

namespace Splice

/-- The cause of an error of the system. -/
def OsError.ofError : IO.Error → OsError
  | .noFileOrDirectory .. => .notFound
  | .permissionDenied .. => .permissionDenied
  | .alreadyExists .. => .alreadyPresent
  | .inappropriateType _ code _ => if code == 21 then .isDirectory else .notDirectory
  | .userError _ => .notUnicode
  | e => .other (toString e)

namespace Native

/-- The outcome of an action on files. -/
def attempt {β : Type} (action : IO β) : BaseIO (Except OsError β) := do
  match ← action.toBaseIO with
  | .ok result => return .ok result
  | .error e => return .error (.ofError e)

/-- Whether an action on files succeeds. -/
def succeeds {β : Type} (action : IO β) : BaseIO Bool := do return (← attempt action).isOk

/-- The directory from which relative paths count. -/
def workingDir : BaseIO Path := do
  match ← (IO.currentDir).toBaseIO with
  | .ok path => return ⟨toString path⟩
  | .error _ => return ⟨"."⟩

/-- Makes a directory whose name ends in the time, in another one. -/
def makeScratchDir (root : Path) (start : String) : IO Path := do
  let around := (← workingDir).join root.text
  let path := around.join (start ++ toString (← IO.monoNanosNow))
  IO.FS.createDir path.text
  return path

/-- Opens a file as it is, or makes an empty one. -/
def openFile (path : Path) : IO Unit := do
  let _ ← IO.FS.Handle.mk path.text .append

/-- Reads the beginning of a file. -/
def peek (path : Path) : IO Unit := do
  let handle ← IO.FS.Handle.mk path.text .read
  let _ ← handle.read 1

/-- Writes text to a stream, which may be closed. -/
def say (stream : IO.FS.Stream) (text : String) : BaseIO Unit := do
  let _ ← (do stream.putStr text; stream.flush : IO Unit).toBaseIO

/-- The machine that runs the program. -/
def host : Host BaseIO where
  readText path := attempt (IO.FS.readFile path.text)
  writeText path text := attempt (IO.FS.writeFile path.text text)
  ensureFile path := attempt (openFile path)
  writePicture path picture := attempt (IO.FS.writeBinFile path.text picture.png)
  isFile path := succeeds (peek path)
  isPresent path := succeeds (IO.FS.realPath path.text)
  createDirs path := attempt (IO.FS.createDirAll path.text)
  createScratch root start := attempt (makeScratchDir root start)
  copyFile source target := attempt do
    IO.FS.writeBinFile target.text (← IO.FS.readBinFile source.text)
  removeFile path := attempt (IO.FS.removeFile path.text)
  removeTree path := do let _ ← attempt (IO.FS.removeDirAll path.text)
  currentDir := workingDir
  setting? name := IO.getEnv name
  hasCommand _ := return false
  spawn _ _ := return .error .notFound
  print text := do say (← IO.getStdout) text
  printError text := do say (← IO.getStderr) text

end Native

end Splice

/-- Runs the program on its arguments. -/
def main (arguments : List String) : IO UInt32 := do
  let code : Nat ← (Splice.runProgram Splice.Native.host Float arguments : BaseIO Nat)
  return code.toUInt32
