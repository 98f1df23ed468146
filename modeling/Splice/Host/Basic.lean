import Splice.Host.OsError
import Splice.Path
import Splice.Raster.Picture

/-!
# Hosts

What the library needs from the machine it runs on: files, programs, the environment and two streams
for text. A host is supplied as a structure of functions in a monad, so the same code runs on a real
machine and in memory.
-/

namespace Splice

/-- What a program left behind when it ended. A stream that is no Unicode text is `none`. -/
structure Finished where
  succeeded : Bool
  output? : Option String
  errors? : Option String

/-- A machine. -/
structure Host (m : Type → Type) where
  /-- The text of a file. -/
  readText : Path → m (Except OsError String)
  /-- Makes a file with a text, in place of the file that may be there. -/
  writeText : Path → String → m (Except OsError Unit)
  /-- Makes an empty file unless it is there. -/
  ensureFile : Path → m (Except OsError Unit)
  /-- Draws a picture into a file. -/
  writePicture : Path → Picture → m (Except OsError Unit)
  /-- Whether a path names a regular file. -/
  isFile : Path → m Bool
  /-- Whether a path names anything. -/
  isPresent : Path → m Bool
  /-- Makes a directory and the directories around it. -/
  createDirs : Path → m (Except OsError Unit)
  /-- Makes a fresh directory in another one, with a name that begins with the given text, and gives
  its absolute path. -/
  createScratch : Path → String → m (Except OsError Path)
  /-- Copies the contents of a file. -/
  copyFile : Path → Path → m (Except OsError Unit)
  /-- Removes a file. -/
  removeFile : Path → m (Except OsError Unit)
  /-- Removes a directory with everything in it. -/
  removeTree : Path → m Unit
  /-- The directory from which relative paths count. -/
  currentDir : m Path
  /-- The value of an environment variable. -/
  setting? : String → m (Option String)
  /-- Whether a shell knows a command. -/
  hasCommand : String → m Bool
  /-- Runs a program with arguments until it ends. -/
  spawn : String → List String → m (Except OsError Finished)
  /-- Writes text to the standard output. -/
  print : String → m Unit
  /-- Writes text to the standard error. -/
  printError : String → m Unit

/-- The host whose operations are lifted to another monad. -/
def Host.lift {m n : Type → Type} (host : Host m) (up : {β : Type} → m β → n β) : Host n where
  readText path := up (host.readText path)
  writeText path text := up (host.writeText path text)
  ensureFile path := up (host.ensureFile path)
  writePicture path picture := up (host.writePicture path picture)
  isFile path := up (host.isFile path)
  isPresent path := up (host.isPresent path)
  createDirs path := up (host.createDirs path)
  createScratch root start := up (host.createScratch root start)
  copyFile source target := up (host.copyFile source target)
  removeFile path := up (host.removeFile path)
  removeTree path := up (host.removeTree path)
  currentDir := up host.currentDir
  setting? name := up (host.setting? name)
  hasCommand name := up (host.hasCommand name)
  spawn program arguments := up (host.spawn program arguments)
  print text := up (host.print text)
  printError text := up (host.printError text)

end Splice
