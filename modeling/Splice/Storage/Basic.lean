import Splice.Failure
import Splice.Host.Basic
import Splice.Storage.Manifest

/-!
# Storage

Where stored media lie, and where a result is put. A storage is supplied as two functions;
`Storage.folder` is the one that takes references as paths below a directory.
-/

namespace Splice

/-- Access to stored media and to the place of results. -/
structure Storage (m : Type → Type) where
  /-- The file of a stored reference. -/
  resolve : String → m (Except Failure Path)
  /-- Puts a rendered file to its destination, and gives its final path. -/
  publish : Path → Path → m (Except Failure Path)

namespace Storage

variable {m : Type → Type} [Monad m]

/-- The failure to write to a destination. -/
def cannotPublish (destination : Path) (e : OsError) : Failure :=
  .resource ("Failed to write output " ++ destination.text ++ ": " ++ e.message)

/-- Makes the directory around a destination. -/
def prepare (host : Host m) (destination : Path) : m (Except Failure Unit) := do
  match destination.parent?.filter (!·.text.isEmpty) with
  | none => return .ok ()
  | some around =>
    match ← host.createDirs around with
    | .ok () => return .ok ()
    | .error e =>
      return .error (.resource
        ("Failed to create output directory " ++ around.text ++ ": " ++ e.message))

/-- Copies a rendered file to its destination. -/
def copyOut (host : Host m) (rendered destination : Path) : m (Except Failure Path) := do
  match ← prepare host destination with
  | .error e => return .error e
  | .ok () =>
    match ← host.copyFile rendered destination with
    | .ok () => return .ok destination
    | .error e => return .error (cannotPublish destination e)

/-- The storage in a directory. -/
def folder (host : Host m) (root : Path) : Storage m where
  resolve reference := do
    let path := root.join reference
    if ← host.isFile path then return .ok path
    else return .error (.resource ("Stored media not found: " ++ path.text))
  publish := copyOut host

/-- The file of a video source. -/
def source (storage : Storage m) (media : Manifest) (id : String) :
    m (Except Failure Path) :=
  match media.sources.lookup id with
  | some reference => storage.resolve reference
  | none => return .error (.missingSource id)

/-- The file of an asset. -/
def asset (storage : Storage m) (media : Manifest) (id : String) : m (Except Failure Path) :=
  match media.assets.lookup id with
  | some reference => storage.resolve reference
  | none => return .error (.missingAsset id)

end Storage

/-- Reads a manifest from a file. -/
def Manifest.load {m : Type → Type} [Monad m] (host : Host m) (path : Path) :
    m (Except Failure Manifest) := do
  match ← host.readText path with
  | .error e => return .error (.os e)
  | .ok text =>
    match ofText? text with
    | some media => return .ok media
    | none => return .error .unreadable

end Splice
