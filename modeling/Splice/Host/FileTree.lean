import Splice.Host.OsError
import Splice.Path

/-!
# Trees of files

Files and directories in memory. A place in the tree is the list of names on the way from the root;
a path is walked name by name, and every name but the last has to be a directory. Two dots lead to
the directory above, an empty name and a single dot lead nowhere, but only in a directory.

Links, owners and permissions are not part of the tree.
-/

namespace Splice

/-- A place: the names on the way from the root. -/
abbrev Place := List String

/-- What may stand at a place. -/
inductive FileNode where
  | file (text : String)
  | directory
deriving DecidableEq, Repr

/-- Files and directories by place. The root is always a directory. -/
structure FileTree where
  nodes : List (Place × FileNode) := []

namespace FileTree

/-! ### Places -/

/-- What stands at a place. -/
def get? (tree : FileTree) (place : Place) : Option FileNode :=
  if place.isEmpty then some .directory else tree.nodes.lookup place

/-- The tree without a place. -/
def erase (tree : FileTree) (place : Place) : FileTree :=
  ⟨tree.nodes.filter (·.1 != place)⟩

/-- The tree with a node at a place. -/
def put (tree : FileTree) (place : Place) (node : FileNode) : FileTree :=
  ⟨(tree.erase place).nodes ++ [(place, node)]⟩

/-- The tree without a place and everything below it. -/
def eraseBelow (tree : FileTree) (place : Place) : FileTree :=
  ⟨tree.nodes.filter fun node ↦ !place.isPrefixOf node.1⟩

/-! ### Walking -/

/-- The place of a name in a directory. -/
def step (tree : FileTree) (place : Place) (name : String) : Except OsError Place :=
  match tree.get? place with
  | none => .error .notFound
  | some (.file _) => .error .notDirectory
  | some .directory =>
    if name == "" || name == "." then .ok place
    else if name == ".." then .ok place.dropLast
    else if 255 < name.utf8ByteSize then .error .nameTooLong
    else .ok (place ++ [name])

/-- The place of a sequence of names. -/
def walk (tree : FileTree) (place : Place) (names : List String) : Except OsError Place :=
  names.foldlM tree.step place

/-- Refuses a path that no system call accepts. -/
def vet (p : Path) : Except OsError Unit :=
  if p.text.toList.contains '\x00' then .error .nulInName
  else if p.text.isEmpty then .error .notFound
  else if 4096 ≤ p.text.utf8ByteSize then .error .nameTooLong
  else .ok ()

/-- The place at which a walk begins. -/
def startOf (current : Place) (p : Path) : Place := if p.isAbsolute then [] else current

/-- The place that a path names, whether or not anything stands there. -/
def locate (tree : FileTree) (current : Place) (p : Path) : Except OsError Place := do
  vet p
  tree.walk (startOf current p) ((Path.pieces p.text.toList).map String.ofList)

/-- What a path names. -/
def stat (tree : FileTree) (current : Place) (p : Path) : Except OsError FileNode := do
  match tree.get? (← tree.locate current p) with
  | some node => .ok node
  | none => .error .notFound

/-- Where a path would make something: the directory around it, and the last name. Slashes at the
end do not count. -/
def slot (tree : FileTree) (current : Place) (p : Path) : Except OsError (Place × String) := do
  vet p
  let names := ((Path.pieces p.text.toList).map String.ofList).reverse.dropWhile (· == "")
  let around ← tree.walk (startOf current p) names.tail.reverse
  -- the directory around it has to be there
  let _ ← tree.step around "."
  return (around, names.headD ".")

/-! ### Reading -/

/-- Whether a path names a regular file. -/
def isFile (tree : FileTree) (current : Place) (p : Path) : Bool :=
  match tree.stat current p with
  | .ok (.file _) => true
  | _ => false

/-- Whether a path names a directory. -/
def isDirectory (tree : FileTree) (current : Place) (p : Path) : Bool :=
  match tree.stat current p with
  | .ok .directory => true
  | _ => false

/-- The text of a file. -/
def read (tree : FileTree) (current : Place) (p : Path) : Except OsError String := do
  match ← tree.stat current p with
  | .file text => .ok text
  | .directory => .error .isDirectory

/-! ### Writing -/

/-- The place at which a file may be made or replaced. -/
def fileSlot (tree : FileTree) (current : Place) (p : Path) : Except OsError Place := do
  let (around, name) ← tree.slot current p
  let place ← tree.step around name
  if p.endsInSlash || tree.get? place == some .directory then .error .isDirectory else .ok place

/-- The tree with a file of the given text. -/
def write (tree : FileTree) (current : Place) (p : Path) (text : String) :
    Except OsError FileTree := do
  return tree.put (← tree.fileSlot current p) (.file text)

/-- The tree with a file, empty unless it was there. -/
def ensure (tree : FileTree) (current : Place) (p : Path) : Except OsError FileTree := do
  let place ← tree.fileSlot current p
  return if (tree.get? place).isSome then tree else tree.put place (.file "")

/-- The tree with the text of one file in another one. A file copied to itself loses its text. -/
def copy (tree : FileTree) (current : Place) (source target : Path) : Except OsError FileTree := do
  match ← tree.stat current source with
  | .directory => .error .notRegularFile
  | .file _ =>
    let emptied ← tree.write current target ""
    emptied.write current target (← emptied.read current source)

/-- The tree without a file. -/
def remove (tree : FileTree) (current : Place) (p : Path) : Except OsError FileTree := do
  let place ← tree.locate current p
  match tree.get? place with
  | none => .error .notFound
  | some .directory => .error .isDirectory
  | some (.file _) => .ok (tree.erase place)

/-! ### Directories -/

/-- The tree with a new directory. -/
def createDir (tree : FileTree) (current : Place) (p : Path) : Except OsError FileTree := do
  let (around, name) ← tree.slot current p
  let place ← tree.step around name
  if (tree.get? place).isSome then .error .alreadyPresent else .ok (tree.put place .directory)

/-- A new directory, or the tree as it is where the directory is already there. -/
def createDirUnlessThere (tree : FileTree) (current : Place) (p : Path) : Except OsError FileTree :=
  match tree.createDir current p with
  | .ok tree => .ok tree
  | .error e => if tree.isDirectory current p then .ok tree else .error e

/-- The tree with a new directory and the directories around it, where at most `levels` directories
are missing. -/
def createDirsWithin : Nat → FileTree → Place → Path → Except OsError FileTree
  | 0, tree, current, p => tree.createDirUnlessThere current p
  | levels + 1, tree, current, p =>
    match tree.createDir current p with
    | .error .notFound => do
      match p.parent? with
      | some around =>
        let tree ← if around.components.isEmpty && !around.isAbsolute then pure tree
          else createDirsWithin levels tree current around
        tree.createDirUnlessThere current p
      | none => .error .notFound
    | _ => tree.createDirUnlessThere current p

/-- The tree with a new directory and the directories around it. -/
def createDirs (tree : FileTree) (current : Place) (p : Path) : Except OsError FileTree :=
  if p.text.isEmpty then .ok tree
  else createDirsWithin p.components.length tree current p

end FileTree

end Splice
