/-!
# Paths

File names as text, with slashes between their components. An empty component and a single dot name
nothing of their own; two dots are kept, since only a file system knows what they mean. Joining
keeps the text of both sides.
-/

namespace Splice

/-- The name of a file or a directory. -/
structure Path where
  text : String
deriving DecidableEq, Repr

namespace Path

/-! ### Components -/

/-- The texts between the slashes. -/
def pieces : List Char → List (List Char)
  | [] => [[]]
  | c :: rest =>
    if c = '/' then [] :: pieces rest
    else match pieces rest with
      | [] => [[c]]
      | piece :: more => (c :: piece) :: more

/-- Whether the path starts at the root. -/
def isAbsolute (p : Path) : Bool := p.text.toList.head? == some '/'

/-- Whether the path ends in a slash. -/
def endsInSlash (p : Path) : Bool := p.text.toList.getLast? == some '/'

/-- The components that name something, from the root or from the current directory. -/
def components (p : Path) : List String :=
  (pieces p.text.toList |>.filter fun piece ↦ !piece.isEmpty && piece != ['.']).map String.ofList

/-- The last component. Neither the root nor two dots have a name. -/
def fileName? (p : Path) : Option String := p.components.getLast?.filter (· != "..")

/-! ### Joining -/

/-- The path of a child. An absolute child stands for itself. -/
def join (base : Path) (child : String) : Path :=
  if (Path.mk child).isAbsolute then ⟨child⟩
  else if base.text.isEmpty || base.endsInSlash then ⟨base.text ++ child⟩
  else ⟨base.text ++ "/" ++ child⟩

/-- The path of a descendant. -/
def descend (base : Path) (names : List String) : Path := names.foldl join base

/-! ### Directories -/

/-- Whether a piece of a path names nothing of its own. -/
def isIdle (piece : List Char) : Bool := piece.isEmpty || piece == ['.']

/-- The pieces without the idle ones at the end. -/
def dropIdle (pieces : List (List Char)) : List (List Char) :=
  (pieces.reverse.dropWhile isIdle).reverse

/-- The text from the root, or from a single dot, up to the last component. -/
def parentText? (start body : List Char) : Option (List Char) :=
  match dropIdle (pieces body) with
  | [] => if start = ['.'] then some [] else none
  | named => some (start ++ ['/'].intercalate (dropIdle named.dropLast))

/-- The path of the directory around a file, as it stands in the text; the current directory is the
empty path. Neither the root nor the empty path has one. -/
def parent? (p : Path) : Option Path :=
  let text := match p.text.toList with
    | '/' :: body => parentText? ['/'] body
    | ['.'] => some []
    | '.' :: '/' :: body => parentText? ['.'] ('/' :: body)
    | body => parentText? [] body
  text.map fun chars ↦ ⟨String.ofList chars⟩

/-! ### Absolute paths -/

/-- The path that names the same file from every directory. Two slashes at the start are kept, and
so is a slash at the end. The empty path has none. -/
def absolute? (current p : Path) : Option Path :=
  if p.text.isEmpty then none
  else
    let twoSlashes := match p.text.toList with
      | '/' :: '/' :: '/' :: _ => false
      | '/' :: '/' :: _ => true
      | _ => false
    let start := if !p.isAbsolute then current else if twoSlashes then ⟨"//"⟩ else ⟨"/"⟩
    let path := start.descend p.components
    some (if p.endsInSlash then path.join "" else path)

end Path

end Splice
