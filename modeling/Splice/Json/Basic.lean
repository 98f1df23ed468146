import Splice.Json.Literal

/-!
# JSON values

A JSON document as a tree. Objects keep their members in order and keep repeated names, numbers are
kept as they were written. A string with half of a surrogate pair has no text, and neither has an
object with such a name: both are `unreadable`, which may be skipped but not read.
-/

namespace Splice

/-- A JSON value. -/
inductive Json where
  | null
  | bool (value : Bool)
  | number (literal : Literal)
  | string (value : String)
  | array (items : List Json)
  | object (members : List (String × Json))
  | unreadable

namespace Json

/-! ### Measures of a value -/

mutual

/-- The number of arrays and objects around the innermost value. -/
def depth : Json → Nat
  | array items => depthOfItems items + 1
  | object members => depthOfMembers members + 1
  | _ => 0

/-- The greatest depth among items. -/
def depthOfItems : List Json → Nat
  | [] => 0
  | item :: rest => max item.depth (depthOfItems rest)

/-- The greatest depth among members. -/
def depthOfMembers : List (String × Json) → Nat
  | [] => 0
  | (_, value) :: rest => max value.depth (depthOfMembers rest)

end

mutual

/-- Whether every string has a text and every number a finite scalar. -/
def isReadable (α : Type) [Scalar α] : Json → Bool
  | number literal => (literal.number? (α := α)).isSome
  | array items => areReadableItems α items
  | object members => areReadableMembers α members
  | unreadable => false
  | _ => true

/-- Whether every item is readable. -/
def areReadableItems (α : Type) [Scalar α] : List Json → Bool
  | [] => true
  | item :: rest => item.isReadable α && areReadableItems α rest

/-- Whether every member is readable. -/
def areReadableMembers (α : Type) [Scalar α] : List (String × Json) → Bool
  | [] => true
  | (_, value) :: rest => value.isReadable α && areReadableMembers α rest

end

/-! ### Building values -/

/-- An integer. -/
def ofInt (n : Int) : Json := number (Literal.ofInt n)

/-- A natural number. -/
def ofNat (n : Nat) : Json := ofInt n

/-- A scalar; one that is not finite has no number. -/
def ofScalar {α : Type} [Scalar α] (x : α) : Json :=
  match Literal.ofScalar? x with
  | some literal => number literal
  | none => null

/-- A value that may be absent. -/
def ofOption {β : Type} (encode : β → Json) : Option β → Json
  | some value => encode value
  | none => null

/-- A member that is left out when its value is absent. -/
def member? {β : Type} (name : String) (encode : β → Json) : Option β → List (String × Json)
  | some value => [(name, encode value)]
  | none => []

end Json

end Splice
