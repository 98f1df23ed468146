import Splice.Json.Basic

/-!
# Records in JSON

Reading typed values out of a document. A record of named fields is given as an object, or as an
array of its fields in their order. In an object other members are skipped, and a field may stand
only once; an array may leave out fields at its end but may not have more.

A field that is left out takes its default, if it has one. A field that may be `null` has the
default `null` in an object; in an array it has to be there, unless it has a default of its own.
-/

namespace Splice.Json

/-! ### Single values -/

/-- A scalar: any number. -/
def scalar? {α : Type} [Scalar α] : Json → Option α
  | number literal => literal.number?.map Number.toScalar
  | _ => none

/-- An integer within `[low, high]`. The scalars only decide which literals are numbers. -/
def intWithin? (α : Type) [Scalar α] (low high : Int) : Json → Option Int
  | number literal =>
    match literal.number? (α := α) with
    | some (.natural n) => if (n : Int) ≤ high then some n else none
    | some (.negative n) => if low ≤ -(n : Int) then some (-n) else none
    | _ => none
  | _ => none

/-- A natural number below `2 ^ 32`. -/
def nat32? (α : Type) [Scalar α] (value : Json) : Option Nat :=
  (intWithin? α 0 (Word.count32 - 1) value).map Int.toNat

/-- An integer that fits a signed word of 32 bits. -/
def int32? (α : Type) [Scalar α] (value : Json) : Option Int :=
  intWithin? α (-Word.half32) (Word.half32 - 1) value

/-- A truth value. -/
def bool? : Json → Option Bool
  | bool value => some value
  | _ => none

/-- A string. -/
def string? : Json → Option String
  | string value => some value
  | _ => none

/-- A value that may be `null`. -/
def nullable? {β : Type} (read : Json → Option β) : Json → Option (Option β)
  | null => some none
  | value => (read value).map some

/-- An array of like values. -/
def list? {β : Type} (read : Json → Option β) : Json → Option (List β)
  | array items => items.mapM read
  | _ => none

/-! ### Records -/

/-- The fields that are present, by name. -/
structure Record where
  isArray : Bool
  fields : List (String × Json)

namespace Record

/-- The fields among the members of an object, if none of them stands twice. -/
def ofMembers? (names : List String) (members : List (String × Json)) : Option Record :=
  let fields := members.filter fun member ↦ names.contains member.1
  if (fields.map Prod.fst).Nodup then some ⟨false, fields⟩ else none

/-- The fields of an object or of an array. -/
def of? (names : List String) : Json → Option Record
  | object members => ofMembers? names members
  | array items => if items.length ≤ names.length then some ⟨true, names.zip items⟩ else none
  | _ => none

/-- The value of a field, if it is present. -/
def get? (r : Record) (name : String) : Option Json := r.fields.lookup name

/-- A field that has to be there. -/
def required? {β : Type} (r : Record) (name : String) (read : Json → Option β) : Option β :=
  (r.get? name).bind read

/-- A field with a default. -/
def withDefault? {β : Type} (r : Record) (name : String) (fallback : β) (read : Json → Option β) :
    Option β :=
  match r.get? name with
  | some value => read value
  | none => some fallback

/-- A field that may be `null` and has that default. -/
def optional? {β : Type} (r : Record) (name : String) (read : Json → Option β) :
    Option (Option β) :=
  r.withDefault? name none (nullable? read)

/-- A field that may be `null` and has to be there in an array. -/
def nullable? {β : Type} (r : Record) (name : String) (read : Json → Option β) :
    Option (Option β) :=
  if r.isArray then r.required? name (Json.nullable? read) else r.optional? name read

end Record

end Splice.Json
