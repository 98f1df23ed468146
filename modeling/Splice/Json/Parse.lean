import Splice.Json.Token

/-!
# JSON documents from tokens

A document is built by one pass over its tokens. The state of the pass says what may come next and
holds the containers that are still open, innermost first; each token takes the state to the next,
or has no place in it. There is no bound on the depth of a document here.
-/

namespace Splice.Json

/-- A container that waits for the value being read. A member's name without a text makes the
object unreadable when it closes. -/
inductive Frame where
  | items (done : List Json)
  | members (done : List (Option String × Json)) (name : Option String)

/-- What may come next, under the open containers. Finished items and members stand in reverse. -/
inductive Reading where
  | needValue (outer : List Frame)
  | arrayOpened (outer : List Frame)
  | itemDone (done : List Json) (outer : List Frame)
  | objectOpened (outer : List Frame)
  | needName (done : List (Option String × Json)) (outer : List Frame)
  | needColon (done : List (Option String × Json)) (name : Option String) (outer : List Frame)
  | memberDone (done : List (Option String × Json)) (outer : List Frame)
  | finished (document : Json)

namespace Reading

/-- The members of an object, if every name has a text. -/
def named? : List (Option String × Json) → Option (List (String × Json))
  | [] => some []
  | (some name, value) :: rest => (named? rest).map ((name, value) :: ·)
  | (none, _) :: _ => none

/-- The object with the given members. -/
def objectOf (members : List (Option String × Json)) : Json :=
  match named? members with
  | some members => object members
  | none => unreadable

/-- Hands a finished value to the innermost open container. -/
def deliver (value : Json) : List Frame → Reading
  | [] => finished value
  | .items done :: outer => itemDone (value :: done) outer
  | .members done name :: outer => memberDone ((name, value) :: done) outer

/-- Starts a value with its first token. -/
def start? (outer : List Frame) : Token → Option Reading
  | .null => some (deliver null outer)
  | .bool value => some (deliver (bool value) outer)
  | .number literal => some (deliver (number literal) outer)
  | .string (some value) => some (deliver (string value) outer)
  | .string none => some (deliver unreadable outer)
  | .openArray => some (arrayOpened outer)
  | .openObject => some (objectOpened outer)
  | _ => none

/-- The state after one token. -/
def step? : Reading → Token → Option Reading
  | needValue outer, token => start? outer token
  | arrayOpened outer, .closeArray => some (deliver (array []) outer)
  | arrayOpened outer, token => start? (.items [] :: outer) token
  | itemDone done outer, .comma => some (needValue (.items done :: outer))
  | itemDone done outer, .closeArray => some (deliver (array done.reverse) outer)
  | objectOpened outer, .closeObject => some (deliver (object []) outer)
  | objectOpened outer, .string name => some (needColon [] name outer)
  | needName done outer, .string name => some (needColon done name outer)
  | needColon done name outer, .colon => some (needValue (.members done name :: outer))
  | memberDone done outer, .comma => some (needName done outer)
  | memberDone done outer, .closeObject => some (deliver (objectOf done.reverse) outer)
  | _, _ => none

/-- The state after a list of tokens. -/
def run? (reading : Reading) (tokens : List Token) : Option Reading := tokens.foldlM step? reading

end Reading

/-- The document that a text consists of. -/
def parse? (text : String) : Option Json := do
  let tokens ← Scan.tokens? text.toList
  match ← Reading.run? (.needValue []) tokens with
  | .finished document => some document
  | _ => none

end Splice.Json
