import Splice.Json.Parse
import Splice.Json.Record

/-!
# Media manifests

Which stored file a clip means by an id: one map for the sources of videos, one for the assets that
users add. Both are kept in the order of the ids.
-/

namespace Splice

open Json (Record string?)

/-- Stored references by id. -/
structure Manifest where
  sources : List (String × String) := []
  assets : List (String × String) := []

namespace Manifest

/-- The entries of a map in the order of their keys; of entries with one key the last one counts. -/
def ofEntries (entries : List (String × String)) : List (String × String) :=
  let latest := entries.foldr
    (fun entry rest ↦ if (rest.lookup entry.1).isSome then rest else entry :: rest) []
  latest.mergeSort fun a b ↦ decide (a.1 ≤ b.1)

/-- Reads a map. -/
def map? : Json → Option (List (String × String))
  | .object members => do
    return ofEntries (← members.mapM fun (key, value) ↦ do return (key, ← value.string?))
  | _ => none

/-- Reads a manifest. -/
def decode? (value : Json) : Option Manifest := do
  let r ← Record.of? ["sources", "assets"] value
  return {
    sources := ← r.withDefault? "sources" [] map?
    assets := ← r.withDefault? "assets" [] map? }

/-- Reads a manifest from its text. -/
def ofText? (text : String) : Option Manifest := (Json.parse? text).bind decode?

/-- The document of a map. -/
def encodeMap (entries : List (String × String)) : Json :=
  .object (entries.map fun (key, value) ↦ (key, .string value))

/-- The document of a manifest. -/
def encode (media : Manifest) : Json :=
  .object [("sources", encodeMap media.sources), ("assets", encodeMap media.assets)]

/-- Whether an id means a source of video. -/
def hasSource (media : Manifest) (id : String) : Bool :=
  (media.sources.lookup id).isSome

end Manifest

end Splice
