import Switchboard.Json.Value

/-!
# Schemas of Arguments

JSON schemas of objects with simple fields, as tools describe their arguments.

## Main definitions

* `Schema.Kind`: What a field may be.
* `Schema.object`: An object with some fields, some of which are required.
-/

namespace Switchboard

namespace Schema

/-- What a field may be. -/
inductive Kind where
  | string
  | boolean
  /-- A number that counts something. -/
  | count
  deriving DecidableEq

/-- The schema of a field. -/
def Kind.json : Kind → Json
  | .string => .obj [("type", .str "string")]
  | .boolean => .obj [("type", .str "boolean")]
  | .count => .obj [("minimum", .ofNat 0), ("type", .str "integer")]

/-- An object with some fields. -/
def object (fields : List (String × Kind)) (required : List String) : Json :=
  Json.canonical (.record
    [Json.field "properties" (.obj (fields.map fun (name, kind) => (name, kind.json))),
     if required.isEmpty then none else Json.field "required" (.arr (required.map .str)),
     Json.field "type" (.str "object")])

end Schema

end Switchboard
