import EndpointPayload.Decimal.Order
import EndpointPayload.Document.Value
import EndpointPayload.Text.Order

/-!
# Schema of documents

`Document.visits` lists the paths and values that a walk through a document meets: keys with points
between them, a pair of brackets for the items of an array.  The walk stops at leaves and below a
fixed depth.  The schema says for each path which types stand there, in how many documents something
does, and the first examples.
-/

namespace EndpointPayload

/-- What a sample shows about one path. -/
structure SchemaField where
  name : String
  /-- Labels of types in order. -/
  types : List String
  /-- Per cent of the documents with a value other than null. -/
  frequency : Float
  examples : List Json

namespace Document

/-- How far below a key of the document the walk goes. -/
def maxDepth : Nat := 5

/-- How many examples a field keeps. -/
def maxExamples : Nat := 3

/-- A path with its value, and what stands below it down to some depth. -/
def visitsBelow : Nat → String → Json → List (String × Json)
  | 0, path, v => [(path, v)]
  | depth + 1, path, v =>
    (path, v) ::
      match v with
      | .obj fields =>
        if v.isLeaf then []
        else fields.flatMap fun f => visitsBelow depth (path ++ "." ++ f.1) f.2
      | .arr items => items.flatMap (visitsBelow depth (path ++ "[]"))
      | _ => []

/-- Every path of a document with its value, in order. -/
def visits (d : Document) : List (String × Json) :=
  d.flatMap fun f => visitsBelow maxDepth f.1 f.2

/-- The values at a path in all documents. -/
def valuesAt (path : String) (docs : List Document) : List Json :=
  (docs.flatMap visits).filterMap fun (p, v) => if p = path then some v else none

/-- Whether a document has a value other than null at a path. -/
def isPresentAt (path : String) (d : Document) : Bool :=
  (visits d).any fun (p, v) => p = path && !v.isNull

/-- The field at a path. -/
def fieldAt (docs : List Document) (path : String) : SchemaField :=
  let values := valuesAt path docs
  let present := docs.countP (isPresentAt path)
  { name := path
    types := Text.sorted (values.map Json.typeName)
    frequency := Float.ofNat present / Float.ofNat (max docs.length 1) * 100.0
    examples := (values.filter fun v => !v.isNull && v.isLeaf).eraseDups.take maxExamples }

/-- Every path that the documents have, in order. -/
def paths (docs : List Document) : List String :=
  Text.sorted ((docs.flatMap visits).map Prod.fst)

end Document

namespace SchemaField

/-- The first type but null. -/
def primaryType (f : SchemaField) : String := (f.types.find? (· ≠ "null")).getD "null"

/-- Whether the name of a path is that of a key of the document itself. -/
def isTopLevelName (name : String) : Bool :=
  !Text.occursIn "." name && !Text.occursIn "[]" name

def json (f : SchemaField) : Json :=
  .obj [
    ("name", .str f.name),
    ("types", .arr (f.types.map .str)),
    ("frequency", .float f.frequency),
    ("examples", .arr f.examples)]

end SchemaField
end EndpointPayload
