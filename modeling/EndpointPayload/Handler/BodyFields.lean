import EndpointPayload.Source.Meaning
import EndpointPayload.Text.Order

/-!
# Fields of the request body

The names that a script reads from `req.body` or `request.body`: as a property, by a quoted index,
or by a pattern that takes the body apart.
-/

namespace EndpointPayload

open Source

namespace Handler

/-- `req.body` or `request.body`. -/
def isRequestBody (t : Tree) : Bool :=
  match t.meaning? with
  | some (.member object property) =>
    property.name? = some "body" && (object.name? = some "req" || object.name? = some "request")
  | _ => false

/-- The key of one property of a pattern; a rest element has none. -/
def patternKey? (part : Tree) : Option String :=
  match part.kind with
  | .shorthandPattern => some part.text
  | .pairPattern => (part.child? .key).map Tree.keyText
  | .objectAssignmentPattern => (part.child? .left).map Tree.text
  | _ => none

/-- The fields that one node reads. -/
def bodyFieldsAt (t : Tree) : List String :=
  match t.meaning? with
  | some (.member object property) => if isRequestBody object then property.name?.toList else []
  | some (.declarator name (some value)) =>
    if name.kind = .objectPattern && isRequestBody value then name.children.filterMap patternKey?
    else []
  | some _ => []
  | none =>
    if t.kind = .subscript then
      match t.child? .object, t.child? .index with
      | some object, some index => if isRequestBody object then index.literal?.toList else []
      | _, _ => []
    else []

/-- Every field that a script reads from the request body, in order. -/
def bodyFields (tree : Tree) : List String := Text.sorted (tree.preorder.flatMap bodyFieldsAt)

end Handler
end EndpointPayload
