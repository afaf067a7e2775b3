import EndpointPayload.Document.Reference
import EndpointPayload.Store.Sampler

/-!
# Suggested ids

Real ids for a field that refers to another collection.  An id that a document already refers to
ranks before all others.
-/

namespace EndpointPayload

/-- An id for a field. -/
structure Suggestion where
  id : String
  collection : String
  confidence : Float
  isReferenced : Bool
  displayName : String

/-- The ids found for a field, and the collections that were searched. -/
structure Resolution where
  field : String
  collections : List String
  suggestions : List Suggestion

namespace Suggestion

/-- How sure an id is that a document refers to. -/
def referenced : Float := 0.9

/-- How sure another id of the same collection is. -/
def besideReferenced : Float := 0.8

/-- How sure an id of a collection is that nothing refers to. -/
def unreferenced : Float := 0.5

/-- The ids of one collection as suggestions. -/
def ofFound (collection : String) (ids : List FoundId) : List Suggestion :=
  let others := if ids.any FoundId.isReferenced then besideReferenced else unreferenced
  ids.map fun i =>
    ⟨i.id, collection, if i.isReferenced then referenced else others, i.isReferenced, i.displayName⟩

def json (s : Suggestion) : Json :=
  .obj [
    ("id", .str s.id),
    ("sourceCollection", .str s.collection),
    ("confidence", .float s.confidence),
    ("referenced", .bool s.isReferenced),
    ("displayName", .str s.displayName)]

end Suggestion

namespace Resolution

/-- The collections of the store that a field may point at, the likeliest first. -/
def searched (field : String) (existing : List String) : List String :=
  ((Reference.candidates field).filterMap fun c =>
    existing.find? fun e => Reference.sameName e c).eraseDups

/-- Ids of one collection: with a source, those that its documents refer to come first. -/
def idsFrom (field : String) (source : Option String) (limit : Nat) (collection : String) :
    Session (List FoundId) := do
  match source with
  | some s => Sampler.relatedIds s field collection limit
  | none =>
    let docs ← Sampler.documents collection limit
    pure ((docs.filter fun d => d.idText ≠ "").map (Sampler.found false))

/-- The suggestions by falling confidence, the first few of them. -/
def ranked (limit : Nat) (suggestions : List Suggestion) : List Suggestion :=
  (suggestions.mergeSort fun a b => Decimal.descending a.confidence b.confidence).take limit

/-- Up to some number of ids for a field. -/
def ofField (field : String) (source : Option String) (limit : Nat) : Session Resolution := do
  let collections := searched field (← Sampler.collectionNames)
  let found ← collections.mapM fun c => do
    pure (Suggestion.ofFound c (← idsFrom field source limit c))
  pure ⟨field, collections, ranked limit found.flatten⟩

def json (r : Resolution) : Json :=
  .obj [
    ("fieldName", .str r.field),
    ("success", .bool !r.suggestions.isEmpty),
    ("collections", Json.strings r.collections),
    ("suggestedIds", .arr (r.suggestions.map Suggestion.json))]

end Resolution
end EndpointPayload
