import EndpointPayload.Document.Display
import EndpointPayload.Document.Statistics
import EndpointPayload.Store.Basic

/-!
# Samples from a store

Every reading here gives an empty result where the store is missing or a query fails.  A sample is
the whole collection if it is small enough, a window of a collection of moderate size, and else what
the store picks at random.  Sizes that are computed from a limit are checked: a sampler stops where
one of them is no word.
-/

namespace EndpointPayload

/-- A collection with its size. -/
structure CollectionInfo where
  name : String
  count : Nat
  averageSize : Option Float

/-- An id of a related collection, and whether a document refers to it. -/
structure FoundId where
  id : String
  isReferenced : Bool
  displayName : String

namespace Sampler

open Session

/-- From this number of documents on, the store picks the sample. -/
def windowBound : Nat := 100

/-- The names of the collections of the user, in order. -/
def collectionNames : Session (List String) := do
  let names ← orElse [] (ask .collectionNames)
  pure ((names.filter fun n => !n.startsWith "system.").mergeSort fun a b => decide (a ≤ b))

/-- The size of a collection; where the store keeps no statistics, its documents are counted. -/
def collectionInfo (name : String) : Session CollectionInfo := do
  let stats ← orElse none (some <$> ask (.stats name))
  match stats with
  | some s => pure ⟨name, s.count, s.averageSize⟩
  | none => pure ⟨name, ← orElse (0 : Nat) (ask (.count name)), none⟩

/-- Every collection with its size. -/
def collections : Session (List CollectionInfo) := do
  (← collectionNames).mapM collectionInfo

/-- How many places there are for a window of some documents. -/
def places (total limit : Nat) : Session Nat := do word ((← difference total limit) + 1)

/-- Up to some number of documents. -/
def documents (collection : String) (limit : Nat) : Session (List Document) :=
  if limit = 0 then pure []
  else
    orElse [] do
      let total : Nat ← ask (.count collection)
      if total = 0 then pure []
      else if total ≤ limit then ask (.find collection .all 0 total)
      else if total < windowBound then
        let places ← places total limit
        let skip ← drawBelow places
        ask (.find collection .all skip limit)
      else ask (.sample collection limit)

/-- The schema of a sample. -/
def schema (collection : String) (size : Nat) : Session (List SchemaField) := do
  pure (Document.schema (← documents collection size))

/-- The statistics of the fields of a sample. -/
def statistics (collection : String) (size : Nat) : Session (List FieldStatistics) := do
  let docs ← documents collection size
  if docs.isEmpty then pure []
  else pure (FieldStatistics.describe docs (← collectionNames))

/-- Up to some number of different values of a field. -/
def fieldValues (collection field : String) (limit : Nat) : Session (List Json) := do
  let values ← orElse [] (ask (.distinct collection field (.present field)))
  pure ((values.filter fun v => !v.isNull).take limit)

/-- A document of a related collection as a found id. -/
def found (isReferenced : Bool) (d : Document) : FoundId := ⟨d.idText, isReferenced, d.displayName⟩

/-- Adds documents with new ids until there are enough. -/
def pad (limit : Nat) (ids : List FoundId) (docs : List Document) : List FoundId :=
  docs.foldl (fun ids d =>
    if limit ≤ ids.length || d.idText = "" || ids.any fun i => i.id = d.idText then ids
    else ids ++ [found false d]) ids

/-- The values that the id of a document may have, given its digits. -/
def idForms (digits : String) : List Json := [Json.ofObjectId digits, .str digits]

/-- How many documents are asked for to fill a list of ids up. -/
def padding (limit : Nat) : Session Nat := word (limit * 2)

/-- The documents of a related collection that a field refers to, as ids. -/
def referenced (collection field related : String) (limit : Nat) : Attempt (List FoundId) := do
  let values ← ask (.distinct collection field (.present field))
  let digits := Text.sorted (values.filterMap Json.objectId?)
  if digits.isEmpty then pure []
  else
    let docs ← ask (.find related (.oneOf Document.idKey (digits.flatMap idForms)) 0 limit)
    pure (docs.map (found true))

/-- Ids of a related collection: those that a field refers to, and then others. -/
def relatedIds (collection field related : String) (limit : Nat) : Session (List FoundId) :=
  if limit = 0 then pure []
  else
    orElse [] do
      let ids ← referenced collection field related limit
      if ids.length < limit then
        let size ← padding limit
        let docs ← ask (.find related .all 0 size)
        pure (pad limit ids docs)
      else pure ids

end Sampler

namespace CollectionInfo

def json (c : CollectionInfo) : Json :=
  .obj [
    ("name", .str c.name),
    ("count", .int c.count),
    ("avgSize", Json.ofOption (c.averageSize.map .float))]

end CollectionInfo
end EndpointPayload
