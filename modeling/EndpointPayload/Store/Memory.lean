import EndpointPayload.Store.Basic

/-!
# Stores in memory

Collections of documents in their order.  A missing collection is an empty one.
-/

namespace EndpointPayload

namespace Filter

/-- Equality with a value, or with one of the items of an array. -/
def holds (expected value : Json) : Bool :=
  match value with
  | .arr items => items.any fun i => i == expected
  | v => v == expected

/-- Whether a document is among those that the filter is about. -/
def accepts (f : Filter) (d : Document) : Bool :=
  match f with
  | all => true
  | present field => ((d.at? field).map fun v => !v.isNull).getD false
  | equals field expected => ((d.at? field).map (holds expected)).getD false
  | oneOf field options =>
    ((d.at? field).map fun v => options.any fun o => holds o v).getD false

end Filter

/-- Collections by name, in the order of the names. -/
structure MemoryStore where
  collections : List (String × List Document)

namespace MemoryStore

def documents (m : MemoryStore) (collection : String) : List Document :=
  ((m.collections.find? fun c => c.1 = collection).map Prod.snd).getD []

/-- Puts a collection at its place among the names. -/
def putIn (name : String) (docs : List Document) :
    List (String × List Document) → List (String × List Document)
  | [] => [(name, docs)]
  | (n, ds) :: rest =>
    if n = name then (n, docs) :: rest
    else if name < n then (name, docs) :: (n, ds) :: rest
    else (n, ds) :: putIn name docs rest

/-- Adds documents at the end of a collection; values that are no objects are left out. -/
def insert (m : MemoryStore) (name : String) (values : List Json) : MemoryStore :=
  ⟨putIn name (m.documents name ++ values.filterMap Json.fields?) m.collections⟩

/-- The length of a document's compact text in bytes. -/
def byteSize (d : Document) : Nat := (Json.obj d).text.utf8ByteSize

def stats (docs : List Document) : CollectionStats :=
  let size := docs.foldl (fun n d => n + byteSize d) 0
  { count := docs.length
    averageSize :=
      if docs.isEmpty then none else some (Float.ofNat size / Float.ofNat docs.length)
    size := some size }

/-- The documents by the order of random keys, the first few of them. -/
def sample (keys : Nat → Nat) (docs : List Document) (size : Nat) : List Document :=
  ((docs.zipIdx.mergeSort fun a b => decide (keys a.2 ≤ keys b.2)).map Prod.fst).take size

/-- The different values of a field in order of appearance. -/
def distinct (docs : List Document) (field : String) : List Json :=
  docs.foldl (fun kept d => (d.shownAt field).foldl Json.pushNew kept) []

/-- The answer to a query. -/
def answer (m : MemoryStore) (keys : Nat → Nat) : (q : Query) → q.Reply
  | .ping => ()
  | .collectionNames => m.collections.map Prod.fst
  | .count c => (m.documents c).length
  | .stats c => stats (m.documents c)
  | .find c f skip limit => (((m.documents c).filter f.accepts).drop skip).take limit
  | .sample c n => sample keys (m.documents c) n
  | .distinct c field f => distinct ((m.documents c).filter f.accepts) field

/-- The collections as a store that never fails, with some random keys and numbers. -/
def store (m : MemoryStore) (keys : Nat → Nat) (draw : List Query → Nat) : Store :=
  { answer := fun _ q => .ok (m.answer keys q), draw := draw }

end MemoryStore
end EndpointPayload
