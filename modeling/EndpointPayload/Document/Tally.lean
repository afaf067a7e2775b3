import EndpointPayload.Document.Schema
import EndpointPayload.Text.Table

/-!
# The schema of documents in one walk

`Document.schema` goes through each document once.  The walk keeps a tally for every path that it
meets and the paths at which the document at hand has a value other than null.  After each document
these paths are counted, so a path counts once however often the walk comes to it.
-/

namespace EndpointPayload

/-- What a walk has found at one path. -/
structure PathTally where
  /-- Labels of types, each once. -/
  types : List String
  /-- How many documents have a value other than null. -/
  present : Nat
  examples : List Json

namespace PathTally

def empty : PathTally := ⟨[], 0, []⟩

/-- Keeps a value as an example if there is room, unless it has parts or is kept already. -/
def keep (examples : List Json) (v : Json) : List Json :=
  if v.isLeaf && examples.length < Document.maxExamples && !examples.contains v then examples ++ [v]
  else examples

/-- One more value at the path; of null only the type counts. -/
def note (t : PathTally) (v : Json) : PathTally :=
  { t with
    types := t.types.insert v.typeName
    examples := if v.isNull then t.examples else keep t.examples v }

/-- One more document with a value other than null. -/
def count (t : PathTally) : PathTally := { t with present := t.present + 1 }

/-- The field of a path in a number of documents. -/
def field (path : String) (t : PathTally) (total : Nat) : SchemaField :=
  { name := path
    types := Text.sorted t.types
    frequency := Float.ofNat t.present / Float.ofNat (max total 1) * 100.0
    examples := t.examples }

end PathTally

/-- The tallies of all paths, and the paths with a value other than null in the document at hand. -/
structure Tally where
  paths : Table PathTally
  seen : List String

namespace Tally

/-- One more value at a path. -/
def note (t : Tally) (path : String) (v : Json) : Tally :=
  { paths := t.paths.update path fun found => (found.getD .empty).note v
    seen := if v.isNull then t.seen else t.seen.insert path }

/-- Goes through a value and what stands below it down to some depth. -/
def visit : Nat → String → Json → Tally → Tally
  | 0, path, v, t => t.note path v
  | depth + 1, path, v, t =>
    match v with
    | .obj fields =>
      if v.isLeaf then t.note path v
      else fields.foldl (fun t f => visit depth (path ++ "." ++ f.1) f.2 t) (t.note path v)
    | .arr items => items.foldl (fun t i => visit depth (path ++ "[]") i t) (t.note path v)
    | _ => t.note path v

/-- The tallies with the seen paths counted. -/
def counted (t : Tally) : Table PathTally :=
  t.seen.foldl (fun paths path => paths.modify path PathTally.count) t.paths

/-- The tallies after one more document. -/
def addDocument (paths : Table PathTally) (d : Document) : Table PathTally :=
  (d.foldl (fun t f => visit Document.maxDepth f.1 f.2 t) ⟨paths, []⟩).counted

/-- The tallies of some documents. -/
def ofDocuments (docs : List Document) : Table PathTally := docs.foldl addDocument .empty

end Tally

namespace Document

/-- The fields of the documents by falling frequency, and then by path. -/
def schema (docs : List Document) : List SchemaField :=
  ((Tally.ofDocuments docs).rows.map fun r => r.2.field r.1 docs.length).mergeSort
    fun a b => Decimal.descending a.frequency b.frequency

end Document
end EndpointPayload
