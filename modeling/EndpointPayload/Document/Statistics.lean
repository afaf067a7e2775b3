import EndpointPayload.Document.Reference
import EndpointPayload.Document.Tally
import EndpointPayload.Report.Routes

/-!
# Statistics of fields

What a sample shows about one path in detail: lengths of texts, the range of numbers, whether values
repeat, all the values if they are few, and where a reference may point.
-/

namespace EndpointPayload

/-- A guess that a field refers to another collection. -/
structure Relation where
  target : Option String
  confidence : Float

/-- A field with its statistics. -/
structure FieldStatistics where
  name : String
  /-- The types with bars between them. -/
  type : String
  frequency : Float
  isRequired : Bool
  minLength : Option Nat
  maxLength : Option Nat
  minValue : Option Float
  maxValue : Option Float
  isUnique : Option Bool
  possibleValues : Option (List Json)
  examples : List Json
  relation : Option Relation

namespace Relation

/-- Takes pairs of brackets from the end of a name; the name comes last character first. -/
def dropBrackets : List Char → List Char
  | ']' :: '[' :: r => dropBrackets r
  | cs => cs

/-- The name of a field without its path and without brackets at its end. -/
def fieldName (path : String) : String :=
  String.ofList (dropBrackets (Reference.lastKey path).toList.reverse).reverse

/-- The relation that the name of a field suggests; the id of the document itself is none. -/
def ofField? (path : String) (existing : List String) : Option Relation :=
  let name := fieldName path
  if name = "_id" || !Text.occursIn "id" (Text.lower name) then none
  else
    match Reference.stem? name with
    | none => some ⟨none, 0.3⟩
    | some stem =>
      let singular := Inflection.singular stem
      let plural := Inflection.plural singular
      let isNamed (c : String) := Reference.sameName c plural || Reference.sameName c singular
      match existing.find? isNamed with
      | some target => some ⟨some target, 0.8⟩
      | none => some ⟨some plural, 0.4⟩

def json (r : Relation) : Json :=
  .obj [
    ("isRelation", .bool true),
    ("targetCollection", Json.ofOption (r.target.map .str)),
    ("confidence", .float r.confidence)]

end Relation

namespace Document

/-- Adds a value to those at its path, and so for what stands below it down to some depth. -/
def addValues : Nat → String → Json → Table (List Json) → Table (List Json)
  | 0, path, v, t => t.update path fun found => found.getD [] ++ [v]
  | depth + 1, path, v, t =>
    let t := t.update path fun found => found.getD [] ++ [v]
    match v with
    | .obj fields =>
      if v.isLeaf then t
      else fields.foldl (fun t f => addValues depth (path ++ "." ++ f.1) f.2 t) t
    | .arr items => items.foldl (fun t i => addValues depth (path ++ "[]") i t) t
    | _ => t

/-- The values of some documents under their paths, nulls included, in order. -/
def valuesByPath (docs : List Document) : Table (List Json) :=
  docs.foldl (fun t d => d.foldl (fun t f => addValues maxDepth f.1 f.2 t) t) .empty

end Document

namespace FieldStatistics

/-- A field that is present in more than this share of the documents is required. -/
def requiredFrequency : Float := 90.0

/-- Up to this many different values are listed. -/
def maxListed : Nat := 10

/-- The least of some floats. -/
def least? : List Float → Option Float
  | [] => none
  | x :: xs => some (xs.foldl (fun a b => if b < a then b else a) x)

/-- The greatest of some floats. -/
def greatest? : List Float → Option Float
  | [] => none
  | x :: xs => some (xs.foldl (fun a b => if a < b then b else a) x)

/-- The first value of each text. -/
def distinctByText (values : List Json) : List Json :=
  values.foldl (fun kept v => if kept.any fun k => k.text = v.text then kept else kept ++ [v]) []

/-- The statistics of a field over the values at its path. -/
def ofValues (field : SchemaField) (values : List Json) (existing : List String) :
    FieldStatistics :=
  let present := values.filter fun v => !v.isNull
  let lengths := present.filterMap fun v => v.str?.map fun s => s.toList.length
  let numbers := present.filterMap Json.number?
  let leaves := present.filter Json.isLeaf
  let distinct := distinctByText leaves
  let types := field.types.filter (· ≠ "null")
  { name := field.name
    type := if types.isEmpty then "null" else "|".intercalate types
    frequency := field.frequency
    isRequired := requiredFrequency < field.frequency
    minLength := lengths.min?
    maxLength := lengths.max?
    minValue := least? numbers
    maxValue := greatest? numbers
    isUnique := if leaves.isEmpty then none else some (distinct.length = leaves.length)
    possibleValues :=
      if leaves.isEmpty || maxListed < distinct.length then none else some distinct
    examples := field.examples
    relation := Relation.ofField? field.name existing }

/-- The statistics of every field of some documents. -/
def describe (docs : List Document) (existing : List String) : List FieldStatistics :=
  let values := Document.valuesByPath docs
  (Document.schema docs).map fun f => ofValues f ((values.get? f.name).getD []) existing

/-- Whether the field is a key of the document itself. -/
def isTopLevel (f : FieldStatistics) : Bool := SchemaField.isTopLevelName f.name

def json (f : FieldStatistics) : Json :=
  .obj (Json.present [
    ("name", some (.str f.name)),
    ("type", some (.str f.type)),
    ("frequency", some (.float f.frequency)),
    ("isRequired", some (.bool f.isRequired)),
    ("minLength", f.minLength.map fun n => .int n),
    ("maxLength", f.maxLength.map fun n => .int n),
    ("minValue", f.minValue.map .float),
    ("maxValue", f.maxValue.map .float),
    ("isUnique", f.isUnique.map .bool),
    ("possibleValues", f.possibleValues.map .arr),
    ("examples", some (.arr f.examples)),
    ("relationInfo", f.relation.map Relation.json)])

end FieldStatistics
end EndpointPayload
