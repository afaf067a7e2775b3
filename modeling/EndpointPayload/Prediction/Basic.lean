import EndpointPayload.Handler.Context
import EndpointPayload.Json.Record

/-!
# Predictions

What a language model says about the request of a route: the fields of the body and the headers.
The text of a prediction may leave out everything but names.
-/

namespace EndpointPayload

/-- A field of the request body. -/
structure PredictedField where
  name : String
  type : String
  isRequired : Bool
  /-- An example of a value. -/
  sample : Json
  description : String

/-- A header of the request. -/
structure PredictedHeader where
  name : String
  value : String
  description : String
  isRequired : Bool

/-- The request of a route. -/
structure Prediction where
  fields : List PredictedField
  headers : List PredictedHeader

/-- What guesses the request of a route, from the route and the code of its handler. -/
abbrev Predictor := Route → Option HandlerContext → Option Prediction

/-- The value in a text that may be missing: a default for none, and nothing for a bad text. -/
def readOr {α : Type} (default : α) (read? : List Char → Option α) : Option (List Char) → Option α
  | none => some default
  | some text => read? text

namespace PredictedField

def keys : List String := ["name", "type", "required", "example", "description"]

/-- The type where the text gives none. -/
def defaultType : String := "string"

/-- How deep a sample may nest; the three levels around it count against the bound of a text. -/
def sampleDepth : Nat := 125

def read? (text : List Char) : Option PredictedField :=
  match Json.record? keys text with
  | some [some name, type, isRequired, sample, description] => do
    some {
      name := ← Json.stringIn? name
      type := ← readOr defaultType Json.stringIn? type
      isRequired := ← readOr false Json.boolIn? isRequired
      sample := ← readOr .null (Json.within? sampleDepth) sample
      description := ← readOr "" Json.stringIn? description }
  | _ => none

def json (f : PredictedField) : Json :=
  .obj [
    ("name", .str f.name),
    ("type", .str f.type),
    ("required", .bool f.isRequired),
    ("example", f.sample),
    ("description", .str f.description)]

end PredictedField

namespace PredictedHeader

def keys : List String := ["name", "value", "description", "required"]

def read? (text : List Char) : Option PredictedHeader :=
  match Json.record? keys text with
  | some [some name, value, description, isRequired] => do
    some {
      name := ← Json.stringIn? name
      value := ← readOr "" Json.stringIn? value
      description := ← readOr "" Json.stringIn? description
      isRequired := ← readOr false Json.boolIn? isRequired }
  | _ => none

def json (h : PredictedHeader) : Json :=
  .obj [
    ("name", .str h.name),
    ("value", .str h.value),
    ("description", .str h.description),
    ("required", .bool h.isRequired)]

end PredictedHeader

namespace Prediction

def keys : List String := ["fields", "headers"]

/-- The items of a list, each read in the same way. -/
def listOf? {α : Type} (read? : List Char → Option α) (text : List Char) : Option (List α) :=
  (Json.array? text).bind fun items => items.mapM read?

/-- The prediction that a whole text denotes. -/
def read? (text : List Char) : Option Prediction :=
  match Json.record? keys text with
  | some [fields, headers] => do
    some {
      fields := ← readOr [] (listOf? PredictedField.read?) fields
      headers := ← readOr [] (listOf? PredictedHeader.read?) headers }
  | _ => none

def json (p : Prediction) : Json :=
  .obj [
    ("fields", .arr (p.fields.map PredictedField.json)),
    ("headers", .arr (p.headers.map PredictedHeader.json))]

end Prediction
end EndpointPayload
