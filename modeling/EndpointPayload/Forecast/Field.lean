import EndpointPayload.Decimal.Rounded
import EndpointPayload.Document.Statistics
import EndpointPayload.Forecast.Score
import EndpointPayload.Forecast.TypeFamily
import EndpointPayload.Prediction.Basic

/-!
# Forecast fields

A field of a request with all that is known about it: what the model said, the values that documents
hold, and how sure it is.
-/

namespace EndpointPayload

/-- Where a field comes from. -/
inductive FieldSource where
  | model
  | sample
  | both
  deriving DecidableEq, Repr

def FieldSource.name : FieldSource → String
  | model => "ai"
  | sample => "mongodb"
  | both => "hybrid"

/-- A field of a forecast. -/
structure ForecastField where
  base : PredictedField
  realValues : List Json
  hasRealData : Bool
  confidence : Float
  source : FieldSource
  statistics : Option FieldStatistics

namespace ForecastField

/-- How many real values a field keeps. -/
def maxRealValues : Nat := 5

/-- The different values of a field in the documents, arrays standing for their items. -/
def sampledValues (docs : List Document) (name : String) : List Json :=
  Json.pushUpTo maxRealValues [] (docs.flatMap (Document.shownAt name))

/-- The different values of a field in the documents, arrays as they are. -/
def observedValues (docs : List Document) (name : String) : List Json :=
  Json.pushUpTo maxRealValues [] (docs.filterMap fun d => d.at? name)

/-- The real values of a field of a sample: those in the documents, else the examples, else whatever
stands there. -/
def valuesFor (statistics : FieldStatistics) (docs : List Document) : List Json :=
  let found := sampledValues docs statistics.name
  let examples := statistics.examples.filter fun v => !v.isNull
  if !found.isEmpty then found
  else if !examples.isEmpty then examples
  else observedValues docs statistics.name

/-- The value shown as an example. -/
def exampleOf (values examples : List Json) (model : Option PredictedField) : Json :=
  match values.head?.or examples.head? with
  | some v => v
  | none => (model.map PredictedField.sample).getD .null

/-- The model's description, or how often the field is there. -/
def descriptionOf (frequency : Float) (model : Option PredictedField) : String :=
  let said := (model.map PredictedField.description).getD ""
  if said = "" then "Present in " ++ Decimal.wholeText frequency ++ "% of sampled documents"
  else said

/-- A field of a sample, with what the model says about the field of that name. -/
def ofSample (statistics : FieldStatistics) (model : Option PredictedField)
    (docs : List Document) : ForecastField :=
  let values := valuesFor statistics docs
  let differ := (model.map fun m => !TypeFamily.agree m.type statistics.type).getD false
  { base := {
      name := statistics.name
      type := (Text.split '|' statistics.type).headD "string"
      isRequired := statistics.isRequired || (model.map PredictedField.isRequired).getD false
      sample := exampleOf values statistics.examples model
      description := descriptionOf statistics.frequency model }
    realValues := values
    hasRealData := !values.isEmpty
    confidence := Score.ofEvidence {
      sample := some (statistics.frequency, statistics.isRequired)
      model := model.map PredictedField.isRequired
      hasRealValues := !values.isEmpty
      typesDiffer := differ }
    source := if model.isSome then .both else .sample
    statistics := some statistics }

/-- A field that only the model knows, with values found for it. -/
def ofModel (model : PredictedField) (values : List Json) : ForecastField :=
  { base := model
    realValues := values
    hasRealData := !values.isEmpty
    confidence := Score.ofEvidence {
      sample := none
      model := some model.isRequired
      hasRealValues := !values.isEmpty
      typesDiffer := false }
    source := if values.isEmpty then .model else .both
    statistics := none }

/-- Whether name, type or values speak of an object id. -/
def looksLikeId (f : ForecastField) : Bool :=
  Text.occursIn "id" (Text.lower f.base.name) ||
    Text.occursIn "objectid" (Text.lower f.base.type) ||
    f.realValues.any fun v => v.objectId?.isSome

/-- Whether a field may stand before another: required fields first, then by falling confidence. -/
def mayPrecede (a b : ForecastField) : Bool :=
  if a.base.isRequired = b.base.isRequired then Decimal.descending a.confidence b.confidence
  else a.base.isRequired

/-- The fields in their final order; equal ones stay as they are. -/
def sorted (fields : List ForecastField) : List ForecastField := fields.mergeSort mayPrecede

def json (f : ForecastField) : Json :=
  .obj (Json.present [
    ("name", some (.str f.base.name)),
    ("type", some (.str f.base.type)),
    ("required", some (.bool f.base.isRequired)),
    ("example", some f.base.sample),
    ("description", some (.str f.base.description)),
    ("realValues", some (.arr f.realValues)),
    ("hasRealData", some (.bool f.hasRealData)),
    ("confidence", some (.float f.confidence)),
    ("source", some (.str f.source.name)),
    ("mongoFieldInfo", f.statistics.map FieldStatistics.json)])

end ForecastField
end EndpointPayload
