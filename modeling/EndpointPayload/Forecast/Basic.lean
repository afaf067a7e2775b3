import EndpointPayload.Collection.Naming
import EndpointPayload.Forecast.Body
import EndpointPayload.Forecast.Options
import EndpointPayload.Prediction.Basic
import EndpointPayload.Store.Suggestion
import EndpointPayload.Text.Quoted

/-!
# Forecasts

A forecast of a route's request puts together what a model says about the handler and what documents
of the collection show.  Either may be missing.  Only a malformed route is an error.
-/

namespace EndpointPayload

/-- Which of the two sources to trust. -/
inductive Approach where
  | both
  | modelOnly
  | sampleOnly
  deriving DecidableEq, Repr

namespace Approach

def name : Approach → String
  | both => "hybrid"
  | modelOnly => "ai-only"
  | sampleOnly => "mongo-only"

/-- From this confidence in the collection on, real data is worth preferring. -/
def threshold : Float := 0.6

/-- The recommendation, by what there is and what the caller prefers. -/
def recommend (hasModel hasSample : Bool) (preferReal : Option Bool) (confidence : Float) :
    Approach :=
  if !hasSample then modelOnly
  else if !hasModel then sampleOnly
  else
    match preferReal with
    | none => both
    | some true => if threshold < confidence then both else modelOnly
    | some false => modelOnly

end Approach

/-- What the store shows about the collection of a route. -/
structure CollectionSample where
  collection : Option String
  confidence : Float
  documents : List Document
  statistics : List FieldStatistics

namespace CollectionSample

def none : CollectionSample := ⟨.none, 0.0, [], []⟩

/-- What an alternative name keeps of the confidence. -/
def alternativeDiscount : Float := 0.8

/-- The collection of the store that a name means, in the singular or the plural. -/
def named? (existing : List String) (name : String) : Option String :=
  [name, Inflection.singular name, Inflection.plural name].findSome? fun form =>
    existing.find? fun e => Reference.sameName e form

/-- The first of the guessed names that the store has, with the confidence in it. -/
def matching? (guess : Guess) (existing : List String) : Option (String × Float) :=
  match named? existing guess.name with
  | some c => some (c, guess.confidence)
  | .none =>
    (guess.alternatives.findSome? (named? existing)).map fun c =>
      (c, guess.confidence * alternativeDiscount)

/-- A sample of the collection that a guess means. -/
def ofGuess (guess : Guess) (options : ForecastOptions) : Session CollectionSample := do
  let existing ← Sampler.collectionNames
  match matching? guess existing with
  | .none => pure none
  | some (collection, confidence) =>
    let size :=
      if options.sampleSize = 0 then ForecastOptions.defaultSampleSize else options.sampleSize
    let docs ← Sampler.documents collection size
    pure ⟨some collection, confidence, docs, FieldStatistics.describe docs existing⟩

end CollectionSample

/-- A forecast of the request of a route. -/
structure Forecast where
  route : Route
  fields : List ForecastField
  headers : List PredictedHeader
  hasModelData : Bool
  hasSampleData : Bool
  approach : Approach
  guess : Guess
  sampledCollection : Option String
  sampleConfidence : Float
  sampleDocuments : List Document
  body : List (String × Json)

namespace Forecast

/-- How many ids a reference gets. -/
def maxSuggestions : Nat := 5

/-- How many documents are shown. -/
def maxDocuments : Nat := 3

/-- The fields of the sample, with what the model says about them. -/
def sampleFields (verb : Verb) (model : List PredictedField) (sample : CollectionSample)
    (options : ForecastOptions) : List ForecastField :=
  (sample.statistics.filter fun s =>
    s.isTopLevel && 0.0 < s.frequency && !options.skips verb s.name).filterMap fun s =>
      let f := ForecastField.ofSample s (model.find? fun m => m.name = s.name) sample.documents
      if f.source = .sample && !f.hasRealData then none else some f

/-- The field that only the model knows, with values that the store has for it. -/
def modelField (sample : CollectionSample) (model : PredictedField) : Session ForecastField := do
  let found := ForecastField.sampledValues sample.documents model.name
  match found, sample.collection with
  | [], some collection =>
    let values ← Sampler.fieldValues collection model.name ForecastField.maxRealValues
    pure (ForecastField.ofModel model values)
  | _, _ => pure (ForecastField.ofModel model found)

/-- Adds the fields that only the model knows, the first of each name. -/
def addModelFields (verb : Verb) (sample : CollectionSample) (options : ForecastOptions) :
    List ForecastField → List PredictedField → Session (List ForecastField)
  | fields, [] => pure fields
  | fields, m :: ms => do
    if (fields.any fun f => f.base.name = m.name) || options.skips verb m.name then
      addModelFields verb sample options fields ms
    else
      let f ← modelField sample m
      addModelFields verb sample options (fields ++ [f]) ms

/-- The field with ids that were found for it, unless it has surer ones. -/
def withSuggestions (f : ForecastField) (suggestions : List Suggestion) : ForecastField :=
  match suggestions with
  | [] => f
  | best :: _ =>
    if (f.realValues.any fun v => v.objectId?.isSome) && best.confidence < f.confidence then f
    else
      { f with
        confidence :=
          if f.hasRealData then f.confidence
          else Score.clamp (f.confidence + Score.realValuesBonus)
        realValues := suggestions.map fun s => .str s.id
        hasRealData := true
        source := if f.source = .model then .both else f.source }

/-- Looks for ids for a field that speaks of one. -/
def resolveReference (source : Option String) (f : ForecastField) : Session ForecastField :=
  if f.looksLikeId then do
    let found ← Resolution.ofField f.base.name source maxSuggestions
    pure (withSuggestions f found.suggestions)
  else pure f

/-- All fields: those of the sample, those of the model alone, and then ids for references. -/
def merge (verb : Verb) (model : List PredictedField) (sample : CollectionSample)
    (options : ForecastOptions) : Session (List ForecastField) := do
  let fields ← addModelFields verb sample options (sampleFields verb model sample options) model
  fields.mapM (resolveReference sample.collection)

/-- Keeps the first fields up to a limit. -/
def limited (limit : Option Nat) (fields : List ForecastField) : List ForecastField :=
  match limit with
  | some n => fields.take n
  | none => fields

/-- The forecast for a route, the code of its handler and the text of the current time. -/
def ofRoute (predict : Predictor) (context : Option HandlerContext) (now : String) (route : Route)
    (options : ForecastOptions) : Session (Except Failure Forecast) := do
  if !route.path.startsWith "/" then
    pure (.error (.invalidRoute ("route path must start with '/': " ++ Text.quoted route.path)))
  else
    let guess := Naming.best route
    let prediction := predict route context
    let sample ← CollectionSample.ofGuess guess options
    let modelFields := (prediction.map Prediction.fields).getD []
    let hasModel := !modelFields.isEmpty
    let hasSample := !sample.documents.isEmpty
    let merged ← merge route.verb modelFields sample options
    let fields := limited options.limitFields (ForecastField.sorted merged)
    pure (.ok {
      route := route
      fields := fields
      headers := (prediction.map Prediction.headers).getD []
      hasModelData := hasModel
      hasSampleData := hasSample
      approach := Approach.recommend hasModel hasSample options.preferRealData sample.confidence
      guess := guess
      sampledCollection := sample.collection
      sampleConfidence := sample.confidence
      sampleDocuments := sample.documents.take maxDocuments
      body := Body.ofFields now (options.preferRealData.getD true) fields })

def json (f : Forecast) : Json :=
  .obj [
    ("route", f.route.json),
    ("fields", .arr (f.fields.map ForecastField.json)),
    ("headers", .arr (f.headers.map PredictedHeader.json)),
    ("hasAiData", .bool f.hasModelData),
    ("hasMongoData", .bool f.hasSampleData),
    ("recommendedApproach", .str f.approach.name),
    ("collection", f.guess.json),
    ("sampledCollection", Json.ofOption (f.sampledCollection.map .str)),
    ("sampleConfidence", .float f.sampleConfidence),
    ("sampleDocuments", .arr (f.sampleDocuments.map Document.sampleJson)),
    ("payload", .obj f.body)]

end Forecast
end EndpointPayload
