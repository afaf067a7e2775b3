import EndpointPayload.Route.Verb

/-!
# Options of a forecast

Which fields a forecast shows.  Fields that are asked for by name are never left out; else the ones
that are named for exclusion, internal ones, and on requests that make a new resource its id and
times are.
-/

namespace EndpointPayload

/-- The wishes of the caller. -/
structure ForecastOptions where
  preferRealData : Option Bool
  limitFields : Option Nat
  excludeFields : List String
  includeFields : List String
  /-- How many documents to sample; zero for the usual number. -/
  sampleSize : Nat

namespace ForecastOptions

/-- Fields that a store writes by itself. -/
def timeFields : List String := ["createdAt", "updatedAt", "created_at", "updated_at"]

/-- How many documents are sampled where nothing else is said. -/
def defaultSampleSize : Nat := 20

/-- Whether a field is left out. -/
def skips (o : ForecastOptions) (verb : Verb) (name : String) : Bool :=
  if o.includeFields.contains name then false
  else
    o.excludeFields.contains name || name.startsWith "__" ||
      (verb.isCreate && (name = "_id" || timeFields.contains name))

end ForecastOptions
end EndpointPayload
