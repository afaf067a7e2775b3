import EndpointPayload.Decimal.Numeral
import EndpointPayload.Forecast.Field
import EndpointPayload.Time.Timestamp

/-!
# Request bodies

The body of a request has one key for each field.  Dates are written as timestamps, references as
the digits of an object id, and all other values without their wrappers.  A date that cannot be read
becomes the current time.
-/

namespace EndpointPayload
namespace Body

/-- The id used where no better one is known. -/
def placeholderId : String := "507f1f77bcf86cd799439011"

/-- Milliseconds since 1970 in a wrapper of a whole number. -/
def wrappedMilliseconds? (fields : List (String × Json)) : Option Timestamp :=
  match Json.lookup "$numberLong" fields with
  | some (.str s) => (Decimal.wholeOf? s).bind Timestamp.ofMilliseconds?
  | _ => none

/-- The point in time that a text or a number denotes. -/
def scalarTime? (v : Json) : Option Timestamp :=
  match v with
  | .str s => Timestamp.ofText? s
  | .int n => if Decimal.fitsWord n then Timestamp.ofMilliseconds? n else none
  | _ => none

/-- The point in time that a value denotes, wrapped or not. -/
def time? (v : Json) : Option Timestamp :=
  match v with
  | .obj fields =>
    match Json.lookup "$date" fields with
    | some (.obj inner) => wrappedMilliseconds? inner
    | some w => scalarTime? w
    | none => none
  | _ => scalarTime? v

/-- The text of the point in time that a value denotes, or of the current one. -/
def timeText (now : String) (v : Json) : String :=
  match time? v with
  | some t => t.text
  | none => now

/-- The number in a wrapper of a whole number. -/
def wholeNumber? : Json → Option Json
  | .str s => (Decimal.wholeOf? s).map .int
  | _ => none

/-- The number in a wrapper of a decimal. -/
def decimalNumber? : Json → Option Json
  | .str s => (Decimal.floatOf? s).map .float
  | _ => none

mutual

/-- The value without wrappers; one that does not hold what its key says stays. -/
def plain (now : String) : Json → Json
  | .arr items => .arr (plainItems now items)
  | .obj fields =>
    match fields with
    | [("$oid", v)] => (((Json.obj [("$oid", v)]).objectId?).map .str).getD .null
    | [("$date", v)] => .str (timeText now (.obj [("$date", v)]))
    | [("$numberLong", v)] => (wholeNumber? v).getD (.obj [("$numberLong", v)])
    | [("$numberInt", v)] => (wholeNumber? v).getD (.obj [("$numberInt", v)])
    | [("$numberDecimal", v)] => (decimalNumber? v).getD (.obj [("$numberDecimal", v)])
    | [("$numberDouble", v)] => (decimalNumber? v).getD (.obj [("$numberDouble", v)])
    | fields => .obj (plainFields now fields)
  | v => v

def plainItems (now : String) : List Json → List Json
  | [] => []
  | v :: vs => plain now v :: plainItems now vs

def plainFields (now : String) : List (String × Json) → List (String × Json)
  | [] => []
  | (k, v) :: rest => (k, plain now v) :: plainFields now rest

end

/-- The value that is sent for a field. -/
def valueOf (now : String) (preferReal : Bool) (f : ForecastField) : Json :=
  let chosen := if preferReal then f.realValues.headD f.base.sample else f.base.sample
  let kind := Text.lower f.base.type
  if Text.occursIn "date" kind then .str (timeText now chosen)
  else if Text.occursIn "objectid" kind then .str (chosen.objectId?.getD placeholderId)
  else plain now chosen

/-- The body for some fields, in their order. -/
def ofFields (now : String) (preferReal : Bool) (fields : List ForecastField) :
    List (String × Json) :=
  Json.ofPairs (fields.map fun f => (f.base.name, valueOf now preferReal f))

end Body
end EndpointPayload
