import EndpointPayload.Forecast.Basic

/-!
# Snapshots

A record of a route: the code of its handler with the hash of that code, and the body that was
forecast.
-/

namespace EndpointPayload

/-- A record of a route. -/
structure Snapshot where
  route : Route
  code : String
  codeHash : String
  body : List (String × Json)
  functionName : Option String
  approach : Option Approach

namespace Snapshot

def make (route : Route) (context : Option HandlerContext) (forecast : Option Forecast) :
    Snapshot :=
  let code := (context.map HandlerContext.code).getD ""
  { route := route
    code := code
    codeHash := Sha256.ofText code
    body := (forecast.map Forecast.body).getD []
    functionName := context.map HandlerContext.functionName
    approach := forecast.map Forecast.approach }

/-- Whether two records are of the same route and code. -/
def sameCode (a b : Snapshot) : Bool := a.route.id = b.route.id && a.codeHash = b.codeHash

/-- What the record says besides the code and the body. -/
def metadata (s : Snapshot) : List (String × Json) := [
  ("method", .str s.route.verb.name),
  ("path", .str s.route.path),
  ("filePath", .str s.route.filePath),
  ("line", .int s.route.line),
  ("functionName", Json.ofOption (s.functionName.map .str)),
  ("recommendedApproach", Json.ofOption (s.approach.map fun a => .str a.name))]

/-- The record with some metadata. -/
def jsonWith (s : Snapshot) (metadata : List (String × Json)) : Json :=
  .obj [
    ("routeId", .str s.route.id),
    ("code", .str s.code),
    ("codeHash", .str s.codeHash),
    ("predictedPayload", .obj s.body),
    ("metadata", .obj metadata)]

/-- The record without the time that it was taken at. -/
def json (s : Snapshot) : Json := s.jsonWith s.metadata

/-- The record as it was taken at a time. -/
def jsonAt (s : Snapshot) (time : String) : Json :=
  s.jsonWith (s.metadata ++ [("capturedAt", .str time)])

end Snapshot
end EndpointPayload
