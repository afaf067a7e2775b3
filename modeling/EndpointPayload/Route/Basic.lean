import EndpointPayload.Digest.Sha256
import EndpointPayload.Route.Path
import EndpointPayload.Route.Verb

/-!
# Routes

A route is one endpoint found in a script.  `Route.id` names it across scans: it depends on the
verb, the path and the file, and on nothing else.
-/

namespace EndpointPayload

/-- Lines from the first to the last, counted from one. -/
structure LineSpan where
  first : Nat
  last : Nat
  deriving DecidableEq, Repr

/-- An endpoint. -/
structure Route where
  verb : Verb
  path : String
  filePath : String
  /-- The line of the registration. -/
  line : Nat
  middlewares : List String
  /-- A name, `object.name`, or `anonymous`. -/
  handler : String
  routerPrefix : Option String
  /-- The file that the handler is imported from. -/
  controllerFile : Option String
  /-- The handler's name in that file. -/
  controllerFunction : Option String
  /-- Where the handler is written, if it has no name. -/
  inlineSpan : Option LineSpan
  deriving DecidableEq, Repr

namespace Route

/-- What the handler of a function without a name is called. -/
def anonymous : String := "anonymous"

/-- The verb and the path. -/
def title (r : Route) : String := r.verb.name ++ " " ++ r.path

/-- The text that the identity of a route is the hash of. -/
def identityText (r : Route) : String := r.verb.name ++ " " ++ r.path ++ " " ++ r.filePath

/-- The first eight bytes of the hash of the identity, in hexadecimal digits. -/
def id (r : Route) : String :=
  Sha256.hex ((Sha256.hash r.identityText.toUTF8.toList).take 8)

end Route
end EndpointPayload
