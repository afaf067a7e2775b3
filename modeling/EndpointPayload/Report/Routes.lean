import EndpointPayload.Handler.Context
import EndpointPayload.Json.Basic

/-!
# Routes as JSON

How routes and handlers are written.  Fields that a route does not have are left out.
-/

namespace EndpointPayload

namespace Json

/-- The fields of those that are present. -/
def present (fields : List (String × Option Json)) : List (String × Json) :=
  fields.filterMap fun (k, v) => v.map fun v => (k, v)

def strings (texts : List String) : Json := .arr (texts.map .str)

def ofOption (v : Option Json) : Json := v.getD .null

end Json

namespace LineSpan

def json (s : LineSpan) : Json := .obj [("start", .int s.first), ("end", .int s.last)]

end LineSpan

namespace Route

def json (r : Route) : Json :=
  .obj (Json.present [
    ("method", some (.str r.verb.name)),
    ("path", some (.str r.path)),
    ("filePath", some (.str r.filePath)),
    ("line", some (.int r.line)),
    ("middlewares", some (Json.strings r.middlewares)),
    ("handler", some (.str r.handler)),
    ("routerPrefix", r.routerPrefix.map .str),
    ("controllerFilePath", r.controllerFile.map .str),
    ("controllerFunction", r.controllerFunction.map .str),
    ("inlineSpan", r.inlineSpan.map LineSpan.json)])

end Route

namespace HandlerContext

def json (c : HandlerContext) : Json :=
  .obj [
    ("route", c.route.json),
    ("reqBodyFields", Json.strings c.bodyFields),
    ("controllerCode", .str c.code),
    ("functionName", .str c.functionName),
    ("filePath", .str c.filePath),
    ("startLine", .int c.span.first),
    ("endLine", .int c.span.last)]

end HandlerContext
end EndpointPayload
