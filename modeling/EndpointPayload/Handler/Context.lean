import EndpointPayload.Handler.BodyFields
import EndpointPayload.Handler.Location

/-!
# The handler of a route

A handler without a name is where its registration says.  A handler with a name is looked for in the
script of the route, and then in the file that it is imported from.
-/

namespace EndpointPayload

open Source

/-- A route with the code of its handler. -/
structure HandlerContext where
  route : Route
  /-- Fields of the request body that the file of the handler reads. -/
  bodyFields : List String
  code : String
  functionName : String
  filePath : String
  span : LineSpan

namespace HandlerContext

/-- The context of a function at known lines. -/
def ofSpan (route : Route) (script : Script) (name : String) (span : LineSpan) : HandlerContext :=
  { route := route
    bodyFields := Handler.bodyFields script.tree
    code := script.lineRange span.first span.last
    functionName := name
    filePath := script.path
    span := span }

/-- The part of a name after its last point, if it has one. -/
def afterLastPoint? (name : String) : Option String :=
  let cs := name.toList
  if cs.contains '.' then some (String.ofList (cs.reverse.takeWhile (· ≠ '.')).reverse) else none

/-- The name to look for in the script of the route.  A method of an object is looked for there only
if the object is not imported. -/
def localName? (route : Route) : Option String :=
  if route.handler = Route.anonymous then none
  else
    match afterLastPoint? route.handler with
    | none => some route.handler
    | some method => if route.controllerFile.isNone then some method else none

/-- The context of a function that a file defines. -/
def inFile? (files : FileSystem) (route : Route) (path name : String) : Option HandlerContext :=
  match Script.read? files path with
  | none => none
  | some script => (Handler.location? script.tree name).map (ofSpan route script name)

/-- The context in the file that the handler is imported from. -/
def imported? (files : FileSystem) (route : Route) : Option HandlerContext :=
  match route.controllerFile, route.controllerFunction with
  | some path, some name => inFile? files route path name
  | _, _ => none

/-- The handler of a route, if it is found. -/
def ofRoute? (files : FileSystem) (route : Route) : Option HandlerContext :=
  match route.inlineSpan with
  | some span =>
    (Script.read? files route.filePath).map fun script => ofSpan route script Route.anonymous span
  | none =>
    match (localName? route).bind (inFile? files route route.filePath) with
    | some context => some context
    | none => imported? files route

end HandlerContext
end EndpointPayload
