import EndpointPayload.Route.Basic
import EndpointPayload.Route.Mounts

/-!
# Registrations

`receiver.verb('path', middlewares…, handler)` registers a route, and so does each verb after
`receiver.route('path')`.  The last argument is the handler; a call stands for the first of its
arguments that can be one.
-/

namespace EndpointPayload

open Source

/-- What the last argument of a registration says about the handler. -/
structure HandlerMention where
  name : String
  file : Option String
  function : Option String
  span : Option LineSpan

/-- A route as its own script shows it. -/
structure Registration where
  route : Route
  /-- Whether the receiver is mounted in the same script. -/
  locallyMounted : Bool

namespace HandlerMention

def anonymous : HandlerMention := ⟨Route.anonymous, none, none, none⟩

/-- A handler that is a name, a member or a function. -/
def direct? (imports : Imports) (t : Tree) : Option HandlerMention :=
  match t.meaning? with
  | some (.name n) =>
    let item := imports.item? n
    some ⟨n, item.map Export.file, item.map Export.name, none⟩
  | some (.member _ _) =>
    match t.simpleMember? with
    | some (object, name) =>
      let file := imports.file? object
      some ⟨object ++ "." ++ name, file, file.map fun _ => name, none⟩
    | none => some ⟨t.text, none, none, none⟩
  | some .functionValue => some { anonymous with span := some ⟨t.startLine, t.endLine⟩ }
  | _ => none

/-- What an argument says about the handler; one call around it is looked through. -/
def ofTree (imports : Imports) (t : Tree) : HandlerMention :=
  match direct? imports t with
  | some h => h
  | none =>
    match t.meaning? with
    | some (.call _ arguments) => (arguments.findSome? (direct? imports)).getD anonymous
    | _ => anonymous

end HandlerMention

namespace Registration

/-- Follows `x.route('path').get(a).post(b)` back to the path and the name of `x`. -/
def chainStart? (t : Tree) : Option (String × Option String) :=
  match _h : t.methodCall? with
  | none => none
  | some m =>
    if m.name = "route" then
      m.arguments.head?.bind fun first => first.literal?.map fun path => (path, m.object.name?)
    else if (Verb.ofName? m.name).isSome then chainStart? m.object
    else none
  termination_by t.size
  decreasing_by exact Tree.size_methodCall_lt _h

/-- Paths start with a slash, or are a bare wildcard. -/
def isPath (literal : String) : Bool := literal.startsWith "/" || literal.startsWith "*"

/-- The path, the receiver's name and the arguments after the path. -/
def parts? (m : MethodCall) : Option (String × Option String × List Tree) :=
  match m.arguments with
  | first :: rest =>
    match first.literal? with
    | some path => some (path, m.object.name?, rest)
    | none => (chainStart? m.object).map fun (path, receiver) => (path, receiver, m.arguments)
  | [] => (chainStart? m.object).map fun (path, receiver) => (path, receiver, [])

/-- The registration that a node is. -/
def at? (script : Script) (imports : Imports) (mounts : Mounts) (node : Tree) :
    Option Registration :=
  match node.methodCall? with
  | none => none
  | some call =>
    match Verb.ofName? call.name, parts? call with
    | some verb, some (literal, receiver, arguments) =>
      match isPath literal, arguments.getLast? with
      | true, some last =>
        let mounted := receiver.bind mounts.path?
        let handler := HandlerMention.ofTree imports last
        some {
          locallyMounted := mounted.isSome
          route := {
            verb := verb
            path := match mounted with
              | some above => RoutePath.join above literal
              | none => RoutePath.normalize literal
            filePath := script.path
            line := node.startLine
            middlewares := arguments.dropLast.filterMap Tree.name?
            handler := handler.name
            routerPrefix := mounted
            controllerFile := handler.file
            controllerFunction := handler.function
            inlineSpan := handler.span } }
      | _, _ => none
    | _, _ => none

/-- The registrations of a script. -/
def ofScript (script : Script) (imports : Imports) (mounts : Mounts) : List Registration :=
  script.nodes.filterMap (at? script imports mounts)

end Registration
end EndpointPayload
