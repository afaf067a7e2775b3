import EndpointPayload.Route.Basic
import EndpointPayload.Source.Script

/-!
# Where a function is defined

A function is defined by a function declaration, by a declarator with a function as its value, by an
assignment of a function to an export, or by a method.  Declarations and assignments are shown with
the statement around them.  The first definition of a name in source order counts.
-/

namespace EndpointPayload

open Source

namespace Handler

/-- The outermost of the statements around a node that belong to its definition. -/
def enclosing (t : Tree) : List Level → Tree
  | [] => t
  | l :: ls => if l.parent.kind.isEnclosingStatement then enclosing l.parent ls else t

/-- The statement that a definition at a place is shown with. -/
def statement (c : Cursor) : Tree := enclosing c.focus c.above

/-- A function, or a call with a function among its arguments. -/
def definesFunction (value : Tree) : Bool :=
  value.kind.isFunction ||
    match value.meaning? with
    | some (.call _ arguments) => arguments.any fun a => a.kind.isFunction
    | _ => false

/-- `exports.name`, `module.name` or `module.exports.name`. -/
def isExport (left : Tree) (name : String) : Bool :=
  match left.meaning? with
  | some (.member object property) =>
    property.name? = some name &&
      match object.meaning? with
      | some (.name n) => n = "exports" || n = "module"
      | some (.member inner exported) =>
        inner.name? = some "module" && exported.name? = some "exports"
      | _ => false
  | _ => false

/-- The node that shows the definition of a name, if a place is one. -/
def definitionAt? (name : String) (c : Cursor) : Option Tree :=
  match c.focus.meaning? with
  | some (.function n) => if n = name then some (statement c) else none
  | some (.declarator target (some value)) =>
    if target.name? = some name && definesFunction value then
      some (match c.parent? with
        | some p => statement p
        | none => c.focus)
    else none
  | some (.assignment left right) =>
    if isExport left name && definesFunction right then some (statement c) else none
  | some (.method n) => if n = name then some c.focus else none
  | _ => none

/-- The lines of the first definition of a name. -/
def location? (tree : Tree) (name : String) : Option LineSpan :=
  (tree.places.findSome? (definitionAt? name)).map fun t => ⟨t.startLine, t.endLine⟩

end Handler
end EndpointPayload
