import EndpointPayload.Route.Specifier
import EndpointPayload.Source.Script

/-!
# Imports of a script

Names that a script takes from files of the project, by `import` or by `require`.  A name stands for
a whole file or for one thing that a file exports.  Of two imports of one name the later one counts.
-/

namespace EndpointPayload

open Source

/-- What a file exports under a name. -/
structure Export where
  file : String
  name : String
  deriving DecidableEq, Repr

/-- A name that an import gives a meaning in the script. -/
inductive Binding where
  | file (localName : String) (file : String)
  | item (localName : String) (item : Export)
  deriving DecidableEq, Repr

/-- The imports of a script in source order. -/
structure Imports where
  bindings : List Binding

namespace Binding

/-- The file that a name stands for. -/
def fileOf? (name : String) : Binding → Option String
  | file n f => if n = name then some f else none
  | item _ _ => none

/-- The export that a name stands for. -/
def itemOf? (name : String) : Binding → Option Export
  | file _ _ => none
  | item n i => if n = name then some i else none

/-- The bindings of one part of an import clause. -/
def ofClausePart (file : String) (part : Tree) : List Binding :=
  match part.kind with
  | .identifier => [.file part.text file]
  | .namespaceImport =>
    match part.childOfKind? .identifier with
    | some n => [.file n.text file]
    | none => []
  | .namedImports =>
    part.children.filterMap fun s =>
      if s.kind = .importSpecifier then
        (s.child? .name).map fun n =>
          let localName := ((s.child? .alias).map Tree.text).getD n.keyText
          .item localName ⟨file, n.keyText⟩
      else none
  | _ => []

/-- The bindings of an `import` from a file. -/
def ofImport (file : String) (statement : Tree) : List Binding :=
  statement.children.flatMap fun c =>
    match c.kind with
    | .importClause => c.children.flatMap (ofClausePart file)
    | .importRequireClause =>
      match c.childOfKind? .identifier with
      | some n => [.file n.text file]
      | none => []
    | _ => []

/-- The binding of one property of a pattern. -/
def ofPatternPart? (file : String) (part : Tree) : Option Binding :=
  match part.kind with
  | .shorthandPattern => some (.item part.text ⟨file, part.text⟩)
  | .pairPattern =>
    match part.child? .key, part.child? .value with
    | some k, some v => if v.kind = .identifier then some (.item v.text ⟨file, k.keyText⟩) else none
    | _, _ => none
  | _ => none

/-- The bindings of a declaration whose value is a required file or one of its members. -/
def ofRequire (file : String) (member : Option String) (target : Tree) : List Binding :=
  match target.kind with
  | .identifier =>
    match member with
    | some n => [.item target.text ⟨file, n⟩]
    | none => [.file target.text file]
  | .objectPattern => target.children.filterMap (ofPatternPart? file)
  | _ => []

end Binding

namespace Imports

/-- The file that a call of `require` names. -/
def requiredFile? (files : FileSystem) (script : String) (call : Tree) : Option String :=
  match call.meaning? with
  | some (.call callee (first :: _)) =>
    if callee.name? = some "require" then first.literal?.bind (files.imported? script) else none
  | _ => none

/-- The required file that a value is, or is a member of. -/
def requireTarget? (files : FileSystem) (script : String) (value : Tree) :
    Option (String × Option String) :=
  match value.meaning? with
  | some (.call _ _) => (requiredFile? files script value).map fun f => (f, none)
  | some (.member object property) =>
    match requiredFile? files script object, property.name? with
    | some f, some n => some (f, some n)
    | _, _ => none
  | _ => none

/-- The bindings that one node brings. -/
def bindingsAt (files : FileSystem) (script : String) (node : Tree) : List Binding :=
  match node.meaning? with
  | some (.importing spec) =>
    match files.imported? script spec with
    | some f => Binding.ofImport f node
    | none => []
  | some (.declarator name (some value)) =>
    match requireTarget? files script value with
    | some (f, member) => Binding.ofRequire f member name
    | none => []
  | _ => []

/-- The imports of a script. -/
def ofScript (files : FileSystem) (script : Script) : Imports :=
  ⟨script.nodes.flatMap (bindingsAt files script.path)⟩

/-- The file that a name stands for as a whole. -/
def module? (t : Imports) (name : String) : Option String :=
  t.bindings.reverse.findSome? (Binding.fileOf? name)

/-- The export that a name stands for. -/
def item? (t : Imports) (name : String) : Option Export :=
  t.bindings.reverse.findSome? (Binding.itemOf? name)

/-- The file that a name comes from, whichever way it came in. -/
def file? (t : Imports) (name : String) : Option String :=
  (t.module? name).or ((t.item? name).map Export.file)

end Imports
end EndpointPayload
