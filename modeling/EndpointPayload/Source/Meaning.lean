import EndpointPayload.Source.Tree

/-!
# What a node means

`Tree.meaning?` is the view that the analyses of routes and handlers share: calls, members, names,
literal texts, functions, declarators, assignments, methods and imports.  All other nodes mean
nothing to them.
-/

namespace EndpointPayload
namespace Source

/-- The constructs that the analyses tell apart. -/
inductive Meaning where
  /-- `callee(arguments…)`; a template after the callee counts as no arguments. -/
  | call (callee : Tree) (arguments : List Tree)
  /-- `object.property`. -/
  | member (object property : Tree)
  | name (s : String)
  /-- A quoted text, or a template without substitutions. -/
  | literal (s : String)
  /-- `function name() { … }`. -/
  | function (name : String)
  /-- An arrow function or function expression. -/
  | functionValue
  /-- `name = value` in a declaration. -/
  | declarator (name : Tree) (value : Option Tree)
  | assignment (left right : Tree)
  /-- A method of a class or object, or a key with a function. -/
  | method (name : String)
  /-- An import from a source. -/
  | importing (source : String)

namespace Tree

/-- The text without its first and last character. -/
def unquote (s : String) : String :=
  String.ofList ((s.toList.drop 1).dropLast)

/-- The text of a literal that computes nothing. -/
def literal? (t : Tree) : Option String :=
  match t.kind with
  | .string => some (unquote t.text)
  | .templateString =>
    if t.children.any fun c => c.kind = .templateSubstitution then none else some (unquote t.text)
  | _ => none

/-- A literal's text, or the text as written: keys may be quoted. -/
def keyText (t : Tree) : String := t.literal?.getD t.text

/-- The arguments of a call's argument list. -/
def argumentsOf (t : Tree) : List Tree :=
  match t.child? .arguments with
  | some a => if a.kind = .arguments then a.children else []
  | none => []

def meaning? (t : Tree) : Option Meaning :=
  match t.kind with
  | .call => (t.child? .callee).map fun c => .call c t.argumentsOf
  | .member =>
    match t.child? .object, t.child? .property with
    | some o, some p => some (.member o p)
    | _, _ => none
  | .identifier | .propertyIdentifier | .shorthandIdentifier => some (.name t.text)
  | .string | .templateString => t.literal?.map .literal
  | .functionDeclaration | .generatorDeclaration =>
    (t.child? .name).map fun n => .function n.text
  | .arrowFunction | .functionExpression | .generatorFunction => some .functionValue
  | .variableDeclarator => (t.child? .name).map fun n => .declarator n (t.child? .value)
  | .assignment =>
    match t.child? .left, t.child? .right with
    | some l, some r => some (.assignment l r)
    | _, _ => none
  | .methodDefinition => (t.child? .name).map fun n => .method n.text
  | .pair =>
    match t.child? .key, t.child? .value with
    | some k, some v => if v.kind.isFunction then some (.method k.keyText) else none
    | _, _ => none
  | .importStatement =>
    match t.child? .source with
    | some s => s.literal?.map .importing
    | none =>
      ((t.childOfKind? .importRequireClause).bind fun c => c.child? .source).bind fun s =>
        s.literal?.map .importing
  | _ => none

/-- The name that a node is. -/
def name? (t : Tree) : Option String :=
  if t.kind.isName then some t.text else none

/-- `object.property` with names on both sides. -/
def simpleMember? (t : Tree) : Option (String × String) :=
  match t.meaning? with
  | some (.member o p) =>
    match o.name?, p.name? with
    | some a, some b => some (a, b)
    | _, _ => none
  | _ => none

end Tree

end Source
end EndpointPayload
