import EndpointPayload.Source.Rule

/-!
# Named parts of the script grammar

The names of the grammar's parts, by family, and short forms for the rules most parts are made of.
-/

namespace EndpointPayload
namespace Source

inductive StatementPart where
  | program
  | statement
  | block
  | braced
  | parenthesized
  | declarator
  | bindingTarget
  | forHead
  | switchCase
  | importing
  | importClause
  | importName
  | exporting
  | declaration
  | function
  | classBody
  | classMember
  | heritage
  | classTail
  | decorator
  | decoratorName
  | decoratorCall
  | decoratorArguments
  | endAfterOperand
  | endAfterWord
  | endOfDeclaration

inductive ExpressionPart where
  | expressions
  | expression
  | binary
  | operand
  | trailed
  | base
  | primary
  | constructed
  | reference
  | arrow
  | arrowHead
  | object
  | property
  | methodHead
  | methodTail
  | propertyName
  | array
  | arguments
  | template
  | function
  | classExpression
  | pattern
  | objectPattern
  | arrayPattern
  | defaulted
  | signature
  | parameters
  | parameter
  -- what may follow a base
  | callTail
  | callMaybeTail
  | templateTail
  | memberTail
  | subscriptTail
  | nonNullTail
  | instantiationTail
  | assignTail
  | updateTail
  | augmentTail
  | defaultTail
  | conditionalTail
  | sequenceTail

inductive TypePart where
  | type
  | functionType
  | conditional
  | union
  | intersection
  | leading
  | indexed
  | primary
  | arguments
  | parameters
  | ascription
  | returned
  | predicate
  | objectBody
  | objectMember
  | indexSignature
  | tupleItem
  | query
  | queryTail
  | queryArguments
  | queryIndex
  | declaration
  | enumBody
  | moduleName

inductive MarkupPart where
  | element
  | name
  | nameTail
  | attribute
  | child
  | embedded

/-- A named part of the grammar. -/
inductive Part where
  | statement (p : StatementPart)
  | expression (p : ExpressionPart)
  | type (p : TypePart)
  | markup (p : MarkupPart)

namespace Grammar

abbrev R := Rule Part

def mark (s : String) : R := .token (.mark s)

def exact (s : String) : R := .token (.exact s)

def word (s : String) : R := .token (.word s)

def anyName : R := .token (.name [])

def nameAs (k : Kind) : R := .leaf k (.name [])

def stm (p : StatementPart) : R := .part (.statement p)

def exp (p : ExpressionPart) : R := .part (.expression p)

def typ (p : TypePart) : R := .part (.type p)

def mrk (p : MarkupPart) : R := .part (.markup p)

/-- A rule of the dialects with types only. -/
def typedOnly (typed : Bool) (r : R) : R := if typed then .opt r else .empty

/-- The words that start an operand of their own and so are no names there. -/
def operandWords : List String :=
  ["function", "class", "new", "this", "super", "true", "false", "null", "undefined", "typeof",
    "void", "delete", "await", "yield", "import"]

def identifier : R := .leaf .identifier (.name operandWords)

def stringLiteral : R := .leaf .string .quoted

def openBrace : R := mark "\x7b"

def closeBrace : R := mark "\x7d"

/-- Items between braces. -/
def braces (items : R) : R := .all [openBrace, items, closeBrace]

/-- Items between two marks. -/
def list (open_ : String) (items : R) (close : String) : R :=
  .all [mark open_, items, mark close]

end Grammar

end Source
end EndpointPayload
