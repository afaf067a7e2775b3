/-!
# Kinds and roles of script nodes

`Kind` names the construct a node of a script's tree stands for, and `Role` the part a node plays
in its parent.  Kinds that no analysis tells apart share one constructor.
-/

namespace EndpointPayload
namespace Source

/-- The construct a node stands for. -/
inductive Kind where
  | program
  | expressionStatement
  | variableDeclaration
  | lexicalDeclaration
  | variableDeclarator
  | statementBlock
  | ifStatement
  | switchStatement
  | switchCase
  | forStatement
  | forInStatement
  | whileStatement
  | doStatement
  | tryStatement
  | catchClause
  | withStatement
  | breakStatement
  | continueStatement
  | debuggerStatement
  | returnStatement
  | throwStatement
  | emptyStatement
  | labeledStatement
  | importStatement
  | importClause
  | namespaceImport
  | namedImports
  | importSpecifier
  | importRequireClause
  | importAttribute
  | importAlias
  | exportStatement
  | exportClause
  | exportSpecifier
  | namespaceExport
  | functionDeclaration
  | generatorDeclaration
  | functionSignature
  | functionExpression
  | generatorFunction
  | arrowFunction
  | formalParameters
  | parameter
  | classDeclaration
  | classExpression
  | classHeritage
  | classBody
  | methodDefinition
  | methodSignature
  | fieldDefinition
  | staticBlock
  | decorator
  | call
  | arguments
  | member
  | subscript
  | newExpression
  | importKeyword
  | metaProperty
  | this
  | super
  | parenthesized
  | sequence
  | assignment
  | augmentedAssignment
  | unary
  | update
  | binary
  | ternary
  | awaiting
  | yielding
  | spread
  | object
  | pair
  | array
  | computedName
  | asExpression
  | nonNull
  | typeAssertion
  | instantiation
  | objectPattern
  | pairPattern
  | objectAssignmentPattern
  | shorthandPattern
  | arrayPattern
  | assignmentPattern
  | restPattern
  | identifier
  | propertyIdentifier
  | shorthandIdentifier
  | privateIdentifier
  | undefined
  | string
  | templateString
  | templateSubstitution
  | number
  | regex
  | constant
  | element
  | elementText
  | attribute
  | embedded
  | typeName
  | typeExpression
  | typeTemplate
  | typeParameters
  | objectType
  | typeDeclaration
  | enumDeclaration
  | namespaceDeclaration
  | ambientDeclaration
  deriving DecidableEq, Repr

/-- The part a node plays in its parent. -/
inductive Role where
  | plain
  | callee
  | arguments
  | object
  | property
  | index
  | name
  | value
  | left
  | right
  | key
  | source
  | alias
  deriving DecidableEq, Repr

namespace Kind

/-- Arrow functions and function expressions, generators included. -/
def isFunction : Kind → Bool
  | arrowFunction | functionExpression | generatorFunction => true
  | _ => false

/-- The kinds whose text is a plain name. -/
def isName : Kind → Bool
  | identifier | propertyIdentifier | shorthandIdentifier => true
  | _ => false

/-- The statements that a definition is shown together with. -/
def isEnclosingStatement : Kind → Bool
  | lexicalDeclaration | variableDeclaration | expressionStatement | exportStatement => true
  | _ => false

end Kind

end Source
end EndpointPayload
