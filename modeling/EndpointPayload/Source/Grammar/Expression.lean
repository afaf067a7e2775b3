import EndpointPayload.Source.Grammar.Part
import EndpointPayload.Source.Dialect

/-!
# The grammar of expressions, patterns and parameters
-/

namespace EndpointPayload
namespace Source
namespace Grammar

open Rule (all any cases opt ahead sparseList trailingList)

/-- Binary operators; `??` binds most loosely and powers most tightly. -/
def operators (typed : Bool) : List (Operator Part) :=
  let op (s : String) (level : Nat) : Operator Part :=
    ⟨.mark s, level, .binary, false, false, none⟩
  let wordOp (s : String) : Operator Part := ⟨.word s, 7, .binary, false, false, none⟩
  let typeOp (s : String) : Operator Part :=
    ⟨.word s, 7, .asExpression, false, true, some (.type .type)⟩
  [⟨.mark "**", 11, .binary, true, false, none⟩, op "*" 10, op "/" 10, op "%" 10, op "+" 9,
    op "-" 9, op "<<" 8, op ">>" 8, op ">>>" 8, op "<" 7, op "<=" 7, op ">" 7, op ">=" 7,
    wordOp "in", wordOp "instanceof", op "==" 6, op "===" 6, op "!=" 6, op "!==" 6, op "&" 5,
    op "^" 4, op "|" 3, op "&&" 2, op "||" 1, op "??" 0] ++
    (if typed then [typeOp "as", typeOp "satisfies"] else [])

/-- The kinds that may stand left of an assignment. -/
def assignable : List Kind :=
  [.identifier, .undefined, .member, .subscript, .parenthesized, .nonNull, .objectPattern,
    .arrayPattern]

/-- No semicolon may be left out here. -/
def goesOn (typed : Bool) : R := .absent (.omitted typed true)

/-- A word before a property name, which it says more about; on its own it would be that name. -/
def modifier (typed : Bool) (w : String) : R :=
  all [word w, goesOn typed,
    .absent (any [mark "(", mark "=", mark ";", closeBrace, mark ",", mark ":", mark "<", mark "?",
      mark "!", .finish])]

/-- The words that say more about a method, in their order. -/
def methodWords (typed : Bool) : R :=
  let accessor := opt (any [modifier typed "get", modifier typed "set", mark "*"])
  if typed then
    all [opt (any [modifier true "public", modifier true "private", modifier true "protected"]),
      opt (modifier true "abstract"), opt (modifier true "static"), opt (modifier true "override"),
      opt (modifier true "readonly"), opt (modifier true "async"), accessor]
  else all [opt (modifier false "static"), opt (modifier false "async"), accessor]

/-- After `<…>`: not the start of an operand. -/
def afterInstantiation (typed : Bool) : R :=
  any [.finish, mark ")", mark "]", closeBrace, mark ",", mark ";", mark ":", mark ".", mark "?.",
    mark "=", mark "==", mark "===", mark "!=", mark "!==", mark "&&", mark "||", mark "??",
    mark "?", .omitted typed true]

def tailsOf (typed : Bool) : List (Kind × Role × List Kind × Part) :=
  [(.call, .callee, [], .expression .callTail),
    (.call, .callee, [], .expression .callMaybeTail),
    (.call, .callee, [], .expression .templateTail),
    (.member, .object, [], .expression .memberTail),
    (.subscript, .object, [], .expression .subscriptTail)] ++
    (if typed then
      [(.nonNull, .plain, [], .expression .nonNullTail),
        (.instantiation, .plain, [], .expression .instantiationTail)]
    else [])

/-- Tails of what `new` constructs: no calls. -/
def constructedTails (typed : Bool) : List (Kind × Role × List Kind × Part) :=
  [(.call, .callee, [], .expression .templateTail),
    (.member, .object, [], .expression .memberTail),
    (.subscript, .object, [], .expression .subscriptTail)] ++
    (if typed then [(.nonNull, .plain, [], .expression .nonNullTail)] else [])

/-- Tails of what a pattern may name: members only. -/
def referenceTails (typed : Bool) : List (Kind × Role × List Kind × Part) :=
  [(.member, .object, [], .expression .memberTail),
    (.subscript, .object, [], .expression .subscriptTail)] ++
    (if typed then [(.nonNull, .plain, [], .expression .nonNullTail)] else [])

def operandRule (d : Dialect) : R :=
  let unaryMarks := any [mark "!", mark "~", mark "-", mark "+"]
  let unaryWords := any [word "typeof", word "void", word "delete"]
  let rest : R :=
    .chain (exp .trailed)
      [(.assignment, .left, assignable, .expression .assignTail),
        (.augmentedAssignment, .left, assignable, .expression .augmentTail),
        (.update, .plain, [], .expression .updateTail)]
  let destructured : R :=
    .node .assignment (all [.role .left (any [exp .objectPattern, exp .arrayPattern]), mark "=",
      .role .right (exp .expression)])
  let assertions : List (R × R) :=
    if d = .typescript then
      [(.seq (ahead (mark "<")) (.absent (exp .arrowHead)),
        .node .typeAssertion (.seq (typ .arguments) (exp .operand)))]
    else []
  cases
    ([(any [mark "++", mark "--"],
        .node .update (.seq (any [mark "++", mark "--"]) (exp .operand))),
      (unaryMarks, .node .unary (.seq unaryMarks (exp .operand))),
      (unaryWords, .node .unary (.seq unaryWords (exp .operand))),
      (word "await", .node .awaiting (.seq (word "await") (exp .operand))),
      (word "yield",
        .node .yielding (.seq (word "yield")
          (any [.seq (mark "*") (exp .expression),
            opt (.seq (.absent (.omitted d.typed true)) (exp .expression))]))),
      (.seq (any [exp .objectPattern, exp .arrayPattern]) (mark "="), destructured),
      (.seq (.token .privateName) (word "in"), .leaf .privateIdentifier .privateName)] ++
      assertions)
    rest

def primaryRule (d : Dialect) : R :=
  let metaWords (first last : String) : R :=
    .node .metaProperty (all [word first, mark ".", word last])
  let markupStart : List (R × R) :=
    if d.markup then [(mark "<", mrk .element)] else []
  cases
    ([(.seq identifier (mark "=>"), exp .arrow),
      (ahead (any [mark "(", mark "<", all [word "async", any [mark "(", mark "<", anyName]]]),
        cases
          ([(exp .arrowHead, exp .arrow),
            (mark "(", stm .parenthesized),
            (all [word "async", goesOn d.typed, word "function"], exp .function)] ++ markupStart)
          identifier),
      (word "function", exp .function),
      (any [word "class", mark "@"], exp .classExpression),
      (openBrace, exp .object),
      (mark "[", exp .array),
      (.token .quoted, stringLiteral),
      (exact "\x60", exp .template),
      (.token .number, .leaf .number .number),
      (.token .regex, .leaf .regex .regex),
      (word "this", .leaf .this (.word "this")),
      (word "super", .leaf .super (.word "super")),
      (word "undefined", .leaf .undefined (.word "undefined")),
      (any [word "true", word "false", word "null"], .leaf .constant (.name [])),
      (.seq (word "new") (mark "."), metaWords "new" "target"),
      (all [word "import", mark ".", word "meta"], metaWords "import" "meta")])
    identifier

def expressionRule (d : Dialect) : ExpressionPart → R
  | .expressions => .chain (exp .expression) [(.sequence, .plain, [], .expression .sequenceTail)]
  | .expression => .chain (exp .binary) [(.ternary, .plain, [], .expression .conditionalTail)]
  | .binary => .infixed (.expression .operand) (operators d.typed) 0
  | .operand => operandRule d
  | .trailed => .chain (exp .base) (tailsOf d.typed)
  | .base =>
    cases
      [(all [word "new", .absent (mark ".")],
          .node .newExpression (all [word "new", exp .constructed,
            typedOnly d.typed (typ .arguments), opt (.role .arguments (exp .arguments))])),
        (all [word "import", .absent (.seq (mark ".") (word "meta")), any [mark "(", mark "."]],
          .leaf .importKeyword (.word "import"))]
      (exp .primary)
  | .primary => primaryRule d
  | .constructed =>
    .chain (cases [(all [word "new", .absent (mark ".")], exp .base)] (exp .primary))
      (constructedTails d.typed)
  | .reference =>
    .chain (any [identifier, .leaf .this (.word "this"), .leaf .super (.word "super"),
      .leaf .undefined (.word "undefined")]) (referenceTails d.typed)
  | .arrow =>
    .node .arrowFunction (all
      [any [.seq (.seq (word "async") (goesOn d.typed))
              (any [.seq identifier (ahead (mark "=>")), exp .signature]),
          .seq identifier (ahead (mark "=>")), exp .signature],
        mark "=>", cases
          [(all [openBrace, anyName, mark ":"], any [exp .object, stm .block]),
            (openBrace, stm .block)]
          (exp .expression)])
  | .arrowHead =>
    any [all [word "async", goesOn d.typed, any [identifier, exp .signature], mark "=>"],
      .seq (exp .signature) (mark "=>")]
  | .object => .node .object (braces (sparseList (exp .property)))
  | .property =>
    cases
      [(mark "...", .node .spread (.seq (mark "...") (exp .expression))),
        (exp .methodHead, .node .methodDefinition (.seq (exp .methodHead) (exp .methodTail))),
        (.seq (exp .propertyName) (mark ":"),
          .node .pair (all [.role .key (exp .propertyName), mark ":",
            .role .value (exp .expression)]))]
      (nameAs .shorthandIdentifier)
  | .methodHead =>
    all [methodWords d.typed, .role .name (exp .propertyName), typedOnly d.typed (mark "?"),
      ahead (if d.typed then any [mark "(", mark "<"] else mark "(")]
  | .methodTail => .seq (exp .signature) (stm .block)
  | .propertyName =>
    any [nameAs .propertyIdentifier, .leaf .privateIdentifier .privateName, stringLiteral,
      .leaf .number .number, .node .computedName (list "[" (exp .expression) "]")]
  | .array =>
    .node .array (list "[" (sparseList (any
      [.node .spread (.seq (mark "...") (exp .expression)), exp .expression])) "]")
  | .arguments =>
    .node .arguments (list "(" (sparseList (any
      [.node .spread (.seq (mark "...") (exp .expression)), exp .expression])) ")")
  | .template =>
    .node .templateString (all [exact "\x60",
      .many (any [.token .templateChunk,
        .node .templateSubstitution (all [exact "$\x7b", exp .expressions, closeBrace])]),
      exact "\x60"])
  | .function =>
    let head (star : R) : R :=
      all [opt (word "async"), word "function", star, opt (.role .name (nameAs .identifier)),
        exp .signature, stm .block]
    cases [(all [opt (word "async"), word "function", mark "*"],
        .node .generatorFunction (head (mark "*")))]
      (.node .functionExpression (head .empty))
  | .classExpression =>
    .node .classExpression (all [.many (stm .decorator), word "class",
      opt (.leaf (if d.typed then .typeName else .identifier)
        (.name ["extends", "implements"])), stm .classTail])
  | .pattern =>
    cases
      [(openBrace, exp .objectPattern), (mark "[", exp .arrayPattern),
        (mark "...", .node .restPattern (.seq (mark "...") (exp .pattern)))]
      (exp .reference)
  | .objectPattern =>
    let shorthand := nameAs .shorthandPattern
    .node .objectPattern (braces (sparseList (cases
      [(mark "...", .node .restPattern (.seq (mark "...") (exp .pattern))),
        (.seq (exp .propertyName) (mark ":"),
          .node .pairPattern (all [.role .key (exp .propertyName), mark ":",
            .role .value (exp .defaulted)]))]
      (.chain shorthand [(.objectAssignmentPattern, .left, [], .expression .defaultTail)]))))
  | .arrayPattern => .node .arrayPattern (list "[" (sparseList (exp .defaulted)) "]")
  | .defaulted =>
    .chain (exp .pattern) [(.assignmentPattern, .left, [], .expression .defaultTail)]
  | .signature =>
    .seq (typedOnly d.typed (typ .parameters))
      (.seq (exp .parameters) (typedOnly d.typed (typ .returned)))
  | .parameters =>
    .node .formalParameters (list "(" (opt (trailingList (exp .parameter))) ")")
  | .parameter =>
    if d.typed then
      let said (w : String) : R := .seq (word w) (ahead (any [anyName, openBrace, mark "["]))
      .node .parameter (all [.many (stm .decorator),
        opt (any [said "public", said "private", said "protected"]), opt (said "override"),
        opt (said "readonly"), exp .pattern, opt (mark "?"), opt (typ .ascription),
        opt (.seq (mark "=") (.role .value (exp .expression)))])
    else exp .defaulted
  | .callTail =>
    if d.typed then
      any [.role .arguments (exp .arguments),
        all [typ .arguments, .role .arguments (exp .arguments)]]
    else .role .arguments (exp .arguments)
  | .callMaybeTail =>
    all [mark "?.", typedOnly d.typed (typ .arguments), .role .arguments (exp .arguments)]
  | .templateTail => .role .arguments (exp .template)
  | .memberTail =>
    .seq (any [mark ".", mark "?."])
      (.role .property (any [nameAs .propertyIdentifier, .leaf .privateIdentifier .privateName]))
  | .subscriptTail =>
    all [opt (mark "?."), mark "[", .role .index (exp .expressions), mark "]"]
  | .nonNullTail => .seq (goesOn d.typed) (mark "!")
  | .instantiationTail => .seq (typ .arguments) (ahead (afterInstantiation d.typed))
  | .assignTail => .seq (mark "=") (.role .right (exp .expression))
  | .updateTail => .seq (goesOn d.typed) (any [mark "++", mark "--"])
  | .augmentTail =>
    .seq (any (["+=", "-=", "*=", "/=", "%=", "^=", "&=", "|=", ">>=", ">>>=", "<<=", "**=", "&&=",
        "||=", "??="].map mark))
      (.role .right (exp .expression))
  | .defaultTail => .seq (mark "=") (.role .right (exp .expression))
  | .conditionalTail =>
    let branches (first : R) : R := all [mark "?", first, mark ":", exp .expression]
    if d.typed then any [branches (exp .expression), branches (stm .parenthesized)]
    else branches (exp .expression)
  | .sequenceTail => .seq (mark ",") (exp .expression)

end Grammar
end Source
end EndpointPayload
