import EndpointPayload.Source.Grammar.Part
import EndpointPayload.Source.Grammar.Expression

/-!
# The grammar of statements, declarations, modules and classes
-/

namespace EndpointPayload
namespace Source
namespace Grammar

open Rule (all any cases opt ahead commaList optionalList)

/-- The start of a declaration of variables. -/
def bindingStart (typed : Bool) : R :=
  any [word "var", word "const",
    all [word "let", goesOn typed, any [anyName, openBrace, mark "["]]]

/-- Words that a statement starts with and that are then no names. -/
def isDeclarationStart (typed : Bool) : R :=
  let typedStarts : List R :=
    if typed then
      [word "interface", word "enum", .seq (word "abstract") (word "class"),
        .seq (.seq (word "type") (goesOn true)) anyName,
        .seq (.seq (any [word "namespace", word "module"]) (goesOn true))
          (any [anyName, .token .quoted]),
        all [word "declare", goesOn true, any (["var", "let", "const", "function", "async", "class",
          "abstract", "interface", "type", "enum", "namespace", "module", "global"].map word)]]
    else []
  any ([bindingStart typed,
    all [opt (.seq (word "async") (goesOn typed)), word "function", opt (mark "*"), anyName],
    all [word "class", .token (.name ["extends", "implements"])],
    all [mark "@", .absent (word "export")]] ++ typedStarts)

def declarationRule (d : Dialect) : R :=
  let binding (k : Kind) (start : R) : R :=
    .node k (all [start, commaList (stm .declarator), stm .endOfDeclaration])
  let typedCases : List (R × R) :=
    if d.typed then
      [(any [.seq (opt (word "const")) (word "enum"), word "interface",
          .seq (word "type") anyName, .seq (any [word "namespace", word "module"])
            (any [anyName, .token .quoted]), .seq (word "declare") anyName],
        typ .declaration)]
    else []
  cases
    (typedCases ++
      [(word "var", binding .variableDeclaration (word "var")),
        (any [word "const", word "let"],
          binding .lexicalDeclaration (any [word "const", word "let"])),
        (.seq (opt (word "async")) (word "function"), stm .function)])
    (.node .classDeclaration (all [.many (stm .decorator), typedOnly d.typed (word "abstract"),
      word "class",
      .leaf (if d.typed then .typeName else .identifier) (.name ["extends", "implements"]),
      stm .classTail]))

def functionRule (d : Dialect) : R :=
  let head (star : R) : R :=
    all [opt (word "async"), word "function", star, .role .name (nameAs .identifier),
      exp .signature]
  let defined : R :=
    cases [(all [opt (word "async"), word "function", mark "*"],
        .node .generatorDeclaration (.seq (head (mark "*")) (stm .block)))]
      (.node .functionDeclaration (.seq (head .empty) (stm .block)))
  if d.typed then
    cases [(all [head (opt (mark "*")), .absent (openBrace)],
        .node .functionSignature (.seq (head (opt (mark "*"))) (stm .endAfterWord)))]
      defined
  else defined

/-- `import name = path.to.name`. -/
def importAliasRule : R :=
  .node .importAlias (all [word "import", nameAs .identifier, mark "=", nameAs .identifier,
    .many (.seq (mark ".") (nameAs .propertyIdentifier)), stm .endAfterWord])

def importingRule (d : Dialect) : R :=
  let from_ : R := .seq (word "from") (.role .source stringLiteral)
  let plain : R :=
    .node .importStatement (all [word "import",
      any ((if d.typed then
          [all [any [word "type", word "typeof"], stm .importClause, from_]] else []) ++
        [.seq (stm .importClause) from_, .role .source stringLiteral]),
      opt (.node .importAttribute (.seq (word "with") (exp .object))), stm .endAfterWord])
  if d.typed then
    cases
      [(all [word "import", opt (any [.seq (word "type") (ahead anyName)]), anyName, mark "=",
            word "require", mark "("],
          .node .importStatement (all [word "import",
            opt (.seq (word "type") (ahead anyName)),
            .node .importRequireClause (all [nameAs .identifier, mark "=", word "require", mark "(",
              .role .source stringLiteral, mark ")"]), stm .endAfterWord])),
        (all [word "import", anyName, mark "="], importAliasRule)]
      plain
  else plain

def exportingRule (d : Dialect) : R :=
  let from_ : R := .seq (word "from") (.role .source stringLiteral)
  let moduleName : R := any [nameAs .identifier, stringLiteral]
  let specifier : R :=
    .node .exportSpecifier (all [typedOnly d.typed (all [any [word "type", word "typeof"],
        ahead (any [.token (.name ["as"]), .token .quoted])]),
      .role .name moduleName, opt (.seq (word "as") (.role .alias moduleName))])
  let clause : R :=
    .node .exportClause (braces (optionalList specifier))
  let typedCases : List (R × R) :=
    if d.typed then
      [(mark "=", all [mark "=", exp .expression, stm .endAfterOperand]),
        (.seq (word "type") (openBrace),
          all [word "type", clause, opt from_, stm .endAfterWord]),
        (.seq (word "as") (word "namespace"),
          all [word "as", word "namespace", nameAs .identifier, stm .endAfterWord]),
        (word "import", importAliasRule)]
    else []
  .node .exportStatement (all [.many (stm .decorator), word "export", cases
    ([(mark "*",
        all [cases [(.seq (mark "*") (word "as"),
            .node .namespaceExport (all [mark "*", word "as", moduleName]))] (mark "*"),
          from_, stm .endAfterWord]),
      (openBrace, all [clause, opt from_, stm .endAfterWord]),
      (.seq (word "default") (isDeclarationStart d.typed),
        .seq (word "default") (stm .declaration)),
      (word "default",
        all [word "default", .role .value (exp .expression), stm .endAfterOperand])] ++
      typedCases)
    (stm .declaration)])

def statementChoice (d : Dialect) : R :=
  let block (k : Kind) (rule : R) : R := .node k rule
  let exported : R :=
    any ([anyName, mark "*", openBrace, mark "@"] ++ if d.typed then [mark "="] else [])
  cases
    [(openBrace, stm .braced),
      (mark ";", .node .emptyStatement (mark ";")),
      (all [word "import", .absent (any [mark "(", mark "."])], stm .importing),
      (all [.many (stm .decorator), word "export", exported], stm .exporting),
      (isDeclarationStart d.typed, stm .declaration),
      (word "if", block .ifStatement (all [word "if", stm .parenthesized, stm .statement,
        opt (.seq (word "else") (stm .statement))])),
      (word "switch", block .switchStatement (all [word "switch", stm .parenthesized, openBrace,
        .many (stm .switchCase), closeBrace])),
      (.seq (word "for") (stm .forHead), block .forInStatement (all [word "for", stm .forHead,
        exp .expressions, mark ")", stm .statement])),
      (word "for", block .forStatement (all [word "for", mark "(",
        cases [(bindingStart d.typed, stm .declaration), (mark ";", mark ";")]
          (.seq (exp .expressions) (mark ";")),
        opt (exp .expressions), mark ";", opt (exp .expressions), mark ")", stm .statement])),
      (word "while",
        block .whileStatement (all [word "while", stm .parenthesized, stm .statement])),
      (word "do", block .doStatement (all [word "do", stm .statement, word "while",
        stm .parenthesized, opt (stm .endAfterWord)])),
      (word "try", block .tryStatement (all [word "try", stm .block,
        opt (.node .catchClause (all [word "catch",
          opt (all [mark "(", stm .bindingTarget, typedOnly d.typed (typ .ascription), mark ")"]),
          stm .block])),
        opt (.seq (word "finally") (stm .block))])),
      (word "with", block .withStatement (all [word "with", stm .parenthesized, stm .statement])),
      (word "break", block .breakStatement (all [word "break",
        opt (.seq (.absent (.omitted d.typed false)) anyName), stm .endAfterWord])),
      (word "continue", block .continueStatement (all [word "continue",
        opt (.seq (.absent (.omitted d.typed false)) anyName), stm .endAfterWord])),
      (word "debugger", block .debuggerStatement (.seq (word "debugger") (stm .endAfterWord))),
      (word "return", block .returnStatement (.seq (word "return")
        (cases [(stm .endAfterWord, stm .endAfterWord)]
          (.seq (exp .expressions) (stm .endAfterOperand))))),
      (word "throw", block .throwStatement (all [word "throw", exp .expressions,
        stm .endAfterOperand])),
      (.seq identifier (mark ":"), block .labeledStatement (all [anyName, mark ":",
        stm .statement]))]
    (.node .expressionStatement (.seq (exp .expressions) (stm .endAfterOperand)))

/-- Statements up to a closing brace or a further case. -/
def caseBody : R :=
  .many (.seq (.absent (any [word "case", word "default"])) (stm .statement))

def classMemberRule (d : Dialect) : R :=
  let end_ : R := any ([stm .endOfDeclaration] ++ if d.typed then [mark ","] else [])
  let decorators : R := .many (stm .decorator)
  let fieldWords : R :=
    if d.typed then
      .many (any (["declare", "public", "private", "protected", "static", "override", "readonly",
        "abstract", "accessor"].map (modifier true)))
    else opt (modifier false "static")
  let field : R :=
    .node .fieldDefinition (all [decorators, fieldWords, .role .property (exp .propertyName),
      typedOnly d.typed (any [mark "?", mark "!"]), typedOnly d.typed (typ .ascription),
      opt (.seq (mark "=") (.role .value (exp .expression)))])
  let defined : R := .seq (exp .methodHead) (exp .methodTail)
  let method : R :=
    if d.typed then .seq decorators (.node .methodDefinition defined)
    else .node .methodDefinition (.seq decorators defined)
  let typedCases : List (R × R) :=
    if d.typed then
      [(.seq decorators (typ .indexSignature), all [decorators, typ .indexSignature, end_]),
        (all [decorators, exp .methodHead, exp .signature, .absent (openBrace)],
          all [decorators, .node .methodSignature (.seq (exp .methodHead) (exp .signature)), end_])]
    else []
  cases
    ([(mark ";", mark ";"),
      (.seq (word "static") (openBrace), .node .staticBlock (.seq (word "static") (stm .block)))] ++
      typedCases ++
      [(.seq decorators (exp .methodHead), .seq method (opt (mark ";")))])
    (.seq field end_)

def heritageRule (d : Dialect) : R :=
  if d.typed then
    .seq
      (opt (.node .classHeritage (.seq (word "extends")
        (commaList (.seq (.role .value (exp .trailed)) (opt (typ .arguments)))))))
      (opt (.seq (word "implements") (commaList (typ .type))))
  else opt (.node .classHeritage (.seq (word "extends") (.role .value (exp .expression))))

def statementRule (d : Dialect) : StatementPart → R
  | .program =>
    .node .program (.seq (opt (.token .hashBang))
      (.many (any [.token .markupComment, stm .statement])))
  | .statement => statementChoice d
  | .block => .node .statementBlock (braces (.many (stm .statement)))
  | .braced =>
    let objectStatement : R :=
      .node .expressionStatement (.seq (exp .expressions) (stm .endAfterOperand))
    let keyed : R := .seq (any [.token .quoted, .token .number,
      list "[" (exp .expression) "]"]) (mark ":")
    cases
      [(all [openBrace, anyName, mark ":"], any [objectStatement, stm .block]),
        (.seq (openBrace) (any [keyed, mark "..."]), objectStatement)]
      (any [stm .block, .seq (ahead (.seq (openBrace) (exp .methodHead))) objectStatement])
  | .parenthesized =>
    .node .parenthesized (list "("
      (.seq (exp .expressions) (typedOnly d.typed (typ .ascription))) ")")
  | .declarator =>
    .node .variableDeclarator (all [.role .name (stm .bindingTarget),
      typedOnly d.typed (.seq (opt (mark "!")) (typ .ascription)),
      opt (.seq (mark "=") (.role .value (exp .expression)))])
  | .bindingTarget =>
    cases [(openBrace, exp .objectPattern), (mark "[", exp .arrayPattern)] (nameAs .identifier)
  | .forHead =>
    let kinds : R := any [word "var", word "let", word "const"]
    all [opt (word "await"), mark "(",
      cases [(.seq kinds (.seq (stm .bindingTarget) (any [word "in", word "of"])),
          .seq kinds (stm .bindingTarget))]
        (any [exp .pattern, stm .parenthesized]),
      any [word "in", word "of"]]
  | .switchCase =>
    any
      [.node .switchCase (all [word "case", exp .expressions, mark ":", caseBody]),
        .node .switchCase (all [word "default", mark ":", caseBody])]
  | .importing => importingRule d
  | .importClause =>
    let namespaceImport : R :=
      .node .namespaceImport (all [mark "*", word "as", nameAs .identifier])
    let namedImports : R :=
      .node .namedImports (braces (optionalList (stm .importName)))
    .node .importClause (any [namespaceImport, namedImports,
      .seq (nameAs .identifier) (opt (.seq (mark ",") (any [namespaceImport, namedImports])))])
  | .importName =>
    let specifier : R :=
      cases [(.seq (any [anyName, .token .quoted]) (word "as"),
          all [.role .name (any [nameAs .identifier, stringLiteral]), word "as",
            .role .alias (nameAs .identifier)])]
        (.role .name (nameAs .identifier))
    .node .importSpecifier
      (if d.typed then
        cases [(.seq (any [word "type", word "typeof"]) (.token (.name ["as"])),
            .seq (any [word "type", word "typeof"]) specifier)] specifier
      else specifier)
  | .exporting => exportingRule d
  | .declaration => declarationRule d
  | .function => functionRule d
  | .classTail =>
    all [typedOnly d.typed (typ .parameters), stm .heritage, stm .classBody]
  | .classBody => .node .classBody (braces (.many (stm .classMember)))
  | .classMember => classMemberRule d
  | .heritage => heritageRule d
  | .decorator =>
    .node .decorator (.seq (mark "@") (any
      ((if d.typed then [stm .parenthesized] else []) ++ [stm .decoratorCall])))
  | .decoratorCall =>
    .chain (.chain (nameAs .identifier) [(.member, .object, [], .statement .decoratorName)])
      [(.call, .callee, [.identifier, .member], .statement .decoratorArguments)]
  | .decoratorName => .seq (mark ".") (.role .property (nameAs .propertyIdentifier))
  | .decoratorArguments =>
    .seq (typedOnly d.typed (typ .arguments)) (.role .arguments (exp .arguments))
  | .endAfterOperand => any [mark ";", .omitted d.typed true]
  | .endAfterWord => any [mark ";", .omitted d.typed false]
  | .endOfDeclaration => any [mark ";", .omitted d.typed true, .omitted d.typed false]

end Grammar
end Source
end EndpointPayload
