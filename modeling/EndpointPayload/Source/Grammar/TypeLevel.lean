import EndpointPayload.Source.Grammar.Part
import EndpointPayload.Source.Grammar.Expression

/-!
# The grammar of types and of declarations that only types have
-/

namespace EndpointPayload
namespace Source
namespace Grammar

open Rule (all any cases opt ahead commaList trailingList)

/-- Words that name a type of the language. -/
def predefinedTypes : List String :=
  ["any", "number", "boolean", "string", "symbol", "void", "unknown", "never", "object"]

def thisOrName : R := any [.leaf .this (.word "this"), nameAs .identifier]

/-- A name with the names of the modules it lies in. -/
def qualifiedTypeName : R :=
  .seq (.many (.seq (.seq (ahead (.seq anyName (mark "."))) (nameAs .identifier)) (mark ".")))
    (nameAs .typeName)

/-- No semicolon may be left out here, between two parts of a type. -/
def typeGoesOn : R := .absent (.omitted true false)

def typePrimary : R :=
  cases
    [(mark "(", list "(" (typ .type) ")"),
      (openBrace, typ .objectBody),
      (mark "[", list "[" (opt (trailingList (typ .tupleItem))) "]"),
      (.token .quoted, stringLiteral),
      (exact "\x60",
        .node .typeTemplate (all [exact "\x60",
          .many (any [.token .templateChunk, all [exact "$\x7b", typ .type, closeBrace]]),
          exact "\x60"])),
      (.seq (opt (any [mark "-", mark "+"])) (.token .number),
        .seq (opt (any [mark "-", mark "+"])) (.leaf .number .number)),
      (any (["true", "false", "null", "undefined"].map word), .leaf .constant (.name [])),
      (word "this", .leaf .this (.word "this")),
      (mark "*", mark "*"),
      (word "typeof", typ .query),
      (any (predefinedTypes.map word), .leaf .typeName (.name [])),
      (word "const", word "const")]
    (.seq qualifiedTypeName (opt (typ .arguments)))

def typeLeading : R :=
  let construct : R := .seq (opt (word "abstract")) (word "new")
  cases
    [(all [opt (typ .parameters), exp .parameters, mark "=>"], typ .functionType),
      (.seq construct (any [mark "(", mark "<"]),
        all [construct, opt (typ .parameters), exp .parameters, mark "=>", typ .type]),
      (.seq (word "keyof") (ahead (any [anyName, mark "(", mark "[", openBrace, .token .quoted])),
        .seq (word "keyof") (typ .leading)),
      (.seq (word "readonly") (ahead (any [anyName, mark "(", mark "[", openBrace])),
        .seq (word "readonly") (typ .leading)),
      (.seq (word "unique") (word "symbol"), .seq (word "unique") (word "symbol")),
      (.seq (word "infer") anyName,
        all [word "infer", nameAs .typeName,
          opt (all [word "extends", typ .union, .absent (mark "?")])]),
      (mark "?", .seq (mark "?") (typ .leading)),
      (.seq (word "import") (any [mark "(", mark "."]),
        .chain (.leaf .importKeyword (.word "import"))
          [(.call, .callee, [.importKeyword, .member], .type .queryArguments),
            (.member, .object, [], .type .queryTail)])]
    (typ .indexed)

def typeDeclaration (d : Dialect) : R :=
  cases
    [(.seq (opt (word "const")) (word "enum"),
        .node .enumDeclaration (all [opt (word "const"), word "enum", nameAs .identifier,
          typ .enumBody])),
      (word "interface",
        .node .typeDeclaration (all [word "interface", nameAs .typeName, opt (typ .parameters),
          opt (.seq (word "extends") (commaList (.seq qualifiedTypeName (opt (typ .arguments))))),
          typ .objectBody])),
      (word "type",
        .node .typeDeclaration (all [word "type", nameAs .typeName, opt (typ .parameters),
          mark "=", typ .type, stm .endAfterWord])),
      (any [word "namespace", word "module"],
        .node .namespaceDeclaration (all [any [word "namespace", word "module"], typ .moduleName,
          opt (stm .block), opt (.omitted d.typed false)]))]
    (.node .ambientDeclaration (all [word "declare",
      cases
        [(.seq (word "global") (openBrace), .seq (word "global") (stm .block)),
          (.seq (word "module") (mark "."),
            all [word "module", mark ".", nameAs .propertyIdentifier, mark ":", typ .type,
              stm .endAfterWord])]
        (stm .declaration)]))

def typeRule (d : Dialect) : TypePart → R
  | .type => .node .typeExpression (typ .conditional)
  | .functionType =>
    all [opt (typ .parameters), exp .parameters, mark "=>", any [typ .predicate, typ .type]]
  | .conditional =>
    .seq (typ .union)
      (opt (all [typeGoesOn, word "extends", typ .union, mark "?", typ .type, mark ":",
        typ .type]))
  | .union =>
    all [opt (mark "|"), typ .intersection, .many (.seq (mark "|") (typ .intersection))]
  | .intersection =>
    all [opt (mark "&"), typ .leading, .many (.seq (mark "&") (typ .leading))]
  | .leading => typeLeading
  | .indexed =>
    .seq (typ .primary) (.many (all [typeGoesOn, mark "[", opt (typ .type), mark "]"]))
  | .primary => typePrimary
  | .arguments => all [mark "<", trailingList (typ .type), exact ">"]
  | .parameters =>
    .node .typeParameters (all [mark "<",
      trailingList (all [opt (.seq (word "const") (ahead anyName)), nameAs .typeName,
        opt (.seq (any [word "extends", mark ":"]) (typ .type)),
        opt (.seq (mark "=") (typ .type))]),
      exact ">"])
  | .ascription => .seq (mark ":") (typ .type)
  | .returned => .seq (mark ":") (any [typ .predicate, typ .type])
  | .predicate =>
    let claim : R := all [thisOrName, word "is", typ .type]
    any [all [word "asserts", typeGoesOn, any [claim, thisOrName]], claim]
  | .objectBody =>
    .node .objectType (all [openBrace, opt (any [mark ",", mark ";"]),
      .many (.seq (typ .objectMember)
        (any [mark ",", mark ";", .omitted true false, ahead (closeBrace)])),
      closeBrace])
  | .objectMember =>
    let construct : R := .seq (opt (word "abstract")) (word "new")
    let words : R :=
      .many (any (["public", "private", "protected", "static", "override", "readonly"].map
        (modifier true)))
    cases
      [(typ .indexSignature, typ .indexSignature),
        (any [mark "(", mark "<"], exp .signature),
        (.seq construct (any [mark "(", mark "<"]), .seq construct (exp .signature)),
        (exp .methodHead, .node .methodSignature (.seq (exp .methodHead) (exp .signature)))]
      (.node .fieldDefinition (all [words, .role .property (exp .propertyName), opt (mark "?"),
        opt (typ .ascription)]))
  | .indexSignature =>
    all [opt (.seq (opt (any [mark "-", mark "+"])) (word "readonly")), mark "[",
      cases [(.seq anyName (word "in"),
          all [nameAs .typeName, word "in", typ .type, opt (.seq (word "as") (typ .type))])]
        (all [nameAs .identifier, mark ":", typ .type]),
      mark "]", opt (.seq (opt (any [mark "-", mark "+"])) (mark "?")), typ .ascription]
  | .tupleItem =>
    let named : R := all [nameAs .identifier, opt (mark "?"), mark ":", typ .type]
    cases
      [(mark "...", .seq (mark "...") (cases [(.seq anyName (mark ":"), named)] (typ .type))),
        (all [anyName, opt (mark "?"), mark ":"], named)]
      (.seq (typ .type) (opt (mark "?")))
  | .query =>
    all [word "typeof",
      .chain
        (.chain
          (cases [(.seq (word "import") (mark "("), .leaf .importKeyword (.word "import"))]
            thisOrName)
          [(.call, .callee, [.importKeyword], .type .queryArguments)])
        [(.member, .object, [], .type .queryTail), (.subscript, .object, [], .type .queryIndex)],
      opt (typ .arguments)]
  | .queryTail => .seq (any [mark ".", mark "?."])
      (.role .property (any [nameAs .propertyIdentifier, .leaf .privateIdentifier .privateName]))
  | .queryArguments => .role .arguments (exp .arguments)
  | .queryIndex =>
    .seq typeGoesOn (list "[" (.role .index (any [stringLiteral, .leaf .number .number,
      any (predefinedTypes.map word)])) "]")
  | .declaration => typeDeclaration d
  | .enumBody =>
    braces (opt (trailingList (.seq (exp .propertyName)
      (opt (.seq (mark "=") (exp .expression))))))
  | .moduleName =>
    any [stringLiteral,
      .seq (nameAs .identifier) (.many (.seq (mark ".") (nameAs .propertyIdentifier)))]

end Grammar
end Source
end EndpointPayload
