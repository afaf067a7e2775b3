import EndpointPayload.Source.Grammar.Part
import EndpointPayload.Source.Dialect

/-!
# The grammar of markup

Elements stand where an operand may stand.  An element either closes itself or holds children up to
a closing tag, whose name is not compared with the opening one.
-/

namespace EndpointPayload
namespace Source
namespace Grammar

open Rule (all any cases opt)

def markupName : R := .leaf .identifier .markupName

def markupRule (d : Dialect) : MarkupPart → R
  | .element =>
    let opening : R :=
      opt (all [mrk .name, typedOnly d.typed (typ .arguments), .many (mrk .attribute)])
    let children : R :=
      all [exact ">", .many (mrk .child), exact "<", exact "/", opt (mrk .name), exact ">"]
    .node .element (all [exact "<", opening,
      cases [(.seq (exact "/") (exact ">"), .seq (exact "/") (exact ">"))] children])
  | .name =>
    cases [(all [.token .markupName, mark ":"], all [markupName, mark ":", markupName])]
      (.chain markupName [(.member, .object, [.identifier, .member], .markup .nameTail)])
  | .nameTail => .seq (mark ".") (.role .property (nameAs .propertyIdentifier))
  | .attribute =>
    let value : R :=
      any [.leaf .string .markupQuoted, mrk .embedded, mrk .element]
    cases [(openBrace, mrk .embedded)]
      (.node .attribute (all
        [cases [(all [.token .markupName, mark ":"], all [markupName, mark ":", markupName])]
            (.leaf .propertyIdentifier .markupName),
          opt (.seq (mark "=") value)]))
  | .child =>
    cases
      [(.token .markupText, .leaf .elementText .markupText),
        (.token .reference, .token .reference),
        (openBrace, mrk .embedded)]
      (.seq (.absent (.seq (exact "<") (exact "/"))) (mrk .element))
  | .embedded =>
    .node .embedded (braces (opt (any
      [.node .spread (.seq (mark "...") (exp .expression)), exp .expressions])))

end Grammar
end Source
end EndpointPayload
