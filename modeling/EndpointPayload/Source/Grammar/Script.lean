import EndpointPayload.Source.Grammar.Statement
import EndpointPayload.Source.Grammar.TypeLevel
import EndpointPayload.Source.Grammar.Markup

/-!
# The grammar of scripts

`Grammar.script` gives every named part its rule in a dialect, and `Tree.ofText` reads a text by it.
-/

namespace EndpointPayload
namespace Source

/-- The rule of every part in a dialect. -/
def Grammar.script (d : Dialect) : Part → Rule Part
  | .statement p => Grammar.statementRule d p
  | .expression p => Grammar.expressionRule d p
  | .type p => Grammar.typeRule d p
  | .markup p => Grammar.markupRule d p

/-- The tree of a script, or the line where it goes wrong. -/
def Tree.ofText (d : Dialect) (text : String) : Except Nat Tree :=
  Rule.readAll (Grammar.script d) (.statement .program) text.toList

end Source
end EndpointPayload
