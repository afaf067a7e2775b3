/-!
# Texts in order

Texts are compared character by character.  `Text.sorted` lists every text once, in order.
-/

namespace EndpointPayload
namespace Text

/-- The texts in order, each of them once. -/
def sorted (texts : List String) : List String :=
  texts.eraseDups.mergeSort fun a b => decide (a ≤ b)

end Text
end EndpointPayload
