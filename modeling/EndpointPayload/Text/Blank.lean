/-!
# White space

The characters with the property White_Space.  The byte order mark is not one of them.
-/

namespace EndpointPayload
namespace Text

/-- First and last code points of the ranges of white space. -/
def blankRanges : List (Nat × Nat) := [
  (0x9, 0xd), (0x20, 0x20), (0x85, 0x85), (0xa0, 0xa0), (0x1680, 0x1680), (0x2000, 0x200a),
  (0x2028, 0x2029), (0x202f, 0x202f), (0x205f, 0x205f), (0x3000, 0x3000)]

def isBlank (c : Char) : Bool := blankRanges.any fun r => r.1 ≤ c.toNat && c.toNat ≤ r.2

def trimStart (cs : List Char) : List Char := cs.dropWhile isBlank

def trimEnd (cs : List Char) : List Char := (trimStart cs.reverse).reverse

/-- The text without white space at both ends. -/
def trim (s : String) : String := String.ofList (trimEnd (trimStart s.toList))

end Text
end EndpointPayload
