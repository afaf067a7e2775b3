import EndpointPayload.Decimal.Shortest

/-!
# Whole numbers near a float

A float rounded to a whole number; half-way cases go to the even neighbour.
-/

namespace EndpointPayload
namespace Decimal

/-- A quotient rounded to the nearest whole number, a half to the even one. -/
def roundQuotient (n d : Nat) : Nat :=
  let q := n / d
  let r := n % d
  if 2 * r < d then q
  else if d < 2 * r then q + 1
  else if q % 2 = 0 then q
  else q + 1

/-- The whole number nearest to a positive binary number. -/
def Binary.rounded (b : Binary) : Nat :=
  roundQuotient (b.mantissa * Nat.pow 2 b.exponent.toNat) (Nat.pow 2 (-b.exponent).toNat)

/-- The text of the whole number nearest to a finite float that is not negative. -/
def wholeText (x : Float) : String := toString (Binary.ofFloat x).rounded

end Decimal
end EndpointPayload
