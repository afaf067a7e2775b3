/-!
# The total order of floats

`Decimal.rank` puts all floats in a row: negative before positive, minus zero before zero.  Equal
ranks mean equal bits, so sorting by rank never has to ask what a comparison with no answer would
say.
-/

namespace EndpointPayload
namespace Decimal

/-- The place of a float in the total order. -/
def rank (x : Float) : Int :=
  let bits := x.toBits.toNat
  if bits < Nat.pow 2 63 then bits else 9223372036854775807 - (bits : Int)

/-- Whether a float comes no later than another in falling order. -/
def descending (a b : Float) : Bool := decide (rank b ≤ rank a)

theorem descending_total (a b : Float) : descending a b || descending b a := by
  simp only [descending, Bool.or_eq_true, decide_eq_true_eq]
  omega

theorem descending_trans {a b c : Float} (hab : descending a b = true)
    (hbc : descending b c = true) : descending a c = true := by
  simp only [descending, decide_eq_true_eq] at *
  omega

end Decimal
end EndpointPayload
