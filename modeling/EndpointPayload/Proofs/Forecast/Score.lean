import EndpointPayload.Forecast.Score
import EndpointPayload.Proofs.Decimal.Order
import Mathlib.Tactic

/-!
# The range of scores

Every confidence of a forecast is a number between a tenth and one.  Clamping reaches the range from
every number.  What is clamped is a sum of constants that a few yes-or-no facts select, the
frequency of a sample among them only through whether it is above 80 per cent, so that it is a
number is checked for each choice.
-/

namespace EndpointPayload
namespace Score

/-- A float in the range of scores. -/
structure InRange (x : Float) : Prop where
  isNaN_eq : x.isNaN = false
  least_le : least ≤ x
  le_greatest : x ≤ greatest

instance (x : Float) : Decidable (InRange x) :=
  decidable_of_iff (x.isNaN = false ∧ least ≤ x ∧ x ≤ greatest)
    ⟨fun ⟨h, hl, hg⟩ => ⟨h, hl, hg⟩, fun ⟨h, hl, hg⟩ => ⟨h, hl, hg⟩⟩

theorem inRange_least : InRange least := by decide

theorem inRange_greatest : InRange greatest := by decide

/-- Clamping brings every number into the range. -/
theorem inRange_clamp {x : Float} (hx : x.isNaN = false) : InRange (clamp x) := by
  unfold clamp
  split
  · exact inRange_least
  · rename_i hleast
    split
    · exact inRange_greatest
    · rename_i hgreatest
      have hl : least ≤ x := Decimal.le_of_not_lt hx inRange_least.isNaN_eq hleast
      have hg : x ≤ greatest := Decimal.le_of_not_lt inRange_greatest.isNaN_eq hx hgreatest
      exact ⟨hx, hl, hg⟩

/-- A frequency above 80 per cent, or one below. -/
def coarse (isFrequent : Bool) : Float := if isFrequent then 100.0 else 0.0

theorem lt_coarse_iff (isFrequent : Bool) : 80.0 < coarse isFrequent ↔ isFrequent = true := by
  cases isFrequent <;> decide

/-- Of the frequency only the side of 80 per cent matters. -/
theorem ofEvidence_coarse (e : Evidence) :
    ∃ sample : Option (Bool × Bool),
      ofEvidence e = ofEvidence { e with sample := sample.map fun s => (coarse s.1, s.2) } := by
  obtain ⟨sample, model, hasRealValues, typesDiffer⟩ := e
  cases sample with
  | none => exact ⟨none, rfl⟩
  | some s =>
      refine ⟨some (decide (80.0 < s.1), s.2), ?_⟩
      have hside : (80.0 < coarse (decide (80.0 < s.1))) ↔ 80.0 < s.1 := by
        rw [lt_coarse_iff, decide_eq_true_eq]
      simp only [ofEvidence, ofSample, Option.map_some, hside]
      rfl

/-- The scores of coarse evidence, alone and with the bonus for real values. -/
theorem inRange_coarse :
    ∀ (sample : Option (Bool × Bool)) (model : Option Bool) (hasRealValues typesDiffer : Bool),
      let score := ofEvidence
        ⟨sample.map fun s => (coarse s.1, s.2), model, hasRealValues, typesDiffer⟩
      InRange score ∧ (score + realValuesBonus).isNaN = false := by
  decide +kernel

theorem inRange_ofEvidence (e : Evidence) : InRange (ofEvidence e) := by
  obtain ⟨sample, hsample⟩ := ofEvidence_coarse e
  rw [hsample]
  exact (inRange_coarse sample e.model e.hasRealValues e.typesDiffer).1

/-- A score that evidence gives stays in the range when real values are found later. -/
theorem inRange_ofEvidence_bonus (e : Evidence) :
    InRange (clamp (ofEvidence e + realValuesBonus)) := by
  obtain ⟨sample, hsample⟩ := ofEvidence_coarse e
  rw [hsample]
  exact inRange_clamp (inRange_coarse sample e.model e.hasRealValues e.typesDiffer).2

end Score
end EndpointPayload
