import EndpointPayload.Forecast.Field
import EndpointPayload.Proofs.Text.Repetitions
import EndpointPayload.Store.Memory
import Mathlib.Tactic

/-!
# Values that are kept once

Loops over documents add a value to a list unless it is there, and some of them stop when the list
is long enough.  After some values the list is what is left of these without repetitions, cut off at
the limit: a step keeps that, and stopping early does as well, since the values that come later
would be added behind the limit.
-/

namespace EndpointPayload

namespace Json

variable {limit : Nat} {v : Json}

/-- A value is added as erasing repetitions once more does it. -/
theorem pushNew_eraseDups (values : List Json) (v : Json) :
    pushNew values.eraseDups v = (values ++ [v]).eraseDups :=
  (eraseDups_concat values v).symm

theorem foldl_pushNew_eraseDups (values : List Json) :
    ∀ more : List Json, more.foldl pushNew values.eraseDups = (values ++ more).eraseDups := by
  intro more
  induction more generalizing values with
  | nil => rw [List.foldl_nil, List.append_nil]
  | cons v more ih => rw [List.foldl_cons, pushNew_eraseDups, ih, ← List.append_cons]

/-- The values that a loop with a limit keeps of some values. -/
def keptOf (limit : Nat) (values : List Json) : List Json :=
  (values.filter fun v => !v.isNull).eraseDups.take limit

/-- A list that is long enough keeps its values whatever comes after them. -/
theorem keptOf_append_of_le
    {values : List Json}
    (hfull : limit ≤ (keptOf limit values).length)
    (more : List Json) :
    keptOf limit (values ++ more) = keptOf limit values := by
  obtain ⟨added, hadded⟩ := eraseDups_prefix_append (values.filter fun v => !v.isNull)
    (more.filter fun v => !v.isNull)
  rw [keptOf, List.length_take] at hfull
  rw [keptOf, keptOf, List.filter_append, ← hadded, List.take_append_of_le_length (by omega)]

/-- Below the limit nothing has been cut off yet. -/
theorem pushNew_keptOf
    {values : List Json}
    (hroom : (keptOf limit values).length < limit)
    (hnull : v.isNull = false) :
    pushNew (keptOf limit values) v = keptOf limit (values ++ [v]) := by
  have hlength : (values.filter fun v => !v.isNull).eraseDups.length < limit := by
    rw [keptOf, List.length_take] at hroom
    omega
  have hfilter : (values ++ [v]).filter (fun v => !v.isNull) =
      (values.filter fun v => !v.isNull) ++ [v] := by
    simp [hnull]
  rw [keptOf, keptOf, List.take_of_length_le hlength.le, pushNew_eraseDups, hfilter,
    List.take_of_length_le]
  rw [eraseDups_concat]
  split
  · exact hlength.le
  · rw [List.length_append, List.length_singleton]
    exact hlength

theorem keptOf_concat_of_isNull (values : List Json) (hnull : v.isNull = true) :
    keptOf limit (values ++ [v]) = keptOf limit values := by
  simp [keptOf, hnull]

/-- The invariant of the loop: what is kept is what the values so far leave. -/
theorem pushUpTo_keptOf (values : List Json) :
    ∀ more : List Json,
      pushUpTo limit (keptOf limit values) more = keptOf limit (values ++ more) := by
  intro more
  induction more generalizing values with
  | nil => rw [pushUpTo, List.append_nil]
  | cons v more ih =>
      rw [pushUpTo]
      by_cases hfull : limit ≤ (keptOf limit values).length
      · rw [if_pos hfull, keptOf_append_of_le hfull]
      · rw [if_neg hfull, List.append_cons, ← ih (values ++ [v])]
        congr 1
        cases hnull : v.isNull with
        | true => rw [if_pos rfl, keptOf_concat_of_isNull values hnull]
        | false =>
            rw [if_neg Bool.false_ne_true, pushNew_keptOf (Nat.lt_of_not_le hfull) hnull]

theorem pushUpTo_nil (values : List Json) :
    pushUpTo limit [] values = (values.filter fun v => !v.isNull).eraseDups.take limit := by
  have hempty : keptOf limit [] = [] := by simp [keptOf]
  rw [← hempty, pushUpTo_keptOf, List.nil_append, keptOf]

end Json

/-- A query for different values gives what the documents show, without repetitions. -/
theorem MemoryStore.distinct_eq (docs : List Document) (field : String) :
    MemoryStore.distinct docs field = (docs.flatMap (Document.shownAt field)).eraseDups := by
  rw [MemoryStore.distinct, ← List.foldl_flatMap]
  exact Json.foldl_pushNew_eraseDups [] _

namespace ForecastField

/-- The real values are the first different ones that documents show, nulls left out. -/
theorem sampledValues_eq (docs : List Document) (name : String) :
    sampledValues docs name =
      ((docs.flatMap (Document.shownAt name)).filter fun v => !v.isNull).eraseDups.take
        maxRealValues :=
  Json.pushUpTo_nil _

theorem observedValues_eq (docs : List Document) (name : String) :
    observedValues docs name =
      ((docs.filterMap fun d => d.at? name).filter fun v => !v.isNull).eraseDups.take
        maxRealValues :=
  Json.pushUpTo_nil _

end ForecastField
end EndpointPayload
