/-!
# Confidence in a field

A field starts with an even chance.  What a sample and a model say about it is added up, and the sum
is kept between a tenth and one.
-/

namespace EndpointPayload

/-- What is known about a field. -/
structure Evidence where
  /-- Frequency in per cent and whether the field is required, from a sample. -/
  sample : Option (Float × Bool)
  /-- Whether the field is required, from a model. -/
  model : Option Bool
  hasRealValues : Bool
  typesDiffer : Bool

namespace Score

def least : Float := 0.1

def greatest : Float := 1.0

/-- What real values add. -/
def realValuesBonus : Float := 0.2

/-- A float moved into the range of scores. -/
def clamp (x : Float) : Float := if x < least then least else if greatest < x then greatest else x

def ofSample (score : Float) (sample : Option (Float × Bool)) : Float :=
  match sample with
  | none => score
  | some (frequency, isRequired) =>
    let score := score + 0.3
    let score := if 80.0 < frequency then score + 0.1 else score
    if isRequired then score + 0.1 else score

def ofModel (score : Float) (model : Option Bool) : Float :=
  match model with
  | none => score
  | some isRequired =>
    let score := score + 0.2
    if isRequired then score + 0.1 else score

/-- The confidence that some evidence gives. -/
def ofEvidence (e : Evidence) : Float :=
  let score := ofModel (ofSample 0.5 e.sample) e.model
  let score := if e.hasRealValues then score + realValuesBonus else score
  let score :=
    if e.typesDiffer && e.sample.isSome && e.model.isSome then score - 0.1 else score
  clamp score

end Score
end EndpointPayload
