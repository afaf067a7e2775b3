import EndpointPayload.Decimal.Order
import EndpointPayload.Json.Basic

/-!
# Guesses of a collection name

A guess is a name with a confidence between zero and one, a reason, and other names that it may be.
-/

namespace EndpointPayload

/-- A scored guess of the collection that a route works on. -/
structure Guess where
  name : String
  confidence : Float
  reason : String
  alternatives : List String

namespace Guess

/-- A float moved into the range from zero to one. -/
def clamp (x : Float) : Float := if x < 0.0 then 0.0 else if 1.0 < x then 1.0 else x

def make (name : String) (confidence : Float) (reason : String) : Guess :=
  ⟨name, clamp confidence, reason, []⟩

/-- Adds other names, each once. -/
def withAlternatives (g : Guess) (names : List String) : Guess :=
  { g with alternatives := names.foldl (fun kept n =>
      if n = g.name || kept.contains n then kept else kept ++ [n]) g.alternatives }

/-- The name, then the alternatives. -/
def names (g : Guess) : List String := g.name :: g.alternatives

/-- Guesses by falling confidence; equal ones stay in order. -/
def ranked (gs : List Guess) : List Guess :=
  gs.mergeSort fun a b => Decimal.descending a.confidence b.confidence

/-- The first guess of each name. -/
def firstOfEachName (gs : List Guess) : List Guess :=
  gs.foldl (fun kept g => if kept.any fun k => k.name = g.name then kept else kept ++ [g]) []

/-- How many alternatives a guess may keep. -/
def maxAlternatives : Nat := 5

def unknown : Guess := make "unknown" 0.0 "no naming strategy matched"

/-- The first guess, with the names of all the others as alternatives. -/
def combine : List Guess → Guess
  | [] => unknown
  | first :: rest =>
    let all := { first with alternatives := [] }.withAlternatives
      (first.alternatives ++ rest.flatMap names)
    { all with alternatives := all.alternatives.take maxAlternatives }

def json (g : Guess) : Json :=
  .obj [
    ("collectionName", .str g.name),
    ("confidence", .float g.confidence),
    ("reasoning", .str g.reason),
    ("alternativeNames", .arr (g.alternatives.map .str))]

end Guess
end EndpointPayload
