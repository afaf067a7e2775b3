/-!
# Pieces of a text

`Text.split` cuts a text at every occurrence of a character; a text with `n` of them has `n + 1`
pieces.  `Text.occursIn` looks for one text inside another.
-/

namespace EndpointPayload
namespace Text

/-- The pieces between the separators. -/
def splitChars (separator : Char) : List Char → List (List Char)
  | [] => [[]]
  | c :: r =>
    if c = separator then [] :: splitChars separator r
    else
      match splitChars separator r with
      | [] => [[c]]
      | p :: ps => (c :: p) :: ps

/-- The pieces between the separators. -/
def split (separator : Char) (s : String) : List String :=
  (splitChars separator s.toList).map String.ofList

theorem splitChars_ne_nil (separator : Char) (cs : List Char) : splitChars separator cs ≠ [] := by
  cases cs with
  | nil => simp [splitChars]
  | cons c r =>
      simp only [splitChars]
      split
      · simp
      · split <;> simp

/-- A text with `n` separators has `n + 1` pieces. -/
theorem length_splitChars (separator : Char) (cs : List Char) :
    (splitChars separator cs).length = cs.count separator + 1 := by
  induction cs with
  | nil => rfl
  | cons c r ih =>
      by_cases h : c = separator
      · simp [splitChars, h, ih]
      · have hr := splitChars_ne_nil separator r
        simp only [splitChars, h, if_false]
        cases hs : splitChars separator r with
        | nil => exact absurd hs hr
        | cons p ps =>
            rw [hs] at ih
            simpa [List.count_cons, h] using ih

/-- Whether the characters of one text stand in a row in another. -/
def charsOccurIn (part : List Char) : List Char → Bool
  | [] => part.isEmpty
  | c :: r => part.isPrefixOf (c :: r) || charsOccurIn part r

def occursIn (part s : String) : Bool := charsOccurIn part.toList s.toList

/-- The text with its ASCII letters in lower case. -/
def lower (s : String) : String := s.map Char.toLower

end Text
end EndpointPayload
