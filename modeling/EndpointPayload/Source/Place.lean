/-!
# Places in a script text

A place is the text still unread together with the line it starts on and the number of characters
read before it.  The text between two places is cut from the first by the difference of the counts.
-/

namespace EndpointPayload
namespace Source

/-- What is still unread, the line of its first character, and the count of characters read. -/
structure Place where
  rest : List Char
  line : Nat
  offset : Nat

namespace Place

/-- The start of a text. -/
def start (text : List Char) : Place := ⟨text, 1, 0⟩

/-- The place `n` characters on; a line feed starts a line. -/
def advance : Nat → Place → Place
  | 0, p => p
  | n + 1, ⟨c :: r, line, offset⟩ =>
    advance n ⟨r, if c = '\n' then line + 1 else line, offset + 1⟩
  | _ + 1, ⟨[], line, offset⟩ => ⟨[], line, offset⟩

/-- The text from one place to a later one. -/
def textTo (p q : Place) : String :=
  String.ofList (p.rest.take (q.offset - p.offset))

end Place

end Source
end EndpointPayload
