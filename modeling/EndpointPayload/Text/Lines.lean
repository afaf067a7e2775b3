/-!
# Lines of a text

A line feed ends a line, together with a carriage return right before it.  Nothing after the last
line feed is no line.
-/

namespace EndpointPayload
namespace Text

/-- The lines of a text; the characters of the current line so far come in reverse. -/
def linesFrom (acc : List Char) : List Char → List String
  | [] => if acc.isEmpty then [] else [String.ofList acc.reverse]
  | c :: r =>
    if c = '\n' then
      let line :=
        match acc with
        | '\r' :: before => before
        | _ => acc
      String.ofList line.reverse :: linesFrom [] r
    else linesFrom (c :: acc) r

def lines (s : String) : List String := linesFrom [] s.toList

/-- The lines numbered `first` to `last`, counted from one, joined by line feeds; at least one line
is taken where there is one. -/
def lineRange (s : String) (first last : Nat) : String :=
  "\n".intercalate (((lines s).drop (first - 1)).take (last - first + 1))

end Text
end EndpointPayload
