import EndpointPayload.Document.Value
import EndpointPayload.Text.Blank

/-!
# Documents for people

The id, a name and a short preview of a document.
-/

namespace EndpointPayload
namespace Document

/-- The key of a document's id. -/
def idKey : String := "_id"

/-- The id as text; nothing if there is none. -/
def idText (d : Document) : String :=
  match Json.lookup idKey d with
  | some v => (v.objectId?).getD v.display
  | none => ""

/-- Keys that usually hold a name, the best first. -/
def nameKeys : List String :=
  ["name", "title", "displayName", "fullName", "username", "email", "label", "slug", "code"]

/-- A text under a key, unless it is blank. -/
def nameAt? (d : Document) (key : String) : Option String :=
  match Json.lookup key d with
  | some (.str s) => if Text.trim s = "" then none else some s
  | _ => none

/-- A name of the document: the first text that usually is one, the first and last name, or the id.
-/
def displayName (d : Document) : String :=
  match nameKeys.findSome? (nameAt? d) with
  | some s => s
  | none =>
    match Json.lookup "firstName" d, Json.lookup "lastName" d with
    | some (.str first), some (.str last) => first ++ " " ++ last
    | _, _ => idText d

/-- The first characters of a text, with three points if there are more. -/
def truncate (s : String) (n : Nat) : String :=
  if s.toList.length ≤ n then s else String.ofList (s.toList.take n) ++ "..."

/-- How many fields a preview shows, and how many characters of each. -/
def previewFields : Nat := 3

def previewLength : Nat := 30

/-- The first fields but the id and those for internal use. -/
def summary (d : Document) : String :=
  let shown := (d.filter fun f => f.1 ≠ idKey && !f.1.startsWith "__").take previewFields
  ", ".intercalate (shown.map fun f => f.1 ++ ": " ++ truncate f.2.display previewLength)

/-- A document as a sample. -/
def sampleJson (d : Document) : Json :=
  .obj [
    ("_id", .str (idText d)),
    ("data", .obj d),
    ("displayName", .str (displayName d)),
    ("summary", .str (summary d))]

end Document
end EndpointPayload
