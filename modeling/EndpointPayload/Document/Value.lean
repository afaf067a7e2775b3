import EndpointPayload.Json.Writer
import EndpointPayload.Text.Split

/-!
# Values of stored documents

A document is an object.  An object whose only key starts with a dollar sign wraps a value that JSON
has no form for, such as an object id or a date; it counts as one value and not as an object with
parts.
-/

namespace EndpointPayload

/-- A stored document: keys and values in their order. -/
abbrev Document := List (String × Json)

namespace Json

/-- The key of a wrapper. -/
def tagOf? (fields : List (String × Json)) : Option String :=
  match fields with
  | [(k, _)] => if k.startsWith "$" then some k else none
  | _ => none

def tag? : Json → Option String
  | obj fields => tagOf? fields
  | _ => none

/-- The label of a value's type. -/
def typeName (v : Json) : String :=
  match v with
  | null => "null"
  | bool _ => "boolean"
  | int _ | float _ => "number"
  | str _ => "string"
  | arr _ => "array"
  | obj fields =>
    match tagOf? fields with
    | some "$oid" => "ObjectId"
    | some "$date" => "Date"
    | some "$numberDecimal" | some "$numberLong" => "number"
    | _ => "object"

/-- Whether a value has no parts: anything but an array or an object that is no wrapper. -/
def isLeaf : Json → Bool
  | obj fields => (tagOf? fields).isSome
  | arr _ => false
  | _ => true

def isHexDigit (c : Char) : Bool :=
  c.isDigit || ('a' ≤ c && c ≤ 'f') || ('A' ≤ c && c ≤ 'F')

/-- 24 hexadecimal digits. -/
def isObjectId (s : String) : Bool := s.toList.length = 24 && s.toList.all isHexDigit

/-- The digits of an object id, wrapped or written as a text. -/
def objectId? : Json → Option String
  | str s => if isObjectId s then some s else none
  | obj fields =>
    match lookup "$oid" fields with
    | some (str s) => if isObjectId s then some s else none
    | _ => none
  | _ => none

/-- The wrapper of an object id. -/
def ofObjectId (digits : String) : Json := obj [("$oid", str digits)]

/-- The text of a value as a person reads it: texts and wrapped texts without quotes. -/
def display (v : Json) : String :=
  match v with
  | str s => s
  | obj [(k, inner)] =>
    if k.startsWith "$" then
      match inner with
      | str s => s
      | _ => text inner
    else text v
  | _ => text v

/-- The value as a float, if it is a number. -/
def number? : Json → Option Float
  | int n => some (Float.ofInt n)
  | float x => some x
  | _ => none

/-- Adds a value at the end unless it is there. -/
def pushNew (kept : List Json) (v : Json) : List Json :=
  if kept.contains v then kept else kept ++ [v]

/-- Adds each new value that is not null, and stops when there are enough. -/
def pushUpTo (limit : Nat) (kept : List Json) : List Json → List Json
  | [] => kept
  | v :: vs =>
    if limit ≤ kept.length then kept
    else pushUpTo limit (if v.isNull then kept else pushNew kept v) vs

end Json

namespace Document

/-- Follows keys into nested objects. -/
def follow? : Json → List String → Option Json
  | v, [] => some v
  | v, k :: ks =>
    match v.get? k with
    | some w => follow? w ks
    | none => none

/-- The value at a path of keys with points between them. -/
def at? (d : Document) (path : String) : Option Json :=
  follow? (.obj d) (Text.split '.' path)

/-- The values that a document shows at a path, arrays standing for their items. -/
def shownAt (path : String) (d : Document) : List Json :=
  match d.at? path with
  | some (.arr items) => items
  | some v => [v]
  | none => []

end Document
end EndpointPayload
