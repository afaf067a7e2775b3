import EndpointPayload.Json.Reader

/-!
# Records

A record is written as an object with a field under each key, or as an array of its fields in their
order.  `record?` finds the texts of the fields and leaves their reading to the caller.  A value
that nobody reads only has to be well formed: its numbers may be too large, its escapes may be lone
surrogates, and it may nest without bound.
-/

namespace EndpointPayload
namespace Json

namespace Reader

/-- The text behind the rest of a string that nobody reads. -/
def skipString? : Nat → List Char → Option (List Char)
  | 0, _ => none
  | n + 1, cs =>
    match cs with
    | '"' :: r => some r
    | '\\' :: 'u' :: r => (hex4? r).bind fun found => skipString? n found.2
    | '\\' :: c :: r => if "\"\\/bfnrt".toList.contains c then skipString? n r else none
    | c :: r => if c.toNat < 0x20 then none else skipString? n r
    | [] => none

/-- The text behind one or more digits. -/
def skipDigits? (cs : List Char) : Option (List Char) :=
  let rest := cs.dropWhile Char.isDigit
  if rest.length = cs.length then none else some rest

/-- The text behind an exponent, if there is one. -/
def skipExponent? (cs : List Char) : Option (List Char) :=
  match cs with
  | c :: r =>
    if c = 'e' || c = 'E' then
      match r with
      | '+' :: t => skipDigits? t
      | '-' :: t => skipDigits? t
      | _ => skipDigits? r
    else some cs
  | [] => some []

/-- The text behind a number after its sign. -/
def skipNumber? (cs : List Char) : Option (List Char) :=
  let whole :=
    match cs with
    | '0' :: c :: r => if c.isDigit then none else some (c :: r)
    | _ => skipDigits? cs
  match whole with
  | none => none
  | some ('.' :: r) => (skipDigits? r).bind skipExponent?
  | some r => skipExponent? r

mutual

/-- The text behind a value. -/
def skip? : Nat → List Char → Option (List Char)
  | 0, _ => none
  | n + 1, cs =>
    match skipSpace cs with
    | 'n' :: 'u' :: 'l' :: 'l' :: r => some r
    | 't' :: 'r' :: 'u' :: 'e' :: r => some r
    | 'f' :: 'a' :: 'l' :: 's' :: 'e' :: r => some r
    | '"' :: r => skipString? (r.length + 1) r
    | '-' :: r => skipNumber? r
    | '[' :: r =>
      match skipSpace r with
      | ']' :: t => some t
      | t => skipItems? n t
    | '\x7b' :: r =>
      match skipSpace r with
      | '\x7d' :: t => some t
      | t => skipFields? n t
    | t => skipNumber? t

/-- The text behind an array, from an item on. -/
def skipItems? : Nat → List Char → Option (List Char)
  | 0, _ => none
  | n + 1, cs =>
    match (skip? n cs).map skipSpace with
    | some (',' :: r) => skipItems? n r
    | some (']' :: r) => some r
    | _ => none

/-- The text behind an object, from a key on. -/
def skipFields? : Nat → List Char → Option (List Char)
  | 0, _ => none
  | n + 1, cs =>
    match skipSpace cs with
    | '"' :: r =>
      match (skipString? (r.length + 1) r).map skipSpace with
      | some (':' :: r) =>
        match (skip? n r).map skipSpace with
        | some (',' :: r) => skipFields? n r
        | some ('\x7d' :: r) => some r
        | _ => none
      | _ => none
    | _ => none

end

/-- The text of the value at the front, and the text behind it. -/
def valueText? (cs : List Char) : Option (List Char × List Char) :=
  (skip? (2 * cs.length + 2) cs).map fun rest => (cs.take (cs.length - rest.length), rest)

/-- The texts of the items of an array, from an item on; nothing but blanks may follow the array. -/
def itemTexts? : Nat → List Char → Option (List (List Char))
  | 0, _ => none
  | n + 1, cs =>
    match valueText? cs with
    | none => none
    | some (item, rest) =>
      match skipSpace rest with
      | ',' :: r => (itemTexts? n r).map fun items => item :: items
      | ']' :: r => if (skipSpace r).isEmpty then some [item] else none
      | _ => none

/-- The keys of an object with the texts of their values, from a key on. -/
def fieldTexts? : Nat → List Char → Option (List (String × List Char))
  | 0, _ => none
  | n + 1, cs =>
    match skipSpace cs with
    | '"' :: r =>
      match string? (r.length + 1) [] r with
      | none => none
      | some (key, rest) =>
        match skipSpace rest with
        | ':' :: r =>
          match valueText? r with
          | none => none
          | some (v, rest) =>
            match skipSpace rest with
            | ',' :: r => (fieldTexts? n r).map fun fields => (key, v) :: fields
            | '\x7d' :: r => if (skipSpace r).isEmpty then some [(key, v)] else none
            | _ => none
        | _ => none
    | _ => none

end Reader

/-- The texts of the items of an array. -/
def array? (cs : List Char) : Option (List (List Char)) :=
  match Reader.skipSpace cs with
  | '[' :: r =>
    match Reader.skipSpace r with
    | ']' :: t => if (Reader.skipSpace t).isEmpty then some [] else none
    | t => Reader.itemTexts? (t.length + 1) t
  | _ => none

/-- The keys and texts of the values of an object. -/
def object? (cs : List Char) : Option (List (String × List Char)) :=
  match Reader.skipSpace cs with
  | '\x7b' :: r =>
    match Reader.skipSpace r with
    | '\x7d' :: t => if (Reader.skipSpace t).isEmpty then some [] else none
    | t => Reader.fieldTexts? (t.length + 1) t
  | _ => none

/-- The texts under a key. -/
def textsUnder (key : String) (fields : List (String × List Char)) : List (List Char) :=
  fields.filterMap fun f => if f.1 = key then some f.2 else none

/-- The texts of a record's fields, in the order of the keys.  A key may be missing, but no key of
the record may stand twice; an array may be too short, but not too long. -/
def record? (keys : List String) (cs : List Char) : Option (List (Option (List Char))) :=
  match object? cs with
  | some fields =>
    if keys.any fun k => 1 < (textsUnder k fields).length then none
    else some (keys.map fun k => (textsUnder k fields).head?)
  | none =>
    match array? cs with
    | some items =>
      if keys.length < items.length then none
      else some ((List.range keys.length).map fun i => items[i]?)
    | none => none

/-- The value that a whole text denotes, nested less deep than a bound. -/
def within? (depth : Nat) (cs : List Char) : Option Json :=
  match Reader.value? (2 * cs.length + 2) depth cs with
  | some (v, rest) => if (Reader.skipSpace rest).isEmpty then some v else none
  | none => none

/-- The string that a whole text denotes. -/
def stringIn? (cs : List Char) : Option String := (within? 1 cs).bind str?

/-- The truth value that a whole text denotes. -/
def boolIn? (cs : List Char) : Option Bool := (within? 1 cs).bind bool?

end Json
end EndpointPayload
