import EndpointPayload.Json.Basic

/-!
# Reading JSON text

The reader takes a whole text, blanks around it allowed.  Raw control characters in strings, lone
surrogate escapes, numbers too large for a double and more than 127 levels of nesting are refused.
A number with a point or an exponent is the double nearest to its first digits (as many as fit in 64
bits) scaled by a power of ten in one step, or in steps of `1e-308` when it is very small.
-/

namespace EndpointPayload
namespace Json

namespace Reader

/-- White space between the tokens of JSON. -/
def isSpace (c : Char) : Bool := c = ' ' || c = '\n' || c = '\t' || c = '\r'

def skipSpace (cs : List Char) : List Char := cs.dropWhile isSpace

def hexDigit? (c : Char) : Option Nat :=
  if c.isDigit then some (c.toNat - 48)
  else if 'a' ≤ c && c ≤ 'f' then some (c.toNat - 87)
  else if 'A' ≤ c && c ≤ 'F' then some (c.toNat - 55)
  else none

/-- The value of four hexadecimal digits and the text after them. -/
def hex4? : List Char → Option (Nat × List Char)
  | a :: b :: c :: d :: r => do
    let w ← hexDigit? a
    let x ← hexDigit? b
    let y ← hexDigit? c
    let z ← hexDigit? d
    some (((w * 16 + x) * 16 + y) * 16 + z, r)
  | _ => none

/-- The character of an escape, after its backslash. -/
def escape? : List Char → Option (Char × List Char)
  | '"' :: r => some ('"', r)
  | '\\' :: r => some ('\\', r)
  | '/' :: r => some ('/', r)
  | 'b' :: r => some (Char.ofNat 8, r)
  | 'f' :: r => some (Char.ofNat 12, r)
  | 'n' :: r => some ('\n', r)
  | 'r' :: r => some ('\r', r)
  | 't' :: r => some ('\t', r)
  | 'u' :: r => do
    let (n, r) ← hex4? r
    if 0xD800 ≤ n && n ≤ 0xDBFF then
      match r with
      | '\\' :: 'u' :: r => do
        let (m, r) ← hex4? r
        if 0xDC00 ≤ m && m ≤ 0xDFFF then
          some (Char.ofNat (0x10000 + (n - 0xD800) * 0x400 + (m - 0xDC00)), r)
        else none
      | _ => none
    else if 0xDC00 ≤ n && n ≤ 0xDFFF then none
    else some (Char.ofNat n, r)
  | _ => none

/-- The rest of a string after its opening quote; characters so far are in reverse. -/
def string? : Nat → List Char → List Char → Option (String × List Char)
  | 0, _, _ => none
  | _ + 1, _, [] => none
  | n + 1, acc, c :: r =>
    if c = '"' then some (String.ofList acc.reverse, r)
    else if c = '\\' then
      match escape? r with
      | some (d, r) => string? n (d :: acc) r
      | none => none
    else if c.toNat < 0x20 then none
    else string? n (c :: acc) r

/-- The greatest whole number that is kept exactly. -/
def maxWhole : Nat := Nat.pow 2 64 - 1

/-- Digits taken into a number while it stays exact: the number, how many were taken, and the rest.
-/
def digits : Nat → Nat → List Char → Nat × Nat × List Char
  | acc, taken, [] => (acc, taken, [])
  | acc, taken, c :: r =>
    if c.isDigit && acc * 10 + (c.toNat - 48) ≤ maxWhole then
      digits (acc * 10 + (c.toNat - 48)) (taken + 1) r
    else (acc, taken, c :: r)

/-- A power of ten as a double. -/
def powerOfTen (n : Nat) : Float := Float.ofScientific 1 false n

/-- The double of `significand * 10 ^ exponent`, in one multiplication or division; numbers below
the range of powers are brought into it in steps. -/
def scaled? : Nat → Float → Int → Option Float
  | 0, f, _ => some f
  | n + 1, f, e =>
    if e.natAbs ≤ 308 then
      if 0 ≤ e then
        let g := f * powerOfTen e.natAbs
        if g.isInf then none else some g
      else some (f / powerOfTen e.natAbs)
    else if f == 0.0 then some f
    else if 0 ≤ e then none
    else scaled? n (f / 1e308) (e + 308)

def float? (negative : Bool) (significand : Nat) (exponent : Int) : Option Float :=
  (scaled? (exponent.natAbs / 308 + 2) (Float.ofNat significand) exponent).map fun f =>
    if negative then -f else f

/-- The largest exponent that is told apart from larger ones. -/
def maxExponent : Int := 2147483647

/-- A number from its exponent mark on. -/
def exponent? (negative : Bool) (significand : Nat) (start : Int) (cs : List Char) :
    Option (Float × List Char) :=
  let (down, cs) :=
    match cs with
    | '+' :: r => (false, r)
    | '-' :: r => (true, r)
    | _ => (false, cs)
  let ds := cs.takeWhile Char.isDigit
  let rest := cs.dropWhile Char.isDigit
  if ds.isEmpty then none
  else
    let e : Int := (ds.foldl (fun (n : Nat) c => n * 10 + (c.toNat - 48)) 0 : Nat)
    if maxExponent < e then
      if significand ≠ 0 && !down then none
      else some (if negative then -0.0 else 0.0, rest)
    else
      let total := if down then max (start - e) (-maxExponent - 1) else min (start + e) maxExponent
      (float? negative significand total).map fun f => (f, rest)

/-- A number with digits still to come after the exact ones. -/
def afterDigits? (negative : Bool) (significand : Nat) (exponent : Int) (cs : List Char) :
    Option (Float × List Char) :=
  match cs with
  | c :: r =>
    if c = 'e' || c = 'E' then exponent? negative significand exponent r
    else (float? negative significand exponent).map fun f => (f, cs)
  | [] => (float? negative significand exponent).map fun f => (f, cs)

/-- A number from its point on. -/
def fraction? (negative : Bool) (significand : Nat) (exponent : Int) (cs : List Char) :
    Option (Float × List Char) :=
  let (s, taken, rest) := digits significand 0 cs
  if taken = 0 && !((cs.head?.map Char.isDigit).getD false) then none
  else afterDigits? negative s (exponent - taken) (rest.dropWhile Char.isDigit)

/-- A number after its sign. -/
def number? (negative : Bool) (cs : List Char) : Option (Json × List Char) :=
  let ofFloat (r : Option (Float × List Char)) : Option (Json × List Char) :=
    r.map fun (f, rest) => (.float f, rest)
  match cs with
  | [] => none
  | c :: r =>
    if !c.isDigit then none
    else if c = '0' && (r.head?.map Char.isDigit).getD false then none
    else
      let (s, _, rest) := digits 0 0 cs
      let more := rest.takeWhile Char.isDigit
      let after := rest.dropWhile Char.isDigit
      match after with
      | '.' :: t => ofFloat (fraction? negative s more.length t)
      | d :: t =>
        if d = 'e' || d = 'E' then ofFloat (exponent? negative s more.length t)
        else if more.isEmpty then
          if !negative then some (.int s, after)
          else if s = 0 || Nat.pow 2 63 < s then some (.float (-(Float.ofNat s)), after)
          else some (.int (-s), after)
        else ofFloat ((float? negative s more.length).map fun f => (f, after))
      | [] =>
        if more.isEmpty then
          if !negative then some (.int s, [])
          else if s = 0 || Nat.pow 2 63 < s then some (.float (-(Float.ofNat s)), [])
          else some (.int (-s), [])
        else ofFloat ((float? negative s more.length).map fun f => (f, []))

mutual

/-- A value and the text after it; the first number bounds the reading, the second the nesting. -/
def value? : Nat → Nat → List Char → Option (Json × List Char)
  | 0, _, _ => none
  | n + 1, depth, cs =>
    match skipSpace cs with
    | 'n' :: 'u' :: 'l' :: 'l' :: r => some (.null, r)
    | 't' :: 'r' :: 'u' :: 'e' :: r => some (.bool true, r)
    | 'f' :: 'a' :: 'l' :: 's' :: 'e' :: r => some (.bool false, r)
    | '"' :: r => (string? (r.length + 1) [] r).map fun (s, rest) => (.str s, rest)
    | '-' :: r => number? true r
    | '[' :: r =>
      if depth ≤ 1 then none
      else
        match skipSpace r with
        | ']' :: t => some (.arr [], t)
        | t => (items? n (depth - 1) t).map fun (vs, rest) => (.arr vs, rest)
    | '{' :: r =>
      if depth ≤ 1 then none
      else
        match skipSpace r with
        | '}' :: t => some (.obj [], t)
        | t => (fields? n (depth - 1) t).map fun (fs, rest) => (.obj (ofPairs fs), rest)
    | t => number? false t

/-- The items of an array that is not empty, from the first item to the closing bracket. -/
def items? : Nat → Nat → List Char → Option (List Json × List Char)
  | 0, _, _ => none
  | n + 1, depth, cs =>
    match value? n depth cs with
    | none => none
    | some (v, rest) =>
      match skipSpace rest with
      | ',' :: r => (items? n depth r).map fun (vs, rest) => (v :: vs, rest)
      | ']' :: r => some ([v], r)
      | _ => none

/-- The fields of an object that is not empty, from the first key to the closing brace. -/
def fields? : Nat → Nat → List Char → Option (List (String × Json) × List Char)
  | 0, _, _ => none
  | n + 1, depth, cs =>
    match skipSpace cs with
    | '"' :: r =>
      match string? (r.length + 1) [] r with
      | none => none
      | some (k, rest) =>
        match skipSpace rest with
        | ':' :: r =>
          match value? n depth r with
          | none => none
          | some (v, rest) =>
            match skipSpace rest with
            | ',' :: r => (fields? n depth r).map fun (fs, rest) => ((k, v) :: fs, rest)
            | '}' :: r => some ([(k, v)], r)
            | _ => none
        | _ => none
    | _ => none

end

end Reader

/-- The value that a whole text denotes. -/
def read? (text : String) : Option Json :=
  let cs := text.toList
  match Reader.value? (2 * cs.length + 2) 128 cs with
  | some (v, rest) => if (Reader.skipSpace rest).isEmpty then some v else none
  | none => none

end Json
end EndpointPayload
