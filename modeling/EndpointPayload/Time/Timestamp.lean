import EndpointPayload.Decimal.Numeral
import EndpointPayload.Text.Blank
import EndpointPayload.Time.Calendar

/-!
# Points in time

A point in time is kept in universal time to the millisecond; the second 60 is a leap second.  It is
read from a date with a time and an offset, from a date alone, or from milliseconds since 1970, and
written as a date with a time and the mark `Z`.
-/

namespace EndpointPayload

/-- A point in time. -/
structure Timestamp where
  /-- Days since the first of January 1970. -/
  days : Int
  minuteOfDay : Nat
  second : Nat
  millisecond : Nat
  deriving DecidableEq, Repr

namespace Timestamp

/-- The start of a day. -/
def ofDate (d : Date) : Timestamp := ⟨d.toDays, 0, 0, 0⟩

/-- Milliseconds since 1970, for years that a date can have. -/
def ofMilliseconds? (ms : Int) : Option Timestamp :=
  let days := ms / 86400000
  let rest := (ms % 86400000).toNat
  let year := (Date.ofDays days).year
  if Date.minYear ≤ year && year ≤ Date.maxYear then
    some ⟨days, rest / 60000, rest / 1000 % 60, rest % 1000⟩
  else none

/-- Two digits at the front as a number. -/
def twoDigits? : List Char → Option (Nat × List Char)
  | a :: b :: r =>
    if a.isDigit && b.isDigit then some (Decimal.ofDigits [a, b], r) else none
  | _ => none

/-- A given character at the front. -/
def expect? (c : Char) : List Char → Option (List Char)
  | d :: r => if d = c then some r else none
  | [] => none

/-- A fraction of a second in milliseconds, further digits cut off; none without a point. -/
def fraction? (cs : List Char) : Option (Nat × List Char) :=
  match cs with
  | '.' :: r =>
    let ds := r.takeWhile Char.isDigit
    if ds.isEmpty then none
    else some (Decimal.ofDigits ((ds ++ ['0', '0', '0']).take 3), r.dropWhile Char.isDigit)
  | _ => some (0, cs)

/-- An offset from universal time in minutes, and nothing after it. -/
def offset? (cs : List Char) : Option Int :=
  match cs with
  | [c] => if c = 'Z' || c = 'z' then some 0 else none
  | sign :: r => do
    let negative ←
      if sign = '+' then some false
      else if sign = '-' || sign = '\u2212' then some true
      else none
    let (hours, r) ← twoDigits? r
    let r ← expect? ':' r
    let (minutes, r) ← twoDigits? r
    if !r.isEmpty || 59 < minutes || 23 < hours then none
    else
      let total : Int := hours * 60 + minutes
      some (if negative then -total else total)
  | [] => none

/-- A date with a time and an offset. -/
def ofDateTime? (s : String) : Option Timestamp := do
  let (century, r) ← twoDigits? s.toList
  let (yearOfCentury, r) ← twoDigits? r
  let r ← expect? '-' r
  let (month, r) ← twoDigits? r
  let r ← expect? '-' r
  let (day, r) ← twoDigits? r
  let r ←
    match r with
    | c :: t => if c = 'T' || c = 't' || c = ' ' then some t else none
    | [] => none
  let (hour, r) ← twoDigits? r
  let r ← expect? ':' r
  let (minute, r) ← twoDigits? r
  let r ← expect? ':' r
  let (second, r) ← twoDigits? r
  let (millisecond, r) ← fraction? r
  let offset ← offset? r
  let date : Date := ⟨century * 100 + yearOfCentury, month, day⟩
  if !date.isValid || 23 < hour || 59 < minute || 60 < second then none
  else
    let total := date.toDays * 1440 + hour * 60 + minute - offset
    some ⟨total / 1440, (total % 1440).toNat, second, millisecond⟩

/-- Up to some digits at the front as a number. -/
def upToDigits? (most : Nat) (cs : List Char) : Option (Nat × List Char) :=
  let ds := (cs.takeWhile Char.isDigit).take most
  if ds.isEmpty then none else some (Decimal.ofDigits ds, cs.drop ds.length)

/-- A year: with a sign any number of digits, else up to four. -/
def year? (cs : List Char) : Option (Int × List Char) :=
  match Text.trimStart cs with
  | '-' :: r => (upToDigits? r.length r).map fun (n, rest) => (-(n : Int), rest)
  | '+' :: r => (upToDigits? r.length r).map fun (n, rest) => ((n : Int), rest)
  | r => (upToDigits? 4 r).map fun (n, rest) => ((n : Int), rest)

/-- A date alone; blanks may stand before each number. -/
def ofPlainDate? (s : String) : Option Timestamp := do
  let (year, r) ← year? s.toList
  let r ← expect? '-' r
  let (month, r) ← upToDigits? 2 (Text.trimStart r)
  let r ← expect? '-' r
  let (day, r) ← upToDigits? 2 (Text.trimStart r)
  let date : Date := ⟨year, month, day⟩
  if r.isEmpty && date.isValid then some (ofDate date) else none

/-- A date with or without a time. -/
def ofText? (s : String) : Option Timestamp := (ofDateTime? s).or (ofPlainDate? s)

/-- A number with zeros in front up to some width. -/
def padded (width n : Nat) : String :=
  let ds := (toString n).toList
  String.ofList (List.replicate (width - ds.length) '0' ++ ds)

/-- A year of four digits, or one with a sign if it has more or is negative. -/
def yearText (y : Int) : String :=
  if 0 ≤ y && y ≤ 9999 then padded 4 y.toNat
  else (if y < 0 then "-" else "+") ++ padded 4 y.natAbs

/-- The date with the time to the millisecond. -/
def text (t : Timestamp) : String :=
  let d := Date.ofDays t.days
  yearText d.year ++ "-" ++ padded 2 d.month ++ "-" ++ padded 2 d.day ++ "T" ++
    padded 2 (t.minuteOfDay / 60) ++ ":" ++ padded 2 (t.minuteOfDay % 60) ++ ":" ++
    padded 2 t.second ++ "." ++ padded 3 t.millisecond ++ "Z"

end Timestamp
end EndpointPayload
