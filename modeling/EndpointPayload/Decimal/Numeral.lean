/-!
# Numerals

Numbers written in plain text, without blanks: whole numbers of 64 bits, and decimals with at least
one digit, read as the nearest double.
-/

namespace EndpointPayload
namespace Decimal

/-- The number that some digits denote. -/
def ofDigits (ds : List Char) : Nat := ds.foldl (fun n c => n * 10 + (c.toNat - 48)) 0

/-- A sign at the front, and what follows. -/
def splitSign (cs : List Char) : Bool × List Char :=
  match cs with
  | '-' :: r => (true, r)
  | '+' :: r => (false, r)
  | _ => (false, cs)

/-- Nothing but digits, and at least one. -/
def areDigits (cs : List Char) : Bool := !cs.isEmpty && cs.all Char.isDigit

/-- The first number that needs more than 63 bits. -/
def wordBound : Int := 9223372036854775808

/-- Whether a number fits in 64 bits with a sign. -/
def fitsWord (n : Int) : Bool := -wordBound ≤ n && n < wordBound

/-- A whole number that fits in 64 bits with a sign. -/
def wholeOf? (s : String) : Option Int :=
  let (negative, ds) := splitSign s.toList
  if !areDigits ds then none
  else
    let n : Int := if negative then -(ofDigits ds : Int) else ofDigits ds
    if fitsWord n then some n else none

/-- The double nearest to `n * 10 ^ e`; far outside the range it is infinite or zero. -/
def nearest (n : Nat) (e : Int) : Float :=
  let size : Int := (toString n).length + e
  if n = 0 || size < -400 then 0.0
  else if 400 < size then 1.0 / 0.0
  else if 0 ≤ e then Float.ofScientific (n * Nat.pow 10 e.toNat) false 0
  else Float.ofScientific n true (-e).toNat

/-- An exponent from its mark on; a text without a mark has the exponent zero. -/
def exponentOf? (cs : List Char) : Option Int :=
  match cs with
  | [] => some 0
  | c :: r =>
    if c = 'e' || c = 'E' then
      let (negative, ds) := splitSign r
      if areDigits ds then
        some (if negative then -(ofDigits ds : Int) else ofDigits ds)
      else none
    else none

/-- A decimal without a sign; a point needs a digit on one of its sides. -/
def unsignedFloat? (cs : List Char) : Option Float :=
  let whole := cs.takeWhile Char.isDigit
  let (fraction, rest) :=
    match cs.dropWhile Char.isDigit with
    | '.' :: r => (r.takeWhile Char.isDigit, r.dropWhile Char.isDigit)
    | r => ([], r)
  if whole.isEmpty && fraction.isEmpty then none
  else
    (exponentOf? rest).map fun e => nearest (ofDigits (whole ++ fraction)) (e - fraction.length)

/-- A finite decimal number. -/
def floatOf? (s : String) : Option Float :=
  let (negative, cs) := splitSign s.toList
  match unsignedFloat? cs with
  | some x => if x.isFinite then some (if negative then -x else x) else none
  | none => none

end Decimal
end EndpointPayload
