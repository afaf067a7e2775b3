import EndpointPayload.Decimal.Numeral

/-!
# Numbers of a settings file

A run of digits may have single underscores between digits.  A decimal number has no zero in front
of other digits; digits after the point, in an exponent or in another base may start with zeros.
-/

namespace EndpointPayload
namespace Toml

def isDigitOf (base : Nat) (c : Char) : Bool :=
  if base = 16 then c.isDigit || ('a' ≤ c && c ≤ 'f') || ('A' ≤ c && c ≤ 'F')
  else c.isDigit && c.toNat - 48 < base

def digitValue (c : Char) : Nat :=
  if c.isDigit then c.toNat - 48
  else if 'a' ≤ c then c.toNat - 87
  else c.toNat - 55

/-- Digits with underscores among them, as the digits, last first, and the rest; `joined` when an
underscore comes right before. -/
def digitRun? (base : Nat) (zeros : Bool) :
    List Char → Bool → List Char → Option (List Char × List Char)
  | done, joined, [] => if done.isEmpty || joined then none else some (done, [])
  | done, joined, c :: r =>
    if isDigitOf base c then
      if !zeros && !done.isEmpty && done.getLast? = some '0' then none
      else digitRun? base zeros (c :: done) false r
    else if c = '_' && done.isEmpty then none
    else if c = '_' && !joined then digitRun? base zeros done true r
    else if done.isEmpty || joined then none
    else some (done, c :: r)

/-- A run of digits with a sign in front, where one is allowed. -/
structure SignedDigits where
  negative : Bool
  digits : List Char
  rest : List Char

/-- Reads digits from the front of a text. -/
def SignedDigits.read? (base : Nat) (sign zeros : Bool) (cs : List Char) : Option SignedDigits :=
  let (negative, ds) := if sign then Decimal.splitSign cs else (false, cs)
  (digitRun? base zeros [] false ds).map fun (done, rest) => ⟨negative, done.reverse, rest⟩

/-- A whole number of 64 bits with a sign. -/
def whole? (base : Nat) (cs : List Char) : Option Int :=
  match SignedDigits.read? base (base = 10) (base ≠ 10) cs with
  | some ⟨negative, ds, []⟩ =>
    let size : Int := (ds.foldl (fun n c => n * base + digitValue c) 0 : Nat)
    let n := if negative then -size else size
    if Decimal.fitsWord n then some n else none
  | _ => none

/-- The double of a sign, whole digits, digits after the point and an exponent; none if it is not
finite. -/
def decimal? (head : SignedDigits) (fraction : List Char) (exponent : Int) : Option Float :=
  let size :=
    Decimal.nearest (Decimal.ofDigits (head.digits ++ fraction)) (exponent - fraction.length)
  if size.isFinite then some (if head.negative then -size else size) else none

/-- The value of an exponent's digits. -/
def SignedDigits.exponent (d : SignedDigits) : Int :=
  if d.negative then -(Decimal.ofDigits d.digits : Int) else Decimal.ofDigits d.digits

/-- The words that stand for numbers that are not finite. -/
def unboundedWord? (s : String) : Option Float :=
  if s = "inf" then some (1.0 / 0.0)
  else if s = "-inf" then some (-1.0 / 0.0)
  else if s = "nan" || s = "-nan" then some (0.0 / 0.0)
  else none

end Toml
end EndpointPayload
