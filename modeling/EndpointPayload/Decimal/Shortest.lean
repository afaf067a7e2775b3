/-!
# The shortest decimal that reads back

A positive binary number is a mantissa times a power of two.  Every real between the midpoints to
its two neighbours reads back as it (the midpoints too if the mantissa is even).  `shortest` finds
the fewest decimal digits inside that interval, and among those the nearest to the number.
-/

namespace EndpointPayload
namespace Decimal

/-- A positive binary number `mantissa * 2 ^ exponent`; `narrow` when the neighbour below is only
half as far away as the one above. -/
structure Binary where
  mantissa : Nat
  exponent : Int
  narrow : Bool

/-- A decimal number `digits * 10 ^ exponent`. -/
structure Digits where
  digits : Nat
  exponent : Int
  deriving DecidableEq, Repr

/-- Numerator and denominator of `n * 2 ^ q / 10 ^ e`. -/
def scale (n : Nat) (q e : Int) : Nat × Nat :=
  (n * Nat.pow 2 q.toNat * Nat.pow 10 (-e).toNat, Nat.pow 2 (-q).toNat * Nat.pow 10 e.toNat)

namespace Binary

/-- The number of digits before the point: the least `e` with the number below `10 ^ e`. -/
def magnitude (b : Binary) : Int :=
  let guess : Int := ((b.mantissa.log2 : Int) + b.exponent) * 30103 / 100000
  let below (e : Int) : Bool :=
    let s := scale b.mantissa b.exponent e
    s.1 < s.2
  (([guess - 2, guess - 1, guess, guess + 1, guess + 2].find? below).getD (guess + 3))

/-- Whether `c * 10 ^ e` reads back as the number. -/
def readsBack (b : Binary) (c : Nat) (e : Int) : Bool :=
  let low := scale (4 * b.mantissa - (if b.narrow then 1 else 2)) b.exponent e
  let high := scale (4 * b.mantissa + 2) b.exponent e
  if b.mantissa % 2 = 0 then low.1 ≤ 4 * c * low.2 && 4 * c * high.2 ≤ high.1
  else low.1 < 4 * c * low.2 && 4 * c * high.2 < high.1

/-- The best decimal of exponent `e`, if one reads back. -/
def onGrid (b : Binary) (e : Int) : Option Nat :=
  let s := scale b.mantissa b.exponent e
  let f := s.1 / s.2
  match readsBack b f e, readsBack b (f + 1) e with
  | false, false => none
  | true, false => some f
  | false, true => some (f + 1)
  | true, true =>
    let excess := s.1 - f * s.2
    let shortfall := (f + 1) * s.2 - s.1
    if excess < shortfall || (excess = shortfall && f % 2 = 0) then some f else some (f + 1)

/-- Tries grids from `k` digits on, at most `n` of them. -/
def search (b : Binary) (top : Int) : Nat → Nat → Digits
  | 0, _ => ⟨b.mantissa, b.exponent⟩
  | n + 1, k =>
    match onGrid b (top - k) with
    | some c => ⟨c, top - k⟩
    | none => search b top n (k + 1)

end Binary

/-- Drops zeros at the end of the digits; `n` bounds their number. -/
def Digits.trim : Nat → Digits → Digits
  | 0, d => d
  | n + 1, d => if d.digits % 10 = 0 then trim n ⟨d.digits / 10, d.exponent + 1⟩ else d

/-- The shortest decimal that reads back as a positive binary number. -/
def shortest (b : Binary) : Digits := (b.search b.magnitude 17 1).trim 20

/-- Where the digits stand to the point: how many of them come before it. -/
def Digits.point (d : Digits) : Int := (toString d.digits).length + d.exponent

/-- The digits with a point among, before or after them and no exponent; whole numbers end in
`whole`. -/
def Digits.positional (d : Digits) (whole : String) : String :=
  let s := toString d.digits
  let p := d.point
  if 0 ≤ d.exponent then s ++ String.ofList (List.replicate d.exponent.toNat '0') ++ whole
  else if 0 < p then
    String.ofList (s.toList.take p.toNat) ++ "." ++ String.ofList (s.toList.drop p.toNat)
  else "0." ++ String.ofList (List.replicate (-p).toNat '0') ++ s

/-- One digit before the point and a signed power of ten. -/
def Digits.scientific (d : Digits) : String :=
  let s := (toString d.digits).toList
  let e := d.point - 1
  let tail := if s.length ≤ 1 then "" else "." ++ String.ofList (s.drop 1)
  String.ofList (s.take 1) ++ tail ++ "e" ++ (if e < 0 then "-" else "+") ++ toString e.natAbs

/-- The parts of a binary number of the given widths, from its bits without the sign. -/
def Binary.ofBits (mantissaBits : Nat) (bias : Int) (bits : Nat) : Binary :=
  let hidden := Nat.pow 2 mantissaBits
  let fraction := bits % hidden
  let field := bits / hidden
  if field = 0 then ⟨fraction, 1 - bias - mantissaBits, false⟩
  else ⟨fraction + hidden, field - bias - mantissaBits, fraction = 0 && 1 < field⟩

/-- The parts of a positive finite double. -/
def Binary.ofFloat (x : Float) : Binary :=
  ofBits 52 1023 (x.toBits.toNat % Nat.pow 2 63)

/-- The parts of a positive finite single. -/
def Binary.ofFloat32 (x : Float32) : Binary :=
  ofBits 23 127 (x.toBits.toNat % Nat.pow 2 31)

end Decimal
end EndpointPayload
