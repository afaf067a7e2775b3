import EndpointPayload.Decimal.Numeral
import EndpointPayload.Proofs.Decimal.Order

/-!
# Finite floats

A float is finite unless all bits of its exponent are set, and the opposite of a finite float has
the same exponent.  So the numbers that `Decimal.floatOf?` reads are finite.
-/

namespace EndpointPayload
namespace Decimal

open Float.Model Float.Model.UnpackedFloat

variable {x : Float}

theorem isFinite_eq_parts (x : Float) : x.isFinite = (parts x).isFinite := rfl

theorem isFinite_unpack
    {b : BitVec Format.binary64.numBits}
    (h : unpackExponent b ≠ -1#11) :
    (UnpackedFloat.unpack .binary64 b).isFinite = true := by
  rw [UnpackedFloat.unpack]
  split
  case isTrue htop => exact absurd htop h
  case isFalse => split <;> [split <;> rfl; rfl]

/-- The exponent that a float is packed with is below the largest one. -/
theorem unpackExponent_pack_ne
    {s : Sign}
    {m : Nat}
    {e : Int}
    (hpos : 0 < m)
    (helo : -1074 ≤ e)
    (hehi : e ≤ 971) :
    unpackExponent (UnpackedFloat.pack .binary64 (.finite s m e hpos)) ≠ -1#11 := by
  have hrange : ¬ 2 ^ Format.binary64.exponentBits ≤ (e + 1075).toNat + 1 := by
    have hbits : Format.binary64.exponentBits = 11 := rfl
    rw [hbits]
    omega
  have hbias := biased_eq e
  rw [UnpackedFloat.pack]
  simp only [hbias]
  rw [if_neg hrange]
  split
  · rw [unpackExponent_packComponents]
    intro h
    have hvalue : (BitVec.ofNat 11 (e + 1075).toNat).toNat = 2047 := by rw [h]; rfl
    rw [BitVec.toNat_ofNat] at hvalue
    omega
  · rw [unpackExponent_packComponents]
    decide

/-- The opposite of a finite float is finite. -/
theorem isFinite_neg (h : x.isFinite = true) : (-x).isFinite = true := by
  rw [isFinite_eq_parts] at h ⊢
  change (UnpackedFloat.unpack .binary64
    (UnpackedFloat.pack .binary64 (parts x).neg)).isFinite = true
  have hparts := unpacked_parts x
  generalize parts x = u at h hparts
  cases hparts with
  | notANumber => cases h
  | infinity => cases h
  | zero =>
      rw [UnpackedFloat.neg, UnpackedFloat.pack, unpack_packedZero]
      rfl
  | finite m e hpos _ helo hehi => exact isFinite_unpack (unpackExponent_pack_ne hpos helo hehi)

/-- A decimal is read as a finite float. -/
theorem isFinite_of_floatOf? {s : String} (h : floatOf? s = some x) : x.isFinite = true := by
  simp only [floatOf?] at h
  split at h
  case h_1 y _ =>
      split at h
      case isTrue hfinite =>
          cases h
          split
          · exact isFinite_neg hfinite
          · exact hfinite
      case isFalse => cases h
  case h_2 => cases h

end Decimal
end EndpointPayload
