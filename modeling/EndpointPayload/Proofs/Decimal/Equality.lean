import EndpointPayload.Proofs.Decimal.Finite
import EndpointPayload.Proofs.Decimal.Share

/-!
# Equal numbers

Two floats are equal if both are numbers and have the same place in the order of numbers; so the two
zeros are equal.  This makes equality symmetric and transitive, and every number equal to itself.
A whole number of any size becomes a number: packing makes no number into none.
-/

namespace EndpointPayload
namespace Decimal

open Float.Model Float.Model.UnpackedFloat

section Equality

variable {a b c : Float}

theorem isNaN_of_compare {u v : UnpackedFloat} {o : Ordering} (h : u.compare v = some o) :
    u.isNaN = false ∧ v.isNaN = false := by
  cases u with
  | notANumber => cases v <;> cases h
  | zero s =>
      cases v with
      | notANumber => cases h
      | _ => exact ⟨rfl, rfl⟩
  | infinity s =>
      cases v with
      | notANumber => cases s <;> cases h
      | _ => exact ⟨rfl, rfl⟩
  | finite s m e =>
      cases v with
      | notANumber => cases s <;> cases h
      | _ => exact ⟨rfl, rfl⟩

/-- A comparison says equal of numbers with the same place. -/
theorem compare_eq_eq_iff {u v : UnpackedFloat} :
    u.compare v = some .eq ↔ u.isNaN = false ∧ v.isNaN = false ∧ place u = place v := by
  have hgreater : place v < place u → u.isNaN = false → v.isNaN = false →
      u.compare v = some .gt := by
    intro hplace hu hv
    rw [compare_swap, compare_eq_lt_iff.mpr ⟨hv, hu, hplace⟩]
    rfl
  constructor
  · intro h
    obtain ⟨hu, hv⟩ := isNaN_of_compare h
    refine ⟨hu, hv, ?_⟩
    rcases lt_trichotomy (place u) (place v) with hlt | heq | hgt
    · rw [compare_eq_lt_iff.mpr ⟨hu, hv, hlt⟩] at h
      cases h
    · exact heq
    · rw [hgreater hgt hu hv] at h
      cases h
  · rintro ⟨hu, hv, heq⟩
    cases h : u.compare v with
    | none => exact absurd h (compare_ne_none hu hv)
    | some o =>
        cases o with
        | lt => exact absurd (compare_eq_lt_iff.mp h).2.2 heq.not_lt
        | eq => rfl
        | gt =>
            have hswap : v.compare u = some .lt := by
              rw [compare_swap, h]
              rfl
            exact absurd (compare_eq_lt_iff.mp hswap).2.2 heq.not_gt

theorem beq_iff_place :
    (a == b) = true ↔ a.isNaN = false ∧ b.isNaN = false ∧ place (parts a) = place (parts b) := by
  have hcompare : (a == b) = ((parts a).compare (parts b) == some .eq) := rfl
  rw [hcompare, beq_iff_eq, compare_eq_eq_iff, isNaN_eq_parts, isNaN_eq_parts]

theorem beq_self (h : a.isNaN = false) : (a == a) = true :=
  beq_iff_place.2 ⟨h, h, rfl⟩

theorem beq_symm (h : (a == b) = true) : (b == a) = true := by
  obtain ⟨ha, hb, heq⟩ := beq_iff_place.1 h
  exact beq_iff_place.2 ⟨hb, ha, heq.symm⟩

theorem beq_trans (hab : (a == b) = true) (hbc : (b == c) = true) : (a == c) = true := by
  obtain ⟨ha, -, heq⟩ := beq_iff_place.1 hab
  obtain ⟨-, hc, heq'⟩ := beq_iff_place.1 hbc
  exact beq_iff_place.2 ⟨ha, hc, heq.trans heq'⟩

/-- Numbers of which neither is below the other are equal. -/
theorem beq_of_not_lt
    (ha : a.isNaN = false)
    (hb : b.isNaN = false)
    (hab : ¬ a < b)
    (hba : ¬ b < a) :
    (a == b) = true := by
  have hplace : ∀ {x y : Float}, x.isNaN = false → y.isNaN = false → ¬ x < y →
      place (parts y) ≤ place (parts x) := by
    intro x y hx hy hxy
    rw [lt_iff_parts, UnpackedFloat.lt, beq_iff_eq, compare_eq_lt_iff] at hxy
    rw [isNaN_eq_parts] at hx hy
    exact le_of_not_gt fun hlt => hxy ⟨hx, hy, hlt⟩
  exact beq_iff_place.2 ⟨ha, hb, le_antisymm (hplace hb ha hba) (hplace ha hb hab)⟩

end Equality

section Whole

theorem isNaN_unpack
    {b : BitVec Format.binary64.numBits}
    (h : unpackExponent b ≠ -1#11 ∨ unpackMantissa b = 0#52) :
    (UnpackedFloat.unpack .binary64 b).isNaN = false := by
  rw [UnpackedFloat.unpack]
  split
  case isTrue htop =>
      split
      case isTrue => rfl
      case isFalse hmantissa => exact absurd (h.resolve_left (not_not_intro htop)) hmantissa
  case isFalse => split <;> [split <;> rfl; rfl]

/-- A number stays a number when it is packed. -/
theorem isNaN_pack
    {u : UnpackedFloat}
    (h : u.isNaN = false) :
    (UnpackedFloat.unpack .binary64 (UnpackedFloat.pack .binary64 u)).isNaN = false := by
  have hinfinity : ∀ s, (UnpackedFloat.unpack .binary64
      (packedInfinity .binary64 s)).isNaN = false := by
    intro s
    refine isNaN_unpack (.inr ?_)
    rw [packedInfinity, unpackMantissa_packComponents]
    rfl
  cases u with
  | notANumber => cases h
  | infinity s => exact hinfinity s
  | zero s =>
      rw [UnpackedFloat.pack, unpack_packedZero]
      rfl
  | finite s m e hpos =>
      rw [UnpackedFloat.pack]
      dsimp only
      split
      case isTrue => exact hinfinity s
      case isFalse hrange =>
          -- an exponent that is packed as such is below the largest one
          have hexponent : ∀ k : Nat, k ≤ 2046 → BitVec.ofNat 11 k ≠ -1#11 := by
            intro k hk heq
            have hvalue : (BitVec.ofNat 11 k).toNat = 2047 := by rw [heq]; rfl
            rw [BitVec.toNat_ofNat] at hvalue
            omega
          split
          · refine isNaN_unpack (.inl ?_)
            rw [unpackExponent_packComponents]
            exact hexponent _ (by omega)
          · refine isNaN_unpack (.inl ?_)
            rw [unpackExponent_packComponents]
            exact hexponent 0 (by omega)

theorem isNaN_roundWithAccuracy (s : Sign) (m : Nat) (e : Int) (accuracy : Accuracy) :
    (roundWithAccuracy .binary64 s m e accuracy).isNaN = false := by
  rw [roundWithAccuracy]
  dsimp only
  split <;> rfl

theorem isNaN_ofNat (n : Nat) : (Float.ofNat n).isNaN = false := by
  by_cases hn : n < 2 ^ 64
  · rcases Nat.eq_zero_or_pos n with rfl | hpos
    · decide +kernel
    · exact isNaN_of_isScaled (isScaled_ofNat hpos hn)
  · have hlarge : ¬ (n < 2 ^ 53 ∧ 0 ≤ 22) := by omega
    have hsmall : ¬ (0 : Int) < -((2 ^ Format.binary64.exponentBits : Int) + n.log2) := by simp
    change (Float.ofScientific n false 0).isNaN = false
    rw [Float.ofScientific, dif_neg hlarge]
    refine isNaN_pack (u := UnpackedFloat.ofScientific .binary64 n 0) ?_
    rw [UnpackedFloat.ofScientific, dif_neg (by omega), if_neg (by decide), if_neg hsmall,
      if_pos (by decide), UnpackedFloat.mul]
    exact isNaN_roundWithAccuracy _ _ _ _

theorem isNaN_neg {x : Float} (h : x.isNaN = false) : (-x).isNaN = false := by
  rw [isNaN_eq_parts] at h
  refine isNaN_pack (u := (parts x).neg) ?_
  generalize parts x = u at h
  cases u with
  | notANumber => cases h
  | _ => rfl

/-- A whole number as a float is a number. -/
theorem isNaN_ofInt (n : Int) : (Float.ofInt n).isNaN = false := by
  cases n with
  | ofNat n => exact isNaN_ofNat n
  | negSucc n => exact isNaN_neg (isNaN_ofNat n.succ)

end Whole

end Decimal
end EndpointPayload
