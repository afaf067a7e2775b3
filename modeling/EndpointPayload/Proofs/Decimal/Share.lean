import EndpointPayload.Proofs.Decimal.Order

/-!
# Positive shares

The per cent that some of a number of things are is computed by two roundings to floats, a quotient
and a product.  None of the steps leaves the range of numbers with a full mantissa: a positive
number with an exponent between two bounds is rounded to one with an exponent between bounds close
by.  So the share of something is positive, however small a part of the whole it is.
-/

namespace EndpointPayload
namespace Decimal

open Float.Model Float.Model.UnpackedFloat

/-- A positive number with all the bits of its mantissa and an exponent between two bounds. -/
inductive IsScaled (lo hi : Int) : UnpackedFloat → Prop
  | finite (m : Nat) (e : Int) (h : 0 < m)
      (hfull : 2 ^ 52 ≤ m) (hm : m < 2 ^ 53)
      (helo : lo ≤ e) (hehi : e ≤ hi) :
      IsScaled lo hi (.finite .positive m e h)

theorem IsScaled.mono
    {lo hi lo' hi' : Int}
    {u : UnpackedFloat}
    (h : IsScaled lo hi u)
    (hlo : lo' ≤ lo)
    (hhi : hi ≤ hi') :
    IsScaled lo' hi' u := by
  cases h with
  | finite m e hpos hfull hm helo hehi =>
      exact .finite m e hpos hfull hm (hlo.trans helo) (hehi.trans hhi)

section Rounding

theorem targetExponent_eq (t : Int) : Format.binary64.targetExponent t = max (t - 53) (-1074) := rfl

theorem mantissa_shiftRight (em : ExtendedMantissa) (k : Nat) :
    (em >>> k).mantissa = em.mantissa / 2 ^ k := by
  induction k with
  | zero => simp [HShiftRight.hShiftRight, Nat.repeat]
  | succ k ih =>
      have hstep : (em >>> (k + 1)).mantissa = (em >>> k).mantissa / 2 := rfl
      rw [hstep, ih, Nat.div_div_eq_div_mul, ← Nat.pow_succ]

/-- Rounding adds one to the mantissa at most. -/
theorem roundedMantissa_bounds (em : ExtendedMantissa) :
    em.mantissa ≤ em.roundedMantissa ∧ em.roundedMantissa ≤ em.mantissa + 1 := by
  obtain ⟨m, round, sticky⟩ := em
  cases round <;> cases sticky <;>
    simp only [ExtendedMantissa.roundedMantissa, ExtendedMantissa.accuracy,
      Accuracy.roundToNearestEven] <;> omega

theorem mantissa_ofMantissaAndAccuracy (m : Nat) (accuracy : Accuracy) :
    (ExtendedMantissa.ofMantissaAndAccuracy m accuracy).mantissa = m := by
  cases accuracy with
  | exact => rfl
  | inexact o => cases o <;> rfl

variable {m k : Nat} {e : Int}

theorem log2_eq (hlow : 2 ^ (52 + k) ≤ m) (hhigh : m < 2 ^ (53 + k)) : m.log2 = 52 + k := by
  have hm : m ≠ 0 := by
    have := Nat.two_pow_pos (52 + k)
    omega
  rw [Nat.log2_eq_iff hm]
  exact ⟨hlow, by rwa [show 52 + k + 1 = 53 + k by omega]⟩

/-- A mantissa that is too long by some bits loses them. -/
theorem shiftToTargetExponent_eq
    (accuracy : Accuracy)
    (hlow : 2 ^ (52 + k) ≤ m)
    (hhigh : m < 2 ^ (53 + k))
    (he : -1074 ≤ e + k) :
    shiftToTargetExponent .binary64 m e accuracy =
      (ExtendedMantissa.ofMantissaAndAccuracy m accuracy >>> k, e + k) := by
  have htarget : Format.binary64.targetExponent (totalExponent m e) = e + k := by
    rw [targetExponent_eq, totalExponent, log2_eq hlow hhigh]
    omega
  have hamount : (e + k - e).toNat = k := by omega
  rw [shiftToTargetExponent, htarget, shiftToExponent, hamount]

/-- A positive number with a mantissa of full width or more is rounded to one of full width. -/
theorem isScaled_roundWithAccuracy
    (accuracy : Accuracy)
    (hlow : 2 ^ (52 + k) ≤ m)
    (hhigh : m < 2 ^ (53 + k))
    (he : -1074 ≤ e + k) :
    IsScaled (e + k) (e + k + 1) (roundWithAccuracy .binary64 .positive m e accuracy) := by
  obtain ⟨hfloor, hceil⟩ := roundedMantissa_bounds
    (ExtendedMantissa.ofMantissaAndAccuracy m accuracy >>> k)
  rw [mantissa_shiftRight, mantissa_ofMantissaAndAccuracy] at hfloor hceil
  have hfull : 2 ^ 52 ≤ m / 2 ^ k := by
    rw [Nat.le_div_iff_mul_le (Nat.two_pow_pos k), ← Nat.pow_add]
    exact hlow
  have hshort : m / 2 ^ k < 2 ^ 53 := by
    rw [Nat.div_lt_iff_lt_mul (Nat.two_pow_pos k), ← Nat.pow_add]
    exact hhigh
  rw [roundWithAccuracy, shiftToTargetExponent_eq accuracy hlow hhigh he]
  dsimp only
  generalize (ExtendedMantissa.ofMantissaAndAccuracy m accuracy >>> k).roundedMantissa = n
    at hfloor hceil
  -- the last carry may make the mantissa one bit too long again
  by_cases hcarry : n < 2 ^ 53
  · rw [shiftToTargetExponent_eq (k := 0) .exact (by omega) (by omega) (by omega)]
    simp only [mantissa_shiftRight, mantissa_ofMantissaAndAccuracy, Nat.pow_zero, Nat.div_one]
    rw [dif_neg (by omega)]
    exact .finite n _ _ (by omega) hcarry (by omega) (by omega)
  · rw [shiftToTargetExponent_eq (k := 1) .exact (by omega) (by omega) (by omega)]
    simp only [mantissa_shiftRight, mantissa_ofMantissaAndAccuracy, Nat.pow_one]
    rw [dif_neg (by omega)]
    exact .finite (n / 2) _ _ (by omega) (by omega) (by omega) (by omega)

/-- The same for a mantissa that was shifted to full width or more. -/
theorem isScaled_shiftLeft
    {s : Nat}
    (hm : 0 < m)
    (hwidth : m.log2 + s = 52 + k)
    (he : -1074 ≤ e + k) :
    IsScaled (e + k) (e + k + 1) (roundWithAccuracy .binary64 .positive (m <<< s) e .exact) := by
  have hlow : 2 ^ (52 + k) ≤ m <<< s := by
    rw [Nat.shiftLeft_eq, ← hwidth, Nat.pow_add]
    exact Nat.mul_le_mul_right _ (Nat.log2_self_le (by omega))
  have hhigh : m <<< s < 2 ^ (53 + k) := by
    rw [Nat.shiftLeft_eq, show 53 + k = m.log2 + 1 + s by omega, Nat.pow_add]
    exact Nat.mul_lt_mul_of_pos_right Nat.lt_log2_self (Nat.two_pow_pos _)
  exact isScaled_roundWithAccuracy .exact hlow hhigh he

/-- A positive whole number is rounded to one with a full mantissa. -/
theorem isScaled_round
    (hm : 0 < m)
    (he : -1074 ≤ m.log2 + e - 52) :
    IsScaled (m.log2 + e - 52) (m.log2 + e - 51)
      (UnpackedFloat.round .binary64 .positive m e) := by
  have htarget : Format.binary64.targetExponent (totalExponent m e) = m.log2 + e - 52 := by
    rw [targetExponent_eq, totalExponent]
    omega
  have hamount : (e - (m.log2 + e - 52)).toNat = 52 - m.log2 := by omega
  rw [UnpackedFloat.round, htarget, decreaseExponent, hamount]
  exact (isScaled_shiftLeft (k := m.log2 - 52) hm (by omega) (by omega)).mono (by omega) (by omega)

end Rounding

section Steps

variable {a b c d : Int} {u v : UnpackedFloat}

theorem isScaled_mul
    (hu : IsScaled a b u)
    (hv : IsScaled c d v)
    (hlo : -1074 ≤ a + c + 52) :
    IsScaled (a + c + 52) (b + d + 54) (UnpackedFloat.mul .binary64 u v) := by
  cases hu with
  | finite m e hpos hfull hm helo hehi =>
      cases hv with
      | finite n f hpos' hfull' hn hflo hfhi =>
          have hlow : 2 ^ 52 * 2 ^ 52 ≤ m * n := Nat.mul_le_mul hfull hfull'
          have hhigh : m * n < 2 ^ 53 * 2 ^ 53 := Nat.mul_lt_mul'' hm hn
          change IsScaled _ _ (roundWithAccuracy .binary64 .positive (m * n) (e + f) .exact)
          by_cases hshort : m * n < 2 ^ (53 + 52)
          · exact (isScaled_roundWithAccuracy (k := 52) .exact (by omega) hshort (by omega)).mono
              (by omega) (by omega)
          · exact (isScaled_roundWithAccuracy (k := 53) .exact (by omega) (by omega)
              (by omega)).mono (by omega) (by omega)

/-- The quotient of two full mantissas, the first one with 53 bits more. -/
theorem divCore_eq
    {m n : Nat}
    {e f : Int}
    (hmlow : 2 ^ 52 ≤ m)
    (hmhigh : m < 2 ^ 53)
    (hnlow : 2 ^ 52 ≤ n)
    (hnhigh : n < 2 ^ 53)
    (hlo : -1074 ≤ e - f - 53) :
    divCore .binary64 m e n f =
      (m <<< 53 / n, e - f - 53, accuracyOfFraction (m <<< 53 % n) n) := by
  have htarget : min (e - f) (Format.binary64.targetExponent
      (totalExponent m e - totalExponent n f)) = e - f - 53 := by
    rw [targetExponent_eq, totalExponent, totalExponent, log2_eq (k := 0) hmlow hmhigh,
      log2_eq (k := 0) hnlow hnhigh]
    omega
  have hamount : (e - f - (e - f - 53)).toNat = 53 := by omega
  rw [divCore, htarget, hamount]

theorem isScaled_div
    (hu : IsScaled a b u)
    (hv : IsScaled c d v)
    (hlo : -1074 ≤ a - d - 53) :
    IsScaled (a - d - 53) (b - c - 51) (UnpackedFloat.div .binary64 u v) := by
  cases hu with
  | finite m e hpos hfull hm helo hehi =>
      cases hv with
      | finite n f hpos' hfull' hn hflo hfhi =>
          have hlow : 2 ^ 52 ≤ m <<< 53 / n := by
            rw [Nat.le_div_iff_mul_le hpos', Nat.shiftLeft_eq]
            omega
          have hhigh : m <<< 53 / n < 2 ^ 54 := by
            rw [Nat.div_lt_iff_lt_mul hpos', Nat.shiftLeft_eq]
            omega
          change IsScaled _ _ (roundWithAccuracy .binary64 .positive (divCore .binary64 m e n f).1
            (divCore .binary64 m e n f).2.1 (divCore .binary64 m e n f).2.2)
          rw [divCore_eq hfull hm hfull' hn (by omega)]
          dsimp only
          by_cases hshort : m <<< 53 / n < 2 ^ 53
          · exact (isScaled_roundWithAccuracy (k := 0) _ hlow hshort (by omega)).mono
              (by omega) (by omega)
          · exact (isScaled_roundWithAccuracy (k := 1) _ (by omega) hhigh (by omega)).mono
              (by omega) (by omega)

end Steps

section Packing

variable {m : Nat} {e : Int}

/-- The bits of a positive number with a full mantissa: the exponent with its bias, and the mantissa
without its first bit. -/
theorem pack_finite
    (hpos : 0 < m)
    (hfull : 2 ^ 52 ≤ m)
    (hm : m < 2 ^ 53)
    (hehi : e ≤ 971) :
    UnpackedFloat.pack .binary64 (.finite .positive m e hpos) =
      packComponents .binary64 .positive (BitVec.ofNat 11 (e + 1075).toNat)
        (BitVec.ofNat 52 m) := by
  have hbias := biased_eq e
  have hlog : m.log2 + 1 = Format.binary64.mantissaBits := by
    rw [log2_eq (k := 0) hfull hm]
    rfl
  rw [UnpackedFloat.pack]
  simp only [hlog, hbias]
  rw [if_neg (by omega), if_pos trivial]

theorem unpack_packComponents
    (hpos : 0 < m)
    (hfull : 2 ^ 52 ≤ m)
    (hm : m < 2 ^ 53)
    (helo : -1074 ≤ e)
    (hehi : e ≤ 971) :
    UnpackedFloat.unpack .binary64
      (packComponents .binary64 .positive (BitVec.ofNat 11 (e + 1075).toNat) (BitVec.ofNat 52 m)) =
        .finite .positive m e hpos := by
  have hexponent : (BitVec.ofNat 11 (e + 1075).toNat).toNat = (e + 1075).toNat := by
    rw [BitVec.toNat_ofNat, Nat.mod_eq_of_lt (by omega)]
  have hmantissa : (1#1 ++ BitVec.ofNat 52 m).toNat = m := by
    rw [BitVec.toNat_append, ← Nat.shiftLeft_add_eq_or_of_lt (BitVec.isLt _),
      BitVec.toNat_ofNat, Nat.shiftLeft_eq, BitVec.toNat_ofNat]
    omega
  have htop : BitVec.ofNat 11 (e + 1075).toNat ≠ -1#11 := by
    intro h
    have hvalue : (e + 1075).toNat = 2047 := by rw [← hexponent, h]; rfl
    omega
  have hbottom : BitVec.ofNat 11 (e + 1075).toNat ≠ 0#11 := by
    intro h
    have hvalue : (e + 1075).toNat = 0 := by rw [← hexponent, h]; rfl
    omega
  have hback : ((e + 1075).toNat : Int) - (Format.binary64.exponentBias + 52) = e := by
    have hvalue : (Format.binary64.exponentBias : Int) = 1023 := rfl
    rw [hvalue]
    omega
  rw [UnpackedFloat.unpack]
  simp only [unpackMantissa_packComponents, unpackExponent_packComponents,
    unpackSign_packComponents, Sign.ofBitVec_toBitVec]
  rw [if_neg htop, if_neg hbottom]
  simp only [hmantissa, hexponent]
  congr 1

/-- A number with a full mantissa keeps its parts as a float. -/
theorem isScaled_parts
    {lo hi : Int}
    {u : UnpackedFloat}
    (hu : IsScaled lo hi u)
    (hlo : -1074 ≤ lo)
    (hhi : hi ≤ 971) :
    IsScaled lo hi (parts (.ofModel (.pack u))) := by
  cases hu with
  | finite m e hpos hfull hm helo hehi =>
      change IsScaled lo hi
        (UnpackedFloat.unpack .binary64 (UnpackedFloat.pack .binary64 (.finite .positive m e hpos)))
      rw [pack_finite hpos hfull hm (hehi.trans hhi),
        unpack_packComponents hpos hfull hm (hlo.trans helo) (hehi.trans hhi)]
      exact .finite m e hpos hfull hm helo hehi

end Packing

section Floats

variable {a b c d : Int} {x y : Float}

theorem isScaled_parts_mul
    (hx : IsScaled a b (parts x))
    (hy : IsScaled c d (parts y))
    (hlo : -1074 ≤ a + c + 52)
    (hhi : b + d + 54 ≤ 971) :
    IsScaled (a + c + 52) (b + d + 54) (parts (x * y)) :=
  isScaled_parts (isScaled_mul hx hy hlo) hlo hhi

theorem isScaled_parts_div
    (hx : IsScaled a b (parts x))
    (hy : IsScaled c d (parts y))
    (hlo : -1074 ≤ a - d - 53)
    (hhi : b - c - 51 ≤ 971) :
    IsScaled (a - d - 53) (b - c - 51) (parts (x / y)) :=
  isScaled_parts (isScaled_div hx hy hlo) hlo hhi

theorem pos_of_isScaled (hx : IsScaled a b (parts x)) : 0.0 < x := by
  have hzero : (0.0 : Float) = .ofModel (.pack (.zero .positive)) := by decide
  have hparts : parts 0.0 = .zero .positive := by
    rw [hzero]
    exact unpack_packedZero
  rw [lt_iff_parts, hparts]
  generalize parts x = u at hx
  cases hx with
  | finite => rfl

theorem isScaled_one : IsScaled (-52) (-52) (parts (Float.ofBits 0x3FF0000000000000)) := by
  have hu : IsScaled (-52) (-52) (.finite .positive (2 ^ 52) (-52) (by decide)) :=
    .finite _ _ _ (by decide) (by decide) (by decide) (by decide)
  have hone : Float.ofBits 0x3FF0000000000000 =
      .ofModel (.pack (.finite .positive (2 ^ 52) (-52) (by decide))) := by
    decide
  rw [hone]
  exact isScaled_parts hu (by decide) (by decide)

theorem isScaled_hundred : IsScaled (-46) (-46) (parts 100.0) := by
  have hu : IsScaled (-46) (-46) (.finite .positive (100 * 2 ^ 46) (-46) (by decide)) :=
    .finite _ _ _ (by decide) (by decide) (by decide) (by decide)
  have hhundred : (100.0 : Float) =
      .ofModel (.pack (.finite .positive (100 * 2 ^ 46) (-46) (by decide))) := by
    decide
  rw [hhundred]
  exact isScaled_parts hu (by decide) (by decide)

theorem isScaled_toFloat
    {w : UInt64}
    (hpos : 0 < w.toNat) :
    IsScaled (-52) 13 (parts w.toFloat) := by
  have hlog : w.toNat.log2 < 64 := (Nat.log2_lt (by omega)).mpr w.toNat_lt
  have hround : IsScaled (-52) 13 (UnpackedFloat.round .binary64 .positive w.toNat 0) :=
    (isScaled_round hpos (by omega)).mono (by omega) (by omega)
  have hword : UnpackedFloat.ofUInt64 .binary64 w =
      UnpackedFloat.round .binary64 .positive w.toNat 0 := by
    rw [UnpackedFloat.ofUInt64, UnpackedFloat.ofNat, UnpackedFloat.ofInt, UnpackedFloat.normalize,
      Int.compare_eq_gt.mpr (by omega)]
    rfl
  exact isScaled_parts (hword ▸ hround) (by decide) (by decide)

theorem isScaled_ofScientific
    {n : Nat}
    (hpos : 0 < n)
    (hn : n < 2 ^ 64) :
    IsScaled (-52) 12 (UnpackedFloat.ofScientific .binary64 n 0) := by
  have hlog : n.log2 < 64 := (Nat.log2_lt (by omega)).mpr hn
  have hsmall : ¬ (0 : Int) < -((2 ^ Format.binary64.exponentBits : Int) + n.log2) := by simp
  have hbits : Format.binary64.mantissaBits = 53 := rfl
  have hpower : 10 ^ (0 : Int).toNat = 1 := rfl
  have hsign : Sign.positive * Sign.positive = .positive := rfl
  rw [UnpackedFloat.ofScientific, dif_neg (by omega), if_neg (by decide), if_neg hsmall,
    if_pos (by decide), UnpackedFloat.mul, hbits, hpower, hsign, Nat.mul_one]
  exact (isScaled_shiftLeft (k := n.log2 + 1) hpos (by omega) (by omega)).mono
    (by omega) (by omega)

/-- A positive number of things that a word of 64 bits can count. -/
theorem isScaled_ofNat
    {n : Nat}
    (hpos : 0 < n)
    (hn : n < 2 ^ 64) :
    IsScaled (-52) 15 (parts (Float.ofNat n)) := by
  change IsScaled _ _ (parts (Float.ofScientific n false 0))
  -- small numbers go through a word, the others through their digits
  by_cases hexact : n < 2 ^ 53
  · have hw : n.toUInt64.toNat = n := by
      simp
      omega
    have hproduct := isScaled_parts_mul (isScaled_toFloat (w := n.toUInt64) (by omega))
      isScaled_one (by decide) (by decide)
    rw [Float.ofScientific, dif_pos ⟨hexact, by decide⟩]
    exact hproduct.mono (by decide) (by decide)
  · have hdigits := isScaled_parts (isScaled_ofScientific hpos hn) (by decide) (by decide)
    rw [Float.ofScientific, dif_neg (fun h => hexact h.1)]
    exact hdigits.mono (by decide) (by decide)

theorem isNaN_of_isScaled (hx : IsScaled a b (parts x)) : x.isNaN = false := by
  rw [isNaN_eq_parts]
  generalize parts x = u at hx
  cases hx with
  | finite => rfl

/-- A share of something is positive. -/
theorem pos_of_share
    {p n : Nat}
    (hp : 0 < p)
    (hple : p < 2 ^ 64)
    (hn : 0 < n)
    (hnle : n < 2 ^ 64) :
    0.0 < Float.ofNat p / Float.ofNat n * 100.0 := by
  have hquotient := isScaled_parts_div (isScaled_ofNat hp hple) (isScaled_ofNat hn hnle)
    (by decide) (by decide)
  exact pos_of_isScaled (isScaled_parts_mul hquotient isScaled_hundred (by decide) (by decide))

/-- A share of nothing is zero. -/
theorem zero_share
    {n : Nat}
    (hn : 0 < n)
    (hnle : n < 2 ^ 64) :
    Float.ofNat 0 / Float.ofNat n * 100.0 = 0.0 := by
  have hzero : Float.ofNat 0 = 0.0 := by decide
  have hquotient : (0.0 : Float) / Float.ofNat n = 0.0 := by
    change Float.ofModel (.pack (UnpackedFloat.div .binary64 (.zero .positive)
      (parts (Float.ofNat n)))) = 0.0
    have hscaled := isScaled_ofNat hn hnle
    generalize parts (Float.ofNat n) = u at hscaled
    cases hscaled with
    | finite m e hpos =>
        have hdiv : UnpackedFloat.div .binary64 (.zero .positive) (.finite .positive m e hpos) =
            .zero (.positive / .positive) := rfl
        rw [hdiv]
        decide
  rw [hzero, hquotient]
  decide

/-- A share is a number. -/
theorem isNaN_share
    {p n : Nat}
    (hple : p < 2 ^ 64)
    (hn : 0 < n)
    (hnle : n < 2 ^ 64) :
    (Float.ofNat p / Float.ofNat n * 100.0).isNaN = false := by
  rcases Nat.eq_zero_or_pos p with rfl | hp
  · rw [zero_share hn hnle]
    decide
  · have hquotient := isScaled_parts_div (isScaled_ofNat hp hple) (isScaled_ofNat hn hnle)
      (by decide) (by decide)
    exact isNaN_of_isScaled
      (isScaled_parts_mul hquotient isScaled_hundred (by decide) (by decide))

end Floats

end Decimal
end EndpointPayload
