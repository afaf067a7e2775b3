import EndpointPayload.Decimal.Order
import Mathlib

/-!
# Bits of a float and its order

A float is a sign, eleven bits for the exponent and fifty-two for the mantissa.  Below the sign the
bits, read as one number, grow with the value.  So `Decimal.rank` orders all floats but NaN as the
comparison of numbers does, and comparisons of such floats have no gaps.  `Decimal.place` puts a
float in its place by sign, exponent and mantissa, which makes being below transitive.

The last section is about quotients: nothing divided by anything is never positive.
-/

namespace EndpointPayload
namespace Decimal

open Float.Model Float.Model.UnpackedFloat

/-- What a float stands for: zero, infinity, no number, or a mantissa with an exponent. -/
def parts (x : Float) : UnpackedFloat := unpack .binary64 x.toBits.toBitVec

theorem le_iff_parts (a b : Float) : a ≤ b ↔ (parts a).le (parts b) = true :=
  decide_eq_true_iff

theorem lt_iff_parts (a b : Float) : a < b ↔ (parts a).lt (parts b) = true :=
  decide_eq_true_iff

theorem isNaN_eq_parts (x : Float) : x.isNaN = (parts x).isNaN := rfl

section Fields

theorem biased_eq (e : Int) :
    e + Format.binary64.exponentBias + Format.binary64.mantissaBitsWithoutImplicit = e + 1075 := by
  have hvalue : (Format.binary64.exponentBias : Int) = 1023 := rfl
  have hbits : (Format.binary64.mantissaBitsWithoutImplicit : Int) = 52 := rfl
  rw [hvalue, hbits]
  omega

variable (b : BitVec Format.binary64.numBits)

theorem toNat_unpackMantissa : (unpackMantissa b).toNat = b.toNat % 2 ^ 52 := by
  simp [unpackMantissa]

theorem toNat_unpackExponent : (unpackExponent b).toNat = b.toNat / 2 ^ 52 % 2 ^ 11 := by
  simp [unpackExponent, Nat.shiftRight_eq_div_pow]

theorem toNat_unpackSign : (unpackSign b).toNat = b.toNat / 2 ^ 63 := by
  have hb : b.toNat < 2 ^ 64 := b.isLt
  simp [unpackSign, Nat.shiftRight_eq_div_pow]
  omega

/-- The sign of a word of 64 bits. -/
def signOf (n : Nat) : Sign := if n < 2 ^ 63 then .positive else .negative

theorem ofBitVec_unpackSign : Sign.ofBitVec (unpackSign b) = signOf b.toNat := by
  have hb : b.toNat < 2 ^ 64 := b.isLt
  have hs := toNat_unpackSign b
  unfold Sign.ofBitVec signOf
  by_cases h : b.toNat < 2 ^ 63
  · have hzero : unpackSign b = 0#1 := by
      apply BitVec.eq_of_toNat_eq
      rw [hs]
      simp
      omega
    rw [if_pos hzero, if_pos h]
  · have hone : unpackSign b ≠ 0#1 := by
      intro hc
      have := congrArg BitVec.toNat hc
      rw [hs] at this
      simp at this
      omega
    rw [if_neg hone, if_neg h]

/-- What a sign, with the number `n` of the bits below it, can stand for. -/
inductive Unpacked (s : Sign) (n : Nat) : UnpackedFloat → Prop
  | notANumber : Unpacked s n .notANumber
  | infinity (h : n = 2047 * 2 ^ 52) : Unpacked s n (.infinity s)
  | zero (h : n = 0) : Unpacked s n (.zero s)
  | finite (m : Nat) (e : Int) (h : 0 < m)
      (hn : (n : Int) = (e + 1074) * 2 ^ 52 + m)
      (helo : -1074 ≤ e) (hehi : e ≤ 971)
      (hlead : e = -1074 ∨ 2 ^ 52 ≤ m) (hm : m < 2 ^ 53) :
      Unpacked s n (.finite s m e h)

theorem unpacked_unpack :
    Unpacked (signOf b.toNat) (b.toNat % 2 ^ 63) (unpack .binary64 b) := by
  have hM := toNat_unpackMantissa b
  have hE := toNat_unpackExponent b
  have hb : b.toNat < 2 ^ 64 := b.isLt
  have hbias : ((Format.binary64.exponentBias : Nat) : Int) = 1023 := rfl
  have hbits : ((Format.binary64.mantissaBitsWithoutImplicit : Nat) : Int) = 52 := rfl
  rw [← ofBitVec_unpackSign, UnpackedFloat.unpack]
  split
  case isTrue htop =>
      have htop' : (unpackExponent b).toNat = 2047 := by rw [htop]; rfl
      split
      case isTrue hzero =>
          have hzero' : (unpackMantissa b).toNat = 0 := by rw [hzero]; rfl
          exact .infinity (by omega)
      case isFalse => exact .notANumber
  case isFalse htop =>
      have htop' : (unpackExponent b).toNat ≠ 2047 :=
        fun hc => htop (BitVec.eq_of_toNat_eq hc)
      have hmlt : (unpackMantissa b).toNat < 2 ^ 52 := (unpackMantissa b).isLt
      have helt : (unpackExponent b).toNat < 2 ^ 11 := (unpackExponent b).isLt
      split
      case isTrue hbot =>
          have hbot' : (unpackExponent b).toNat = 0 := by rw [hbot]; rfl
          split
          case isTrue hzero =>
              have hzero' : (unpackMantissa b).toNat = 0 := by rw [hzero]; rfl
              exact .zero (by omega)
          case isFalse hzero =>
              have he : ((unpackExponent b).toNat : Int) -
                  (Format.binary64.exponentBias +
                    Format.binary64.mantissaBitsWithoutImplicit) + 1 = -1074 := by
                rw [hbot', hbias, hbits]
                rfl
              simp only [he]
              exact .finite _ _ _ (by omega) (by omega) (by omega) (.inl rfl) (by omega)
      case isFalse hbot =>
          have hbot' : (unpackExponent b).toNat ≠ 0 :=
            fun hc => hbot (BitVec.eq_of_toNat_eq hc)
          -- A normal number has one more bit in front of its mantissa.
          have hm : (1#1 ++ unpackMantissa b).toNat = 2 ^ 52 + (unpackMantissa b).toNat := by
            rw [BitVec.toNat_append, ← Nat.shiftLeft_add_eq_or_of_lt (unpackMantissa b).isLt]
            simp [Nat.shiftLeft_eq]
          refine .finite _ _ _ ?_ ?_ ?_ (.inr (by omega)) (by omega) <;>
            rw [hbias, hbits] <;> omega

end Fields

/-- The bits of a float below its sign as a number. -/
def magnitude (x : Float) : Nat := x.toBits.toNat % 2 ^ 63

theorem unpacked_parts (x : Float) :
    Unpacked (signOf x.toBits.toNat) (magnitude x) (parts x) :=
  unpacked_unpack x.toBits.toBitVec

theorem rank_of_positive {x : Float} (h : signOf x.toBits.toNat = .positive) :
    rank x = magnitude x := by
  have hlt : x.toBits.toNat < 2 ^ 63 := by
    by_contra hc
    rw [signOf, if_neg hc] at h
    cases h
  rw [rank, magnitude, if_pos (show _ < Nat.pow 2 63 from hlt)]
  omega

theorem rank_of_negative {x : Float} (h : signOf x.toBits.toNat = .negative) :
    rank x = -1 - magnitude x := by
  have hb : x.toBits.toNat < 2 ^ 64 := x.toBits.toNat_lt
  have hge : ¬ x.toBits.toNat < 2 ^ 63 := by
    intro hc
    rw [signOf, if_pos hc] at h
    cases h
  rw [rank, magnitude, if_neg (show ¬ _ < Nat.pow 2 63 from hge)]
  omega

theorem then_compare_swap (e f : Int) (m k : Nat) :
    ((compare e f).then (compare m k)).swap = (compare f e).then (compare k m) := by
  rw [Ordering.swap_then, Int.compare_swap, Nat.compare_swap]

/-- Of two finite magnitudes the exponents decide, and then the mantissas. -/
theorem isLE_compare_finite {m k : Nat} {e f : Int}
    (h : (e + 1074) * 2 ^ 52 + m ≤ (f + 1074) * 2 ^ 52 + k)
    (hm : m < 2 ^ 53) (hk : k < 2 ^ 53)
    (he : e = -1074 ∨ 2 ^ 52 ≤ m) (hf : -1074 ≤ f) :
    ((compare e f).then (compare m k)).isLE = true := by
  rcases lt_trichotomy e f with hlt | rfl | hgt
  · simp [compare_lt_iff_lt.2 hlt]
  · simp only [compare_eq_iff_eq.2 rfl, Ordering.then]
    rw [Nat.isLE_compare]
    omega
  · omega

/-- Among numbers of one sign the magnitudes decide. -/
theorem le_of_magnitude_le {s : Sign} {n k : Nat} {u v : UnpackedFloat}
    (hu : Unpacked s n u) (hv : Unpacked s k v)
    (hu' : u.isNaN = false) (hv' : v.isNaN = false)
    (h : n ≤ k) :
    match s with
    | .positive => u.le v = true
    | .negative => v.le u = true := by
  cases hu with
  | notANumber => simp [UnpackedFloat.isNaN] at hu'
  | infinity hn =>
      cases hv with
      | notANumber => simp [UnpackedFloat.isNaN] at hv'
      | infinity => cases s <;> rfl
      | zero hk => omega
      | finite => omega
  | zero hn => cases hv <;> cases s <;> first | rfl | simp [UnpackedFloat.isNaN] at hv'
  | finite m e hpos hn helo hehi hlead hm =>
      cases hv with
      | notANumber => simp [UnpackedFloat.isNaN] at hv'
      | infinity => cases s <;> rfl
      | zero hk => omega
      | finite k' f hpos' hk helo' hehi' hlead' hk' =>
          have hle := isLE_compare_finite (by omega) hm hk' hlead helo'
          cases s with
          | positive => simpa [UnpackedFloat.le, UnpackedFloat.compare] using hle
          | negative =>
              simp only [UnpackedFloat.le, UnpackedFloat.compare, Option.any_some]
              rw [← then_compare_swap]
              simpa using hle

theorem le_of_negative_positive {n k : Nat} {u v : UnpackedFloat}
    (hu : Unpacked .negative n u) (hv : Unpacked .positive k v)
    (hu' : u.isNaN = false) (hv' : v.isNaN = false) : u.le v = true := by
  cases hu <;> cases hv <;> first | rfl | simp [UnpackedFloat.isNaN] at hu' hv'

/-- The total order agrees with the comparison of numbers. -/
theorem le_of_rank_le {a b : Float}
    (ha : a.isNaN = false) (hb : b.isNaN = false)
    (h : rank a ≤ rank b) : a ≤ b := by
  rw [le_iff_parts]
  rw [isNaN_eq_parts] at ha hb
  have hA := unpacked_parts a
  have hB := unpacked_parts b
  cases hsa : signOf a.toBits.toNat with
  | positive =>
      rw [rank_of_positive hsa] at h
      cases hsb : signOf b.toBits.toNat with
      | positive =>
          rw [rank_of_positive hsb] at h
          rw [hsa] at hA
          rw [hsb] at hB
          exact le_of_magnitude_le hA hB ha hb (by omega)
      | negative =>
          rw [rank_of_negative hsb] at h
          omega
  | negative =>
      rw [rank_of_negative hsa] at h
      rw [hsa] at hA
      cases hsb : signOf b.toBits.toNat with
      | positive =>
          rw [hsb] at hB
          exact le_of_negative_positive hA hB ha hb
      | negative =>
          rw [rank_of_negative hsb] at h
          rw [hsb] at hB
          exact le_of_magnitude_le hB hA hb ha (by omega)

theorem le_of_descending {a b : Float}
    (ha : a.isNaN = false) (hb : b.isNaN = false)
    (h : descending a b = true) : b ≤ a :=
  le_of_rank_le hb ha (of_decide_eq_true h)

/-- Each float has a place of its own in the total order. -/
theorem eq_of_rank_eq {a b : Float} (h : rank a = rank b) : a = b := by
  have ha := a.toBits.toNat_lt
  have hb := b.toBits.toNat_lt
  have hnat : a.toBits.toNat = b.toBits.toNat := by
    simp only [rank, show Nat.pow 2 63 = 9223372036854775808 from rfl] at h
    split at h <;> split at h <;> omega
  have hbits : a.toBits = b.toBits := UInt64.toNat_inj.mp hnat
  obtain ⟨⟨bits, hvalid⟩⟩ := a
  obtain ⟨⟨bits', hvalid'⟩⟩ := b
  obtain rfl : bits = bits' := hbits
  rfl

theorem compare_sign_swap (s t : Sign) : (compare s t).swap = compare t s := by
  cases s <;> cases t <;> rfl

/-- The answer of a comparison the other way round. -/
theorem compare_swap (u v : UnpackedFloat) :
    v.compare u = (u.compare v).map Ordering.swap := by
  cases u with
  | notANumber => cases v <;> rfl
  | infinity s =>
      cases v with
      | infinity t => exact congrArg some (compare_sign_swap s t).symm
      | notANumber => cases s <;> rfl
      | zero t => cases s <;> rfl
      | finite t => cases s <;> cases t <;> rfl
  | zero s =>
      cases v with
      | infinity t => cases t <;> rfl
      | notANumber => rfl
      | zero t => rfl
      | finite t => cases t <;> rfl
  | finite s m e =>
      cases v with
      | infinity t => cases s <;> cases t <;> rfl
      | notANumber => cases s <;> rfl
      | zero t => cases s <;> rfl
      | finite t k f =>
          cases s <;> cases t <;>
            simp [UnpackedFloat.compare, then_compare_swap]

theorem compare_ne_none {u v : UnpackedFloat}
    (hu : u.isNaN = false) (hv : v.isNaN = false) : u.compare v ≠ none := by
  intro h
  rw [UnpackedFloat.compare.eq_def] at h
  split at h
  case h_1 => simp [UnpackedFloat.isNaN] at hu
  case h_2 => simp [UnpackedFloat.isNaN] at hv
  all_goals cases h

/-- Of two numbers one is not below the other. -/
theorem le_of_not_lt {a b : Float}
    (ha : a.isNaN = false) (hb : b.isNaN = false)
    (h : ¬ a < b) : b ≤ a := by
  rw [lt_iff_parts, UnpackedFloat.lt] at h
  rw [le_iff_parts, UnpackedFloat.le, compare_swap]
  cases hc : (parts a).compare (parts b) with
  | none => exact absurd hc (compare_ne_none ha hb)
  | some o =>
      rw [hc] at h
      cases o <;> simp at h ⊢

section Places

/-- The place of a float among the numbers: the sign decides, then the exponent, then the
mantissa. -/
@[simp] def place : UnpackedFloat → ℤ ×ₗ ℤ ×ₗ ℤ
  | .infinity .negative => toLex (-2, toLex (0, 0))
  | .finite .negative m e _ => toLex (-1, toLex (-e, -m))
  | .finite .positive m e _ => toLex (1, toLex (e, m))
  | .infinity .positive => toLex (2, toLex (0, 0))
  | _ => toLex (0, toLex (0, 0))

theorem then_compare_eq_lt_iff (e f : Int) (m k : Nat) :
    (compare e f).then (compare m k) = .lt ↔ e < f ∨ e = f ∧ m < k := by
  rw [Ordering.then_eq_lt, compare_lt_iff_lt, compare_eq_iff_eq, compare_lt_iff_lt]

theorem then_compare_eq_gt_iff (e f : Int) (m k : Nat) :
    (compare e f).then (compare m k) = .gt ↔ f < e ∨ e = f ∧ k < m := by
  rw [Ordering.then_eq_gt, compare_gt_iff_gt, compare_eq_iff_eq, compare_gt_iff_gt]

/-- A number is below another one if its place is. -/
theorem compare_eq_lt_iff {u v : UnpackedFloat} :
    u.compare v = some .lt ↔ u.isNaN = false ∧ v.isNaN = false ∧ place u < place v := by
  cases u with
  | notANumber => cases v <;> simp [UnpackedFloat.compare, UnpackedFloat.isNaN]
  | zero s =>
      cases v with
      | infinity t => cases t <;>
          simp [UnpackedFloat.compare, UnpackedFloat.isNaN, Prod.Lex.toLex_lt_toLex]
      | finite t => cases t <;>
          simp [UnpackedFloat.compare, UnpackedFloat.isNaN, Prod.Lex.toLex_lt_toLex]
      | _ => simp [UnpackedFloat.compare, UnpackedFloat.isNaN]
  | infinity s =>
      cases v with
      | infinity t => cases s <;> cases t <;> decide
      | finite t => cases s <;> cases t <;>
          simp [UnpackedFloat.compare, UnpackedFloat.isNaN, Prod.Lex.toLex_lt_toLex]
      | _ => cases s <;> simp [UnpackedFloat.compare, UnpackedFloat.isNaN, Prod.Lex.toLex_lt_toLex]
  | finite s m e =>
      cases v with
      | infinity t => cases s <;> cases t <;>
          simp [UnpackedFloat.compare, UnpackedFloat.isNaN, Prod.Lex.toLex_lt_toLex]
      | finite t k f =>
          cases s <;> cases t <;>
            simp [UnpackedFloat.compare, UnpackedFloat.isNaN, Prod.Lex.toLex_lt_toLex,
              then_compare_eq_lt_iff, then_compare_eq_gt_iff]
      | _ => cases s <;> simp [UnpackedFloat.compare, UnpackedFloat.isNaN, Prod.Lex.toLex_lt_toLex]

theorem lt_trans {a b c : Float} (hab : a < b) (hbc : b < c) : a < c := by
  rw [lt_iff_parts, UnpackedFloat.lt, beq_iff_eq, compare_eq_lt_iff] at *
  exact ⟨hab.1, hbc.2.1, hab.2.2.trans hbc.2.2⟩

theorem lt_irrefl (a : Float) : ¬ a < a := by
  rw [lt_iff_parts, UnpackedFloat.lt, beq_iff_eq, compare_eq_lt_iff]
  exact fun h => h.2.2.false

end Places

section Quotients

/-- Zero divided by a float is a zero, or no number where there is no quotient. -/
theorem zero_div (y : Float) :
    (0.0 : Float) / y = 0.0 ∨ (0.0 : Float) / y = -0.0 ∨ (0.0 : Float) / y = 0.0 / 0.0 := by
  have hdiv : (0.0 : Float) / y =
      .ofModel (.pack (UnpackedFloat.div .binary64 (.zero .positive) (parts y))) := rfl
  rw [hdiv]
  cases parts y with
  | notANumber => right; right; decide
  | zero s => right; right; cases s <;> decide
  | infinity s => cases s <;> decide
  | finite s m e h =>
      have hquotient : UnpackedFloat.div .binary64 (.zero .positive) (.finite s m e h) =
          .zero (.positive / s) := rfl
      rw [hquotient]
      cases s <;> decide

/-- A share of nothing is not positive. -/
theorem not_pos_of_zero_share (n : Nat) :
    ¬ 0.0 < Float.ofNat 0 / Float.ofNat n * 100.0 := by
  have hzero : Float.ofNat 0 = 0.0 := by decide
  rw [hzero]
  rcases zero_div (Float.ofNat n) with h | h | h <;> rw [h] <;> decide

end Quotients

end Decimal
end EndpointPayload
