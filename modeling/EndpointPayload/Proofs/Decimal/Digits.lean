import EndpointPayload.Decimal.Numeral
import Mathlib.Tactic

/-!
# Numerals of a fixed width

`Decimal.IsNumeral` says that so many digits denote a number.  Digits in a row are the digits in
front, moved up by the places behind them, and the digits behind; so a numeral can be cut at any
place, and the number of a cut numeral is a quotient.
-/

namespace EndpointPayload
namespace Decimal

/-- Digits, so many of them, that denote a number. -/
structure IsNumeral (width : Nat) (digits : List Char) (n : Nat) : Prop where
  length_eq : digits.length = width
  areDigits : ∀ c ∈ digits, c.isDigit = true
  value : ofDigits digits = n

section Digits

variable {width back n m : Nat} {digits front rest : List Char} {c : Char}

theorem ofDigits_eq (digits : List Char) : ofDigits digits = Nat.ofDigitChars 10 digits 0 := by
  rw [Nat.ofDigitChars_eq_foldl, ofDigits]
  simp only [mul_comm 10]
  rfl

theorem ofDigits_append (front rest : List Char) :
    ofDigits (front ++ rest) = 10 ^ rest.length * ofDigits front + ofDigits rest := by
  rw [ofDigits_eq, Nat.ofDigitChars_append, Nat.ofDigitChars_eq_ofDigitChars_zero, ← ofDigits_eq,
    ← ofDigits_eq]

theorem ofDigits_lt (h : ∀ c ∈ digits, c.isDigit = true) :
    ofDigits digits < 10 ^ digits.length := by
  induction digits using List.reverseRecOn with
  | nil => simp [ofDigits]
  | append_singleton front c ih =>
      have hfront := ih fun d hd => h d (List.mem_append_left _ hd)
      have hc : c.isDigit = true := h c (by simp)
      have hnine : c.toNat ≤ 57 := (Char.isDigit_iff_toNat.mp hc).2
      have hlast : ofDigits [c] = c.toNat - 48 := by simp [ofDigits]
      rw [ofDigits_append, hlast, List.length_append, List.length_singleton, pow_succ]
      omega

theorem IsNumeral.append
    (hfront : IsNumeral width front n)
    (hrest : IsNumeral back rest m) :
    IsNumeral (width + back) (front ++ rest) (10 ^ back * n + m) where
  length_eq := by rw [List.length_append, hfront.length_eq, hrest.length_eq]
  areDigits := by
    intro c hc
    rcases List.mem_append.mp hc with hc | hc
    · exact hfront.areDigits c hc
    · exact hrest.areDigits c hc
  value := by rw [ofDigits_append, hfront.value, hrest.value, hrest.length_eq]

/-- A numeral can be cut at any place. -/
theorem IsNumeral.exists_append (h : IsNumeral (width + back) digits n) :
    ∃ front rest m k, digits = front ++ rest ∧ IsNumeral width front m ∧ IsNumeral back rest k ∧
      n = 10 ^ back * m + k := by
  have hlength := h.length_eq
  have hrest : (digits.drop width).length = back := by rw [List.length_drop]; omega
  refine ⟨digits.take width, digits.drop width, _, _, (List.take_append_drop width digits).symm,
    ⟨?_, ?_, rfl⟩, ⟨hrest, ?_, rfl⟩, ?_⟩
  · rw [List.length_take]
    omega
  · exact fun c hc => h.areDigits c (List.mem_of_mem_take hc)
  · exact fun c hc => h.areDigits c (List.mem_of_mem_drop hc)
  · rw [← h.value, ← hrest, ← ofDigits_append, List.take_append_drop]

/-- A numeral with a width has a first digit. -/
theorem IsNumeral.exists_cons (h : IsNumeral width digits n) (hwidth : 0 < width) :
    ∃ c rest, digits = c :: rest ∧ c.isDigit = true := by
  cases digits with
  | nil =>
      have hlength := h.length_eq
      simp only [List.length_nil] at hlength
      omega
  | cons c rest => exact ⟨c, rest, rfl, h.areDigits c List.mem_cons_self⟩

/-- Before another character, the digits at the front of a text are the numeral. -/
theorem IsNumeral.takeWhile_append
    (h : IsNumeral width digits n)
    (hrest : ∀ c ∈ rest.head?, c.isDigit = false) :
    (digits ++ rest).takeWhile Char.isDigit = digits := by
  rw [List.takeWhile_append_of_pos h.areDigits]
  cases rest with
  | nil => simp
  | cons c rest => simp [hrest c rfl]

theorem IsNumeral.dropWhile_append
    (h : IsNumeral width digits n)
    (hrest : ∀ c ∈ rest.head?, c.isDigit = false) :
    (digits ++ rest).dropWhile Char.isDigit = rest := by
  rw [List.dropWhile_append_of_pos h.areDigits]
  cases rest with
  | nil => rfl
  | cons c rest => simp [hrest c rfl]

end Digits

end Decimal
end EndpointPayload
