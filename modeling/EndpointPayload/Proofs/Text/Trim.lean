import EndpointPayload.Text.Blank
import Mathlib.Data.List.DropRight
import Mathlib.Data.List.TakeWhile
import Mathlib.Tactic

/-!
# Trimmed texts

Trimming stops at the first character that is not blank, on either side, and leaves all behind it as
it is.  So a text with such characters at its ends keeps its place in any text that it is put into,
and only what stands in front of it and behind it is trimmed.
-/

namespace EndpointPayload

section Drop

variable {α : Type} {p : α → Bool} {c : α}

/-- Dropping stops at a character that is to be kept. -/
theorem dropWhile_append_cons
    (hc : p c = false)
    (front back : List α) :
    (front ++ c :: back).dropWhile p = front.dropWhile p ++ c :: back := by
  rw [List.dropWhile_append, List.dropWhile_cons_of_neg (by simp [hc])]
  split
  · rename_i hempty
    rw [List.isEmpty_iff.mp hempty, List.nil_append]
  · rfl

theorem rdropWhile_append_cons
    (hc : p c = false)
    (front back : List α) :
    (front ++ c :: back).rdropWhile p = front ++ c :: back.rdropWhile p := by
  simp [List.rdropWhile, dropWhile_append_cons hc]

end Drop

namespace Text

variable {c : Char} {cs front : List Char}

theorem trimStart_append_cons
    (hc : isBlank c = false)
    (front back : List Char) :
    trimStart (front ++ c :: back) = trimStart front ++ c :: back :=
  dropWhile_append_cons hc front back

theorem trimEnd_append_cons
    (hc : isBlank c = false)
    (front back : List Char) :
    trimEnd (front ++ c :: back) = front ++ c :: trimEnd back :=
  rdropWhile_append_cons hc front back

theorem trimStart_cons
    (hc : isBlank c = false)
    (back : List Char) :
    trimStart (c :: back) = c :: back :=
  trimStart_append_cons hc [] back

theorem trimEnd_concat
    (hc : isBlank c = false)
    (front : List Char) :
    trimEnd (front ++ [c]) = front ++ [c] :=
  trimEnd_append_cons hc front []

theorem trimStart_of_blank (h : ∀ c ∈ cs, isBlank c = true) : trimStart cs = [] :=
  List.dropWhile_eq_nil_iff.mpr h

theorem trimEnd_of_blank (h : ∀ c ∈ cs, isBlank c = true) : trimEnd cs = [] :=
  List.rdropWhile_eq_nil_iff.mpr h

theorem trimStart_append_of_blank
    (h : ∀ c ∈ front, isBlank c = true)
    (cs : List Char) :
    trimStart (front ++ cs) = trimStart cs :=
  List.dropWhile_append_of_pos h

/-- A trimmed text starts with a character that is not blank. -/
theorem not_isBlank_of_trimStart
    {rest : List Char}
    (h : trimStart cs = c :: rest) :
    isBlank c = false := by
  have hhead := List.head?_dropWhile_not isBlank cs
  rw [show cs.dropWhile isBlank = c :: rest from h] at hhead
  exact hhead

/-- A trimmed text ends with a character that is not blank. -/
theorem not_isBlank_of_trimEnd
    (h : trimEnd cs = front ++ [c]) :
    isBlank c = false := by
  have hreverse : trimStart cs.reverse = c :: front.reverse := by
    rw [← List.reverse_inj, List.reverse_cons, List.reverse_reverse]
    exact h
  exact not_isBlank_of_trimStart hreverse

theorem trimStart_suffix (cs : List Char) : trimStart cs <:+ cs := List.dropWhile_suffix isBlank

theorem trimEnd_prefix (cs : List Char) : trimEnd cs <+: cs := List.rdropWhile_prefix isBlank cs

end Text
end EndpointPayload
