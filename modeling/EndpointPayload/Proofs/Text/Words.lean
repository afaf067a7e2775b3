import EndpointPayload.Proofs.Text.Basic
import EndpointPayload.Proofs.Text.Trim
import Mathlib

/-!
# Words in trimmed texts

A word without blanks occurs in a text exactly if it occurs in the trimmed text, also when both are
compared in lower case: lower case turns no character into a blank and no blank into another
character.
-/

namespace EndpointPayload

section Infix

variable {α : Type} {p : α → Bool} {word front back cs : List α}

/-- A word has nothing of what stands in front of the rest, if it has none of those items. -/
theorem infix_append_left_iff
    (hne : word ≠ [])
    (hword : ∀ c ∈ word, p c = false)
    (hfront : ∀ c ∈ front, p c = true) :
    word <:+: front ++ cs ↔ word <:+: cs := by
  induction front with
  | nil => rfl
  | cons c front ih =>
      have hc : p c = true := hfront c List.mem_cons_self
      have hstart : ¬ word <+: c :: (front ++ cs) := by
        intro hprefix
        obtain ⟨d, rest, rfl⟩ := List.exists_cons_of_ne_nil hne
        obtain ⟨rfl, -⟩ := List.cons_prefix_cons.mp hprefix
        have hd := hword d List.mem_cons_self
        rw [hc] at hd
        cases hd
      rw [List.cons_append, List.infix_cons_iff, or_iff_right hstart]
      exact ih fun d hd => hfront d (List.mem_cons_of_mem c hd)

theorem infix_append_right_iff
    (hne : word ≠ [])
    (hword : ∀ c ∈ word, p c = false)
    (hback : ∀ c ∈ back, p c = true) :
    word <:+: cs ++ back ↔ word <:+: cs := by
  have hleft : word.reverse <:+: back.reverse ++ cs.reverse ↔ word.reverse <:+: cs.reverse :=
    infix_append_left_iff (by simpa using hne) (fun c hc => hword c (List.mem_reverse.mp hc))
      fun c hc => hback c (List.mem_reverse.mp hc)
  rw [← List.reverse_append, List.reverse_infix, List.reverse_infix] at hleft
  exact hleft

end Infix

namespace Text

/-- Lower case keeps blanks and makes none. -/
theorem isBlank_toLower (c : Char) : isBlank c.toLower = isBlank c := by
  by_cases hupper : c.val ≥ 'A'.val ∧ c.val ≤ 'Z'.val
  · have hlow : 65 ≤ c.toNat := hupper.1
    have hhigh : c.toNat ≤ 90 := hupper.2
    have hlower : c.toLower.toNat = c.toNat + 32 := by
      rw [Char.toLower, dif_pos hupper]
      change (c.val + 32).toNat = c.val.toNat + 32
      have hval : c.val.toNat ≤ 90 := hhigh
      rw [UInt32.toNat_add]
      exact Nat.mod_eq_of_lt (by change c.val.toNat + 32 < 2 ^ 32; omega)
    simp only [isBlank, blankRanges, hlower, List.any_cons, List.any_nil]
    grind
  · rw [Char.toLower, dif_neg hupper]

/-- A text is its trimmed text between blanks. -/
theorem exists_trim (s : String) :
    ∃ front back : List Char, s.toList = front ++ (trim s).toList ++ back ∧
      (∀ c ∈ front, isBlank c = true) ∧ ∀ c ∈ back, isBlank c = true := by
  refine ⟨s.toList.takeWhile isBlank, (trimStart s.toList).rtakeWhile isBlank, ?_, ?_, ?_⟩
  · have hback : trimEnd (trimStart s.toList) ++ (trimStart s.toList).rtakeWhile isBlank =
        trimStart s.toList := List.rdropWhile_append_rtakeWhile
    rw [trim, String.toList_ofList, List.append_assoc, hback]
    exact (List.takeWhile_append_dropWhile).symm
  · exact fun c hc => List.mem_takeWhile_imp hc
  · exact fun c hc => List.mem_rtakeWhile_imp hc

/-- A word without blanks occurs in a text if it occurs in the trimmed text, in lower case. -/
theorem occursIn_lower_trim
    {word : String}
    (hne : word.toList ≠ [])
    (hword : ∀ c ∈ word.toList, isBlank c = false)
    (s : String) :
    occursIn word (lower s) = occursIn word (lower (trim s)) := by
  obtain ⟨front, back, hs, hfront, hback⟩ := exists_trim s
  have hlower : ∀ cs : List Char, (∀ c ∈ cs, isBlank c = true) →
      ∀ c ∈ cs.map Char.toLower, isBlank c = true := by
    intro cs hcs c hc
    obtain ⟨d, hd, rfl⟩ := List.mem_map.mp hc
    rw [isBlank_toLower]
    exact hcs d hd
  rw [Bool.eq_iff_iff, occursIn_iff, occursIn_iff, lower, lower, String.toList_map,
    String.toList_map, hs, List.map_append, List.map_append,
    infix_append_right_iff hne hword (hlower back hback),
    infix_append_left_iff hne hword (hlower front hfront)]

end Text
end EndpointPayload
