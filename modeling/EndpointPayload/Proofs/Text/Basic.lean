import EndpointPayload.Text.Order
import EndpointPayload.Text.Split
import Mathlib.Tactic

/-!
# Pieces, occurrences and sorted texts

A text without the separator is its only piece, the pieces of a text with their separators make it
up, texts without slashes are the pieces of what they make with slashes between them, and
`Text.occursIn` is occurrence of the characters in a row.  A word without the separator stands in a
text exactly if it stands in one of its pieces.
Erasing repetitions gives a sublist with the same first item; on texts the result has no repetition
at all, so `Text.sorted` lists every text once.
-/

namespace EndpointPayload

namespace Text

theorem splitChars_of_not_mem {separator : Char} :
    ∀ cs : List Char, separator ∉ cs → splitChars separator cs = [cs]
  | [], _ => rfl
  | c :: r, h => by
      rw [List.mem_cons, not_or] at h
      obtain ⟨hc, hr⟩ := h
      simp [splitChars, Ne.symm hc, splitChars_of_not_mem r hr]

/-- A text without the separator is one piece. -/
theorem split_of_not_mem
    {separator : Char}
    {s : String}
    (h : separator ∉ s.toList) :
    split separator s = [s] := by
  simp [split, splitChars_of_not_mem s.toList h]

/-- A first piece before a separator is split off. -/
theorem splitChars_append_cons
    {separator : Char}
    {front : List Char}
    (h : separator ∉ front)
    (rest : List Char) :
    splitChars separator (front ++ separator :: rest) = front :: splitChars separator rest := by
  induction front with
  | nil => simp [splitChars]
  | cons c front ih =>
      rw [List.mem_cons, not_or] at h
      rw [List.cons_append, splitChars, if_neg (Ne.symm h.1), ih h.2]

/-- The pieces on both sides of a separator are the pieces of the whole. -/
theorem splitChars_append
    (separator : Char)
    (front back : List Char) :
    splitChars separator (front ++ separator :: back) =
      splitChars separator front ++ splitChars separator back := by
  induction front with
  | nil => simp [splitChars]
  | cons c front ih =>
      rw [List.cons_append, splitChars, splitChars, ih]
      split
      · rfl
      · cases hsplit : splitChars separator front with
        | nil => exact absurd hsplit (splitChars_ne_nil separator front)
        | cons first others => rfl

theorem split_slash_append (front back : String) :
    split '/' (front ++ "/" ++ back) = split '/' front ++ split '/' back := by
  have hchars : (front ++ "/" ++ back).toList = front.toList ++ '/' :: back.toList := by
    simp
  rw [split, hchars, splitChars_append, List.map_append]
  rfl

/-- A change of characters that keeps the separator, and makes none, changes the pieces. -/
theorem splitChars_map
    {separator : Char}
    {f : Char → Char}
    (hf : ∀ c, f c = separator ↔ c = separator)
    (cs : List Char) :
    splitChars separator (cs.map f) = (splitChars separator cs).map (List.map f) := by
  induction cs with
  | nil => rfl
  | cons c rest ih =>
      simp only [List.map_cons, splitChars, hf c, ih]
      split
      · rfl
      · cases splitChars separator rest <;> rfl

/-- No piece has a separator in it. -/
theorem not_mem_of_mem_splitChars {separator : Char} :
    ∀ {cs piece : List Char}, piece ∈ splitChars separator cs → separator ∉ piece
  | [], piece, h => by
      rw [splitChars, List.mem_singleton] at h
      simp [h]
  | c :: rest, piece, h => by
      rw [splitChars] at h
      split at h
      · rcases List.mem_cons.mp h with rfl | hrest
        · exact List.not_mem_nil
        · exact not_mem_of_mem_splitChars hrest
      · rename_i hc
        cases hsplit : splitChars separator rest with
        | nil => exact absurd hsplit (splitChars_ne_nil separator rest)
        | cons first others =>
            rw [hsplit] at h
            have hpieces : ∀ p ∈ first :: others, separator ∉ p := by
              intro p hp
              rw [← hsplit] at hp
              exact not_mem_of_mem_splitChars hp
            rcases List.mem_cons.mp h with rfl | hother
            · rw [List.mem_cons, not_or]
              exact ⟨Ne.symm hc, hpieces _ List.mem_cons_self⟩
            · exact hpieces _ (List.mem_cons_of_mem _ hother)

/-- The first piece and the others, each behind its separator, make up the text. -/
theorem append_flatMap_of_splitChars {separator : Char} :
    ∀ {cs piece : List Char} {pieces : List (List Char)},
      splitChars separator cs = piece :: pieces →
        piece ++ pieces.flatMap (fun p => separator :: p) = cs
  | [], piece, pieces, h => by
      cases h
      rfl
  | c :: rest, piece, pieces, h => by
      rw [splitChars] at h
      cases hsplit : splitChars separator rest with
      | nil => exact absurd hsplit (splitChars_ne_nil separator rest)
      | cons first others =>
          have hrest := append_flatMap_of_splitChars hsplit
          rw [hsplit] at h
          split at h
          · rename_i hc
            cases h
            rw [List.nil_append, List.flatMap_cons, List.cons_append, hrest, hc]
          · cases h
            rw [List.cons_append, hrest]

/-- A word without the separator stands on one side of it. -/
theorem infix_append_cons_iff
    {separator : Char}
    {word : List Char}
    (hword : separator ∉ word)
    (front back : List Char) :
    word <:+: front ++ separator :: back ↔ word <:+: front ∨ word <:+: back := by
  constructor
  · rintro ⟨before, after, h⟩
    rcases List.append_eq_append_iff.mp h with ⟨rest, hfront, -⟩ | ⟨rest, hword', hback⟩
    · exact .inl ⟨before, rest, hfront.symm⟩
    · cases rest with
      | nil => exact .inl ⟨before, [], by simpa using hword'⟩
      | cons c rest =>
          obtain ⟨rfl, rfl⟩ := List.cons_eq_cons.mp hback
          -- the separator before `rest` is no part of the word, so the word starts behind it
          rcases List.append_eq_append_iff.mp hword' with ⟨part, -, rfl⟩ | ⟨part, -, hpart⟩
          · simp at hword
          · cases part with
            | nil =>
                obtain rfl : separator :: rest = word := hpart
                simp at hword
            | cons d part =>
                obtain ⟨rfl, rfl⟩ := List.cons_eq_cons.mp hpart
                exact .inr ⟨part, after, rfl⟩
  · rintro (h | h)
    · exact h.trans (List.prefix_append front _).isInfix
    · exact h.trans ((List.suffix_cons separator back).trans (List.suffix_append front _)).isInfix

/-- A word without the separator occurs in a text exactly if it occurs in a piece of it. -/
theorem infix_iff_mem_splitChars
    {separator : Char}
    {word : List Char}
    (hword : separator ∉ word)
    (cs : List Char) :
    word <:+: cs ↔ ∃ piece ∈ splitChars separator cs, word <:+: piece := by
  have hpieces : ∀ (pieces : List (List Char)) (piece : List Char),
      word <:+: piece ++ pieces.flatMap (fun p => separator :: p) ↔
        ∃ p ∈ piece :: pieces, word <:+: p := by
    intro pieces
    induction pieces with
    | nil => simp
    | cons next pieces ih =>
        intro piece
        rw [List.flatMap_cons, List.cons_append, infix_append_cons_iff hword, ih next]
        simp
  cases hsplit : splitChars separator cs with
  | nil => exact absurd hsplit (splitChars_ne_nil separator cs)
  | cons piece pieces => rw [← append_flatMap_of_splitChars hsplit, hpieces]

/-- Texts without a slash are the pieces of what they make with slashes between them. -/
theorem split_intercalate_slash :
    ∀ {texts : List String}, texts ≠ [] → (∀ s ∈ texts, '/' ∉ s.toList) →
      split '/' ("/".intercalate texts) = texts
  | [s], _, h => by
      rw [String.intercalate_singleton]
      exact split_of_not_mem (h s List.mem_cons_self)
  | s :: t :: rest, _, h => by
      have hrest := split_intercalate_slash (List.cons_ne_nil t rest)
        fun u hu => h u (List.mem_cons_of_mem _ hu)
      have hchars : ("/".intercalate (s :: t :: rest)).toList =
          s.toList ++ '/' :: ("/".intercalate (t :: rest)).toList := by
        rw [String.intercalate_cons_cons]
        simp
      rw [split] at hrest
      rw [split, hchars, splitChars_append_cons (h s List.mem_cons_self), List.map_cons, hrest,
        String.ofList_toList]

theorem charsOccurIn_iff (part : List Char) :
    ∀ cs : List Char, charsOccurIn part cs = true ↔ part <:+: cs
  | [] => by simp [charsOccurIn]
  | c :: r => by
      simp only [charsOccurIn, Bool.or_eq_true, List.isPrefixOf_iff_prefix, List.infix_cons_iff]
      rw [charsOccurIn_iff part r]

/-- Looking for a text finds it exactly where its characters stand in a row. -/
theorem occursIn_iff (part s : String) : occursIn part s = true ↔ part.toList <:+: s.toList :=
  charsOccurIn_iff part.toList s.toList

end Text

section Repetitions

variable {α : Type} [BEq α]

theorem eraseDups_sublist : ∀ xs : List α, xs.eraseDups.Sublist xs
  | [] => by simp
  | x :: xs => by
      rw [List.eraseDups_cons]
      exact ((eraseDups_sublist (xs.filter fun y => !y == x)).trans List.filter_sublist).cons_cons x
termination_by xs => xs.length
decreasing_by
  exact Nat.lt_succ_of_le (List.length_filter_le _ _)

/-- Only the empty list has nothing left without its repetitions. -/
theorem eraseDups_eq_nil (xs : List α) : xs.eraseDups = [] ↔ xs = [] := by
  cases xs with
  | nil => simp
  | cons x xs => simp [List.eraseDups_cons]

/-- The first item is no repetition. -/
theorem head?_eraseDups (xs : List α) : xs.eraseDups.head? = xs.head? := by
  cases xs with
  | nil => simp
  | cons x xs => simp [List.eraseDups_cons]

theorem nodup_eraseDups [LawfulBEq α] : ∀ xs : List α, xs.eraseDups.Nodup
  | [] => by simp
  | x :: xs => by
      rw [List.eraseDups_cons, List.nodup_cons]
      refine ⟨?_, nodup_eraseDups _⟩
      simp [List.mem_eraseDups]
termination_by xs => xs.length
decreasing_by
  exact Nat.lt_succ_of_le (List.length_filter_le _ _)

end Repetitions

namespace Text

@[simp] theorem mem_sorted (s : String) (texts : List String) :
    s ∈ sorted texts ↔ s ∈ texts := by
  simp [sorted, List.mem_mergeSort]

theorem nodup_sorted (texts : List String) : (sorted texts).Nodup :=
  (List.mergeSort_perm _ _).nodup_iff.mpr (nodup_eraseDups texts)

end Text
end EndpointPayload
