import EndpointPayload.Proofs.Decimal.Order
import EndpointPayload.Store.Suggestion

/-!
# Ranked suggestions

The ids found in the collections of a store are put into one list, sorted by their confidence and
cut off.  An id that a document refers to is surer than all others, whatever collection it is from,
so such ids go first, in the order of the collections, and others are kept only where no such id is
dropped.
-/

namespace EndpointPayload

section Lists

variable {α : Type} {p : α → Bool} {xs : List α}

/-- Of a list with the chosen items in front, a part in front has the first of them. -/
theorem filter_take_of_pairwise
    (h : xs.Pairwise fun a b => p b = true → p a = true)
    (n : Nat) :
    (xs.take n).filter p = (xs.filter p).take n := by
  induction xs generalizing n with
  | nil => simp
  | cons x xs ih =>
      obtain ⟨hx, hxs⟩ := List.pairwise_cons.mp h
      cases n with
      | zero => simp
      | succ n =>
          cases hp : p x with
          | true =>
              rw [List.take_succ_cons, List.filter_cons_of_pos hp, List.filter_cons_of_pos hp,
                List.take_succ_cons, ih hxs]
          | false =>
              have hnone : ∀ y ∈ x :: xs, ¬ p y = true := by
                intro y hy hpy
                rcases List.mem_cons.mp hy with rfl | hy
                · simp [hp] at hpy
                · simp [hx y hy hpy] at hp
              rw [List.filter_eq_nil_iff.mpr hnone, List.take_nil, List.filter_eq_nil_iff]
              exact fun y hy => hnone y (List.mem_of_mem_take hy)

/-- Sorting keeps the order of items that are all as good as each other. -/
theorem filter_mergeSort
    {le : α → α → Bool}
    (htrans : ∀ a b c, le a b = true → le b c = true → le a c = true)
    (htotal : ∀ a b, (le a b || le b a) = true)
    (h : ∀ a ∈ xs, ∀ b ∈ xs, p a = true → p b = true → le a b = true) :
    (xs.mergeSort le).filter p = xs.filter p := by
  have hsorted : (xs.filter p).Pairwise fun a b => le a b = true := by
    refine List.pairwise_of_forall_mem_list fun a ha b hb => ?_
    obtain ⟨ha, hpa⟩ := List.mem_filter.mp ha
    obtain ⟨hb, hpb⟩ := List.mem_filter.mp hb
    exact h a ha b hb hpa hpb
  -- Sorting is stable, so the chosen items stay in order, and it drops none of them.
  have hsublist := (List.sublist_mergeSort htrans htotal hsorted List.filter_sublist).filter p
  rw [List.filter_filter, List.filter_congr fun a _ => Bool.and_self (p a)] at hsublist
  exact (hsublist.eq_of_length ((List.mergeSort_perm xs le).filter p).length_eq.symm).symm

end Lists

namespace Suggestion

/-- A suggestion with one of the three confidences that there are. -/
def IsGraded (s : Suggestion) : Prop :=
  s.confidence ∈ [referenced, besideReferenced, unreferenced]

theorem IsGraded.isNaN_eq
    {s : Suggestion}
    (h : s.IsGraded) :
    s.confidence.isNaN = false := by
  have hgrades : ∀ x ∈ [referenced, besideReferenced, unreferenced], x.isNaN = false := by
    decide
  exact hgrades _ h

/-- Before another suggestion in falling order of confidence. -/
def mayPrecede (a b : Suggestion) : Bool := Decimal.descending a.confidence b.confidence

/-- Only ids that documents refer to have the highest confidence, and all of them have it. -/
def IsMarked (s : Suggestion) : Prop :=
  s.confidence ∈ if s.isReferenced then [referenced] else [besideReferenced, unreferenced]

theorem isMarked_of_mem_ofFound
    {collection : String}
    {ids : List FoundId}
    {s : Suggestion}
    (h : s ∈ ofFound collection ids) :
    s.IsMarked := by
  obtain ⟨i, -, rfl⟩ := List.mem_map.mp h
  dsimp only [IsMarked]
  cases i.isReferenced <;> cases ids.any FoundId.isReferenced <;> simp

theorem IsMarked.isGraded
    {s : Suggestion}
    (h : s.IsMarked) :
    s.IsGraded := by
  unfold IsMarked at h
  unfold IsGraded
  split at h
  · exact List.mem_cons.mpr (.inl (List.mem_singleton.mp h))
  · exact List.mem_cons_of_mem _ h

variable {a b : Suggestion}

theorem IsMarked.isReferenced_of_mayPrecede
    (ha : a.IsMarked)
    (hb : b.IsMarked)
    (h : mayPrecede a b = true)
    (hreferenced : b.isReferenced = true) :
    a.isReferenced = true := by
  have hless : ∀ x ∈ [besideReferenced, unreferenced],
      Decimal.descending x referenced = false := by decide
  rw [IsMarked, if_pos hreferenced, List.mem_singleton] at hb
  rw [mayPrecede, hb] at h
  by_contra hother
  rw [IsMarked, if_neg hother] at ha
  rw [hless _ ha] at h
  cases h

theorem IsMarked.mayPrecede_of_isReferenced
    (ha : a.IsMarked)
    (hb : b.IsMarked)
    (ha' : a.isReferenced = true)
    (hb' : b.isReferenced = true) :
    mayPrecede a b = true := by
  rw [IsMarked, if_pos ha', List.mem_singleton] at ha
  rw [IsMarked, if_pos hb', List.mem_singleton] at hb
  rw [mayPrecede, ha, hb]
  decide

end Suggestion

namespace Resolution

section Ranked

variable {suggestions : List Suggestion}

theorem mayPrecede_trans (a b c : Suggestion) :
    a.mayPrecede b = true → b.mayPrecede c = true → a.mayPrecede c = true :=
  Decimal.descending_trans

theorem mayPrecede_total (a b : Suggestion) : (a.mayPrecede b || b.mayPrecede a) = true :=
  Decimal.descending_total a.confidence b.confidence

/-- Suggestions of known confidence, the surer ones first. -/
structure IsRanked (suggestions : List Suggestion) : Prop where
  isGraded : ∀ s ∈ suggestions, s.IsGraded
  pairwise : suggestions.Pairwise fun a b => b.confidence ≤ a.confidence

/-- The first of some ranked suggestions is the surest. -/
theorem IsRanked.le_head
    (h : IsRanked suggestions) :
    ∀ best ∈ suggestions.head?, ∀ s ∈ suggestions, s.confidence ≤ best.confidence := by
  intro best hbest s hs
  obtain ⟨rest, rfl⟩ := List.head?_eq_some_iff.mp hbest
  rcases List.mem_cons.mp hs with rfl | hs
  · have hnumber := (h.isGraded s List.mem_cons_self).isNaN_eq
    exact Decimal.le_of_not_lt hnumber hnumber (Decimal.lt_irrefl _)
  · exact List.rel_of_pairwise_cons h.pairwise hs

theorem mem_of_mem_ranked
    {limit : Nat}
    {s : Suggestion}
    (h : s ∈ ranked limit suggestions) :
    s ∈ suggestions :=
  List.mem_mergeSort.mp (List.mem_of_mem_take h)

theorem pairwise_mayPrecede_ranked (limit : Nat) :
    (ranked limit suggestions).Pairwise fun a b => a.mayPrecede b = true :=
  (List.pairwise_mergeSort mayPrecede_trans mayPrecede_total suggestions).sublist
    (List.take_sublist limit _)

/-- What holds of any two suggestions in either order holds of those that are kept. -/
theorem pairwise_ranked
    {R : Suggestion → Suggestion → Prop}
    (hsymm : ∀ {a b}, R a b → R b a)
    (h : suggestions.Pairwise R)
    (limit : Nat) :
    (ranked limit suggestions).Pairwise R :=
  (((List.mergeSort_perm _ _).pairwise_iff hsymm).mpr h).sublist (List.take_sublist _ _)

theorem isRanked_ranked
    (h : ∀ s ∈ suggestions, s.IsGraded)
    (limit : Nat) :
    IsRanked (ranked limit suggestions) := by
  have hgraded : ∀ s ∈ ranked limit suggestions, s.IsGraded :=
    fun s hs => h s (mem_of_mem_ranked hs)
  refine ⟨hgraded, (pairwise_mayPrecede_ranked limit).imp_of_mem ?_⟩
  intro a b ha hb hab
  exact Decimal.le_of_descending (hgraded a ha).isNaN_eq (hgraded b hb).isNaN_eq hab

/-- The ids that documents refer to come first. -/
theorem pairwise_isReferenced
    (h : ∀ s ∈ suggestions, s.IsMarked)
    (hsorted : suggestions.Pairwise fun a b => a.mayPrecede b = true) :
    suggestions.Pairwise fun a b => b.isReferenced = true → a.isReferenced = true :=
  hsorted.imp_of_mem fun {a b} ha hb hab => (h a ha).isReferenced_of_mayPrecede (h b hb) hab

/-- Of the ids that documents refer to the first ones are kept. -/
theorem filter_isReferenced_ranked
    (h : ∀ s ∈ suggestions, s.IsMarked)
    (limit : Nat) :
    (ranked limit suggestions).filter Suggestion.isReferenced =
      (suggestions.filter Suggestion.isReferenced).take limit := by
  have hmarked : ∀ s ∈ suggestions.mergeSort Suggestion.mayPrecede, s.IsMarked :=
    fun s hs => h s (List.mem_mergeSort.mp hs)
  have hsorted := List.pairwise_mergeSort mayPrecede_trans mayPrecede_total suggestions
  have hfilter := filter_mergeSort mayPrecede_trans mayPrecede_total
    fun a ha b hb => (h a ha).mayPrecede_of_isReferenced (h b hb)
  rw [← hfilter]
  exact filter_take_of_pairwise (pairwise_isReferenced hmarked hsorted) limit

end Ranked

end Resolution

end EndpointPayload
