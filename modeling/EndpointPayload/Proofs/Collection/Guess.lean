import EndpointPayload.Collection.Guess
import EndpointPayload.Proofs.Decimal.Order
import Mathlib.Data.List.Induction
import Mathlib.Data.List.Nodup
import Mathlib.Data.List.Perm.Subperm
import Mathlib.Tactic

/-!
# Ranked guesses and their names

Guesses are ranked, of those with one name the first is kept, and the names of all that are left
become the alternatives of the first.  Names of a guess are added once each, so they never repeat.
A guess goes only for one of the same name in front of it, and with it go its own alternatives.
-/

namespace EndpointPayload
namespace Guess

section Names

variable {g : Guess} {n : String}

@[simp] theorem mem_names (g : Guess) : n ∈ g.names ↔ n = g.name ∨ n ∈ g.alternatives :=
  List.mem_cons

theorem names_make (name : String) (confidence : Float) (reason : String) :
    (make name confidence reason).names = [name] :=
  rfl

@[simp] theorem withAlternatives_nil (g : Guess) : g.withAlternatives [] = g := rfl

theorem withAlternatives_cons
    (g : Guess)
    (m : String)
    (ms : List String) :
    g.withAlternatives (m :: ms) =
      (if m ∈ g.names then g
        else { g with alternatives := g.alternatives ++ [m] }).withAlternatives ms := by
  by_cases h : m ∈ g.names
  · have hkept : (m = g.name || g.alternatives.contains m) = true := by simpa using h
    rw [if_pos h, withAlternatives, List.foldl_cons, if_pos hkept]
    rfl
  · have hnew : ¬ (m = g.name || g.alternatives.contains m) = true := by simpa using h
    rw [if_neg h, withAlternatives, List.foldl_cons, if_neg hnew]
    rfl

theorem mem_names_withAlternatives
    (g : Guess)
    (ms : List String) :
    n ∈ (g.withAlternatives ms).names ↔ n ∈ g.names ∨ n ∈ ms := by
  induction ms generalizing g with
  | nil =>
      simp
  | cons m ms ih =>
      rw [withAlternatives_cons, ih, List.mem_cons]
      by_cases hm : m ∈ g.names
      · rw [if_pos hm]
        refine ⟨fun h => h.imp_right Or.inr, ?_⟩
        rintro (h | rfl | h)
        · exact Or.inl h
        · exact Or.inl hm
        · exact Or.inr h
      · rw [if_neg hm]
        simp only [mem_names, List.mem_append, List.mem_singleton]
        tauto

theorem nodup_names_withAlternatives
    (h : g.names.Nodup)
    (ms : List String) :
    (g.withAlternatives ms).names.Nodup := by
  induction ms generalizing g with
  | nil =>
      exact h
  | cons m ms ih =>
      rw [withAlternatives_cons]
      by_cases hm : m ∈ g.names
      · rw [if_pos hm]
        exact ih h
      · rw [if_neg hm]
        refine ih ?_
        have hconcat : (g.names ++ [m]).Nodup :=
          h.append (List.nodup_singleton m) (List.disjoint_singleton.mpr hm)
        exact hconcat

end Names

section Ranked

variable {g k : Guess} {gs : List Guess}

theorem mem_ranked : g ∈ ranked gs ↔ g ∈ gs := List.mem_mergeSort

theorem descending_confidence_trans
    (a b c : Guess)
    (hab : Decimal.descending a.confidence b.confidence = true)
    (hbc : Decimal.descending b.confidence c.confidence = true) :
    Decimal.descending a.confidence c.confidence = true :=
  Decimal.descending_trans hab hbc

theorem descending_confidence_total
    (a b : Guess) :
    (Decimal.descending a.confidence b.confidence ||
      Decimal.descending b.confidence a.confidence) = true :=
  Decimal.descending_total a.confidence b.confidence

theorem ne_of_surer (h : Decimal.descending g.confidence k.confidence = false) : g ≠ k := by
  rintro rfl
  have hself := descending_confidence_total g g
  rw [h] at hself
  cases hself

theorem pairwise_ranked (gs : List Guess) :
    (ranked gs).Pairwise fun a b => Decimal.descending a.confidence b.confidence = true :=
  List.pairwise_mergeSort descending_confidence_trans descending_confidence_total gs

/-- In front of the first guess come only surer ones. -/
theorem exists_ranked_cons
    (g : Guess)
    (gs : List Guess) :
    ∃ front back, ranked (g :: gs) = front ++ g :: back ∧
      ∀ k ∈ front, Decimal.descending g.confidence k.confidence = false := by
  obtain ⟨front, back, hsplit, -, hsurer⟩ :=
    List.mergeSort_cons descending_confidence_trans descending_confidence_total g gs
  exact ⟨front, back, hsplit, fun k hk => by simpa using hsurer k hk⟩

end Ranked

section FirstOfEachName

variable {g k : Guess} {gs : List Guess} {n : String}

theorem firstOfEachName_concat
    (gs : List Guess)
    (g : Guess) :
    firstOfEachName (gs ++ [g]) =
      if g.name ∈ (firstOfEachName gs).map name then firstOfEachName gs
      else firstOfEachName gs ++ [g] := by
  have hany : (firstOfEachName gs).any (fun k => k.name = g.name) = true ↔
      g.name ∈ (firstOfEachName gs).map name := by
    simp
  rw [firstOfEachName, List.foldl_append]
  by_cases h : g.name ∈ (firstOfEachName gs).map name
  · rw [if_pos h]
    exact if_pos (hany.mpr h)
  · rw [if_neg h]
    exact if_neg (mt hany.mp h)

theorem firstOfEachName_sublist (gs : List Guess) : (firstOfEachName gs).Sublist gs := by
  induction gs using List.reverseRecOn with
  | nil =>
      exact List.Sublist.slnil
  | append_singleton gs g ih =>
      rw [firstOfEachName_concat]
      split
      · exact ih.trans (List.sublist_append_left gs [g])
      · exact ih.append_right [g]

theorem mem_map_name_firstOfEachName :
    n ∈ (firstOfEachName gs).map name ↔ n ∈ gs.map name := by
  induction gs using List.reverseRecOn with
  | nil =>
      exact Iff.rfl
  | append_singleton gs g ih =>
      rw [firstOfEachName_concat, List.map_append, List.mem_append, ← ih]
      split
      · rename_i hname
        refine ⟨Or.inl, ?_⟩
        rintro (h | h)
        · exact h
        · obtain rfl : n = g.name := by simpa using h
          exact hname
      · rw [List.map_append, List.mem_append]

theorem nodup_map_name_firstOfEachName (gs : List Guess) :
    ((firstOfEachName gs).map name).Nodup := by
  induction gs using List.reverseRecOn with
  | nil =>
      exact List.nodup_nil
  | append_singleton gs g ih =>
      rw [firstOfEachName_concat]
      split
      · exact ih
      · rename_i hname
        rw [List.map_append]
        exact ih.append (List.nodup_singleton g.name) (List.disjoint_singleton.mpr hname)

theorem firstOfEachName_concat_of_mem
    (h : g.name ∈ gs.map name) :
    firstOfEachName (gs ++ [g]) = firstOfEachName gs := by
  rw [firstOfEachName_concat, if_pos (mem_map_name_firstOfEachName.mpr h)]

theorem firstOfEachName_concat_of_not_mem
    (h : g.name ∉ gs.map name) :
    firstOfEachName (gs ++ [g]) = firstOfEachName gs ++ [g] := by
  rw [firstOfEachName_concat, if_neg (mt mem_map_name_firstOfEachName.mp h)]

theorem mem_firstOfEachName_concat_iff :
    g ∈ firstOfEachName (gs ++ [k]) ↔
      g ∈ firstOfEachName gs ∨ g = k ∧ k.name ∉ gs.map name := by
  by_cases h : k.name ∈ gs.map name
  · simp only [firstOfEachName_concat_of_mem h, h, not_true_eq_false, and_false, or_false]
  · simp only [firstOfEachName_concat_of_not_mem h, h, not_false_eq_true, and_true,
      List.mem_append, List.mem_singleton]

/-- What is kept is the first guess of its name. -/
theorem mem_firstOfEachName_iff :
    g ∈ firstOfEachName gs ↔
      ∃ front back, gs = front ++ g :: back ∧ g.name ∉ front.map name := by
  induction gs using List.reverseRecOn with
  | nil =>
      simp [firstOfEachName]
  | append_singleton gs k ih =>
      rw [mem_firstOfEachName_concat_iff, ih]
      constructor
      · rintro (⟨front, back, rfl, hname⟩ | ⟨rfl, hname⟩)
        · exact ⟨front, back ++ [k], by simp, hname⟩
        · exact ⟨gs, [], rfl, hname⟩
      · rintro ⟨front, back, hsplit, hname⟩
        rcases List.eq_nil_or_concat back with rfl | ⟨back, last, rfl⟩
        · obtain ⟨rfl, hlast⟩ := List.append_inj' hsplit rfl
          obtain rfl : k = g := by simpa using hlast
          exact Or.inr ⟨rfl, hname⟩
        · rw [List.concat_eq_append, ← List.cons_append, ← List.append_assoc] at hsplit
          obtain ⟨rfl, -⟩ := List.append_inj' hsplit rfl
          exact Or.inl ⟨front, back, rfl, hname⟩

end FirstOfEachName

section Combine

variable {g : Guess} {gs : List Guess} {n : String}

/-- The first guess with all names, before the cut. -/
def gathered (first : Guess) (rest : List Guess) : Guess :=
  { first with alternatives := [] }.withAlternatives (first.alternatives ++ rest.flatMap names)

theorem combine_cons
    (first : Guess)
    (rest : List Guess) :
    combine (first :: rest) =
      { gathered first rest with
        alternatives := (gathered first rest).alternatives.take maxAlternatives } :=
  rfl

theorem mem_names_gathered
    (first : Guess)
    (rest : List Guess) :
    n ∈ (gathered first rest).names ↔ ∃ g ∈ first :: rest, n ∈ g.names := by
  rw [gathered, mem_names_withAlternatives]
  simp [or_assoc]

theorem nodup_names_gathered
    (first : Guess)
    (rest : List Guess) :
    (gathered first rest).names.Nodup :=
  nodup_names_withAlternatives (g := { first with alternatives := [] })
    (List.nodup_singleton first.name) _

theorem nodup_names_combine (gs : List Guess) : (combine gs).names.Nodup := by
  cases gs with
  | nil =>
      exact List.nodup_singleton _
  | cons first rest =>
      rw [combine_cons]
      exact (nodup_names_gathered first rest).sublist ((List.take_sublist _ _).cons_cons _)

/-- As many names as fit are all kept. -/
theorem mem_names_combine
    {all : List String}
    (hgs : gs ≠ [])
    (hall : ∀ g ∈ gs, ∀ m ∈ g.names, m ∈ all)
    (hlength : all.length ≤ maxAlternatives) :
    (combine gs).alternatives.length < maxAlternatives ∧
      ∀ n, n ∈ (combine gs).names ↔ ∃ g ∈ gs, n ∈ g.names := by
  obtain ⟨first, rest, rfl⟩ := List.exists_cons_of_ne_nil hgs
  have hsubset : (gathered first rest).names ⊆ all := by
    intro m hm
    obtain ⟨g, hg, hname⟩ := (mem_names_gathered first rest).mp hm
    exact hall g hg m hname
  have hfits : (gathered first rest).alternatives.length < maxAlternatives := by
    have hshort := ((nodup_names_gathered first rest).subperm hsubset).length_le
    rw [names, List.length_cons] at hshort
    omega
  have huncut : combine (first :: rest) = gathered first rest := by
    rw [combine_cons, List.take_of_length_le (Nat.le_of_lt hfits)]
  rw [huncut]
  exact ⟨hfits, fun _ => mem_names_gathered first rest⟩

end Combine

end Guess
end EndpointPayload
