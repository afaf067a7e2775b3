import EndpointPayload.Proofs.Text.Basic
import EndpointPayload.Text.Table

/-!
# Lookups in tables

A new entry is found under its text and changes no other lookup.  Two lists of texts in strict order
are equal where they have the same members, so the texts of a table are known from what is found in
it, and so is a list in the order of `Text.sorted`.
-/

namespace EndpointPayload

namespace Text

variable {texts others : List String}

theorem nodup_of_pairwise_lt (h : texts.Pairwise (· < ·)) : texts.Nodup := by
  refine h.imp fun {a b} hlt heq => ?_
  exact String.lt_irrefl b (heq ▸ hlt)

/-- A list in strict order is known from its members. -/
theorem eq_of_pairwise_lt
    (h : texts.Pairwise (· < ·))
    (h' : others.Pairwise (· < ·))
    (hmem : ∀ s, s ∈ texts ↔ s ∈ others) :
    texts = others := by
  have hperm : texts.Perm others :=
    (List.perm_ext_iff_of_nodup (nodup_of_pairwise_lt h) (nodup_of_pairwise_lt h')).mpr hmem
  refine hperm.eq_of_pairwise (fun a b _ _ hab hba => ?_) h h'
  exact absurd (String.lt_trans hab hba) (String.lt_irrefl a)

theorem pairwise_lt_sorted (texts : List String) : (sorted texts).Pairwise (· < ·) := by
  have hle : (sorted texts).Pairwise fun a b => decide (a ≤ b) = true := by
    refine List.pairwise_mergeSort ?_ ?_ _
    · intro a b c hab hbc
      simp only [decide_eq_true_eq] at *
      exact String.le_trans hab hbc
    · intro a b
      simpa using String.le_total a b
  refine (hle.and (nodup_sorted texts)).imp fun {a b} h => ?_
  obtain ⟨hab, hne⟩ := h
  exact String.not_le.mp fun hba => hne (String.le_antisymm (of_decide_eq_true hab) hba)

/-- Sorted texts are known from their members. -/
theorem sorted_eq_of_mem_iff (hmem : ∀ s, s ∈ texts ↔ s ∈ others) : sorted texts = sorted others :=
  eq_of_pairwise_lt (pairwise_lt_sorted texts) (pairwise_lt_sorted others) (by simpa using hmem)

end Text

namespace Table

variable {α : Type} {t : Table α} {key k : String} {a : α}

theorem lookup_cons_of_ne
    {rows : List (String × α)}
    (h : k ≠ key) :
    ((key, a) :: rows).lookup k = rows.lookup k := by
  rw [List.lookup_cons, beq_false_of_ne h]

theorem lookup_eq_none_of_lt
    {rows : List (String × α)}
    (h : ∀ r ∈ rows, key < r.1) :
    rows.lookup key = none := by
  rw [List.lookup_eq_none_iff]
  intro r hr
  rw [bne_iff_ne]
  rintro rfl
  exact String.lt_irrefl _ (h r hr)

theorem lookup_putIn
    {entry : Option α → α} :
    ∀ {rows : List (String × α)}, rows.Pairwise (fun r s => r.1 < s.1) →
      (putIn key entry rows).lookup k =
        if k = key then some (entry (rows.lookup key)) else rows.lookup k
  | [], _ => by
      by_cases hk : k = key
      · simp [putIn, hk]
      · rw [putIn, lookup_cons_of_ne hk, if_neg hk]
  | (k', a) :: rest, h => by
      obtain ⟨hfirst, hrest⟩ := List.pairwise_cons.mp h
      rw [putIn]
      split
      · rename_i hlt
        have hnone : ((k', a) :: rest).lookup key = none := by
          refine lookup_eq_none_of_lt fun r hr => ?_
          rcases List.mem_cons.mp hr with rfl | hr
          · exact hlt
          · exact String.lt_trans hlt (hfirst r hr)
        rw [hnone]
        by_cases hk : k = key
        · simp [hk]
        · rw [lookup_cons_of_ne hk, if_neg hk]
      · split
        · rename_i heq
          subst heq
          by_cases hk : k = key
          · simp [hk]
          · rw [lookup_cons_of_ne hk, lookup_cons_of_ne hk, if_neg hk]
        · rename_i hne
          rw [lookup_cons_of_ne hne]
          by_cases hk : k = k'
          · subst hk
            simp [Ne.symm hne]
          · rw [lookup_cons_of_ne hk, lookup_cons_of_ne hk, lookup_putIn hrest]

@[simp] theorem get?_empty : (empty : Table α).get? key = none := rfl

/-- A new entry is found under its text, and all other texts find what they found. -/
theorem get?_update (entry : Option α → α) :
    (t.update key entry).get? k = if k = key then some (entry (t.get? key)) else t.get? k :=
  lookup_putIn t.isSorted

/-- After entries under many texts, a text has what its own entries make, one after another. -/
theorem get?_foldl_update
    {β : Type}
    (entry : β → Option α → α) :
    ∀ (rows : List (String × β)) (t : Table α),
      (rows.foldl (fun t r => t.update r.1 (entry r.2)) t).get? key =
        (rows.filterMap fun r => if r.1 = key then some r.2 else none).foldl
          (fun found b => some (entry b found)) (t.get? key)
  | [], _ => rfl
  | (k, b) :: rest, t => by
      rw [List.foldl_cons, get?_foldl_update entry rest, get?_update, List.filterMap_cons]
      by_cases hk : k = key
      · subst hk
        simp
      · simp [hk, Ne.symm hk]

theorem get?_modify (change : α → α) :
    (t.modify key change).get? k = if k = key then (t.get? k).map change else t.get? k := by
  have hlookup : ∀ rows : List (String × α),
      (rows.map (changeRow key change)).lookup k =
        if k = key then (rows.lookup k).map change else rows.lookup k := by
    intro rows
    induction rows with
    | nil => simp
    | cons r rest ih =>
        obtain ⟨k', a⟩ := r
        rw [List.map_cons, changeRow]
        by_cases hk : k = k'
        · subst hk
          by_cases hkey : k = key <;> simp [hkey]
        · rw [lookup_cons_of_ne hk, ← ih]
          split <;> exact lookup_cons_of_ne hk
  exact hlookup t.rows

/-- The rows of a table are what is found in it. -/
theorem mem_rows : (k, a) ∈ t.rows ↔ t.get? k = some a := by
  obtain ⟨rows, hrows⟩ := t
  rw [get?]
  induction rows with
  | nil => simp
  | cons r rest ih =>
      obtain ⟨k', b⟩ := r
      obtain ⟨hfirst, hrest⟩ := List.pairwise_cons.mp hrows
      rw [List.mem_cons, ih hrest]
      by_cases hk : k = k'
      · subst hk
        have hnone : rest.lookup k = none := lookup_eq_none_of_lt hfirst
        simp [hnone, eq_comm]
      · rw [lookup_cons_of_ne hk, Prod.mk.injEq]
        exact or_iff_right fun h => hk h.1

theorem mem_keys : k ∈ t.rows.map Prod.fst ↔ (t.get? k).isSome := by
  rw [Option.isSome_iff_exists, List.mem_map]
  constructor
  · rintro ⟨⟨k, a⟩, hmem, rfl⟩
    exact ⟨a, mem_rows.mp hmem⟩
  · rintro ⟨a, ha⟩
    exact ⟨(k, a), mem_rows.mpr ha, rfl⟩

theorem pairwise_keys (t : Table α) : (t.rows.map Prod.fst).Pairwise (· < ·) :=
  List.pairwise_map.mpr t.isSorted

end Table
end EndpointPayload
