/-!
# Tables

A table has at most one entry under a text, and its rows stand in the order of the texts.  A new row
goes to its place, so listing a table needs no sorting.
-/

namespace EndpointPayload

/-- Entries under texts, in the order of these. -/
structure Table (α : Type) where
  rows : List (String × α)
  isSorted : rows.Pairwise fun r s => r.1 < s.1

namespace Table

variable {α : Type}

def empty : Table α := ⟨[], .nil⟩

/-- The entry under a text. -/
def get? (t : Table α) (key : String) : Option α := t.rows.lookup key

/-- Puts a new entry under a text, made from the one that is there. -/
def putIn (key : String) (entry : Option α → α) : List (String × α) → List (String × α)
  | [] => [(key, entry none)]
  | (k, a) :: rest =>
    if key < k then (key, entry none) :: (k, a) :: rest
    else if key = k then (key, entry (some a)) :: rest
    else (k, a) :: putIn key entry rest

theorem eq_or_mem_of_mem_putIn {key : String} {entry : Option α → α} {r : String × α} :
    ∀ {rows : List (String × α)}, r ∈ putIn key entry rows → r.1 = key ∨ r ∈ rows
  | [], h => by
      rw [putIn, List.mem_singleton] at h
      exact .inl (congrArg Prod.fst h)
  | (k, a) :: rest, h => by
      rw [putIn] at h
      split at h
      · exact (List.mem_cons.1 h).imp_left (congrArg Prod.fst)
      · split at h
        · refine (List.mem_cons.1 h).imp (congrArg Prod.fst) (List.mem_cons_of_mem _)
        · rcases List.mem_cons.1 h with heq | hrest
          · exact .inr (heq ▸ List.mem_cons_self)
          · exact (eq_or_mem_of_mem_putIn hrest).imp_right (List.mem_cons_of_mem _)

/-- A text that is neither before another nor the same comes after it. -/
theorem lt_of_not_lt_of_ne {a b : String} (hlt : ¬ a < b) (hne : a ≠ b) : b < a := by
  refine String.not_le.1 fun hle => hne ?_
  exact String.le_antisymm hle (String.not_lt.1 hlt)

theorem pairwise_putIn {key : String} {entry : Option α → α} :
    ∀ {rows : List (String × α)}, rows.Pairwise (fun r s => r.1 < s.1) →
      (putIn key entry rows).Pairwise fun r s => r.1 < s.1
  | [], _ => List.pairwise_singleton _ _
  | (k, a) :: rest, h => by
      obtain ⟨hfirst, hrest⟩ := List.pairwise_cons.1 h
      rw [putIn]
      split
      · rename_i hlt
        refine List.pairwise_cons.2 ⟨fun r hr => ?_, h⟩
        rcases List.mem_cons.1 hr with rfl | hr
        · exact hlt
        · exact String.lt_trans hlt (hfirst r hr)
      · rename_i hlt
        split
        · rename_i heq
          exact List.pairwise_cons.2 ⟨fun r hr => heq ▸ hfirst r hr, hrest⟩
        · rename_i hne
          refine List.pairwise_cons.2 ⟨fun r hr => ?_, pairwise_putIn hrest⟩
          rcases eq_or_mem_of_mem_putIn hr with hkey | hr
          · exact hkey ▸ lt_of_not_lt_of_ne hlt hne
          · exact hfirst r hr

/-- The table with a new entry under a text, made from the one that was there. -/
def update (t : Table α) (key : String) (entry : Option α → α) : Table α :=
  ⟨putIn key entry t.rows, pairwise_putIn t.isSorted⟩

/-- A row with another entry if it is that of a text. -/
def changeRow (key : String) (change : α → α) (r : String × α) : String × α :=
  if r.1 = key then (r.1, change r.2) else r

theorem fst_changeRow (key : String) (change : α → α) (r : String × α) :
    (changeRow key change r).1 = r.1 := by
  unfold changeRow
  split <;> rfl

/-- The table with the entry under a text changed, if there is one. -/
def modify (t : Table α) (key : String) (change : α → α) : Table α where
  rows := t.rows.map (changeRow key change)
  isSorted := by
    rw [List.pairwise_map]
    simpa only [fst_changeRow] using t.isSorted

end Table
end EndpointPayload
