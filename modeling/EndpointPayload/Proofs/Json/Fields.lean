import EndpointPayload.Json.Basic
import Mathlib.Tactic

/-!
# Fields under distinct keys

Where the keys of a list of fields are distinct, looking a key up finds every entry, and putting the
entries together one after another loses none of them.  Of the entries under a repeated key the last
one is found.
-/

namespace EndpointPayload

namespace Json

theorem mem_of_lookup
    {key : String}
    {v : Json} :
    ∀ fields : List (String × Json), lookup key fields = some v → (key, v) ∈ fields
  | [], h => by simp [lookup] at h
  | (k, w) :: rest, h => by
      by_cases hk : k = key
      · simp only [lookup, hk, if_true, Option.some.injEq] at h
        simp [hk, h]
      · simp only [lookup, hk, if_false] at h
        exact List.mem_cons_of_mem _ (mem_of_lookup rest h)

/-- With distinct keys, a lookup finds every entry. -/
theorem lookup_of_mem
    {key : String}
    {v : Json} :
    ∀ fields : List (String × Json), (fields.map Prod.fst).Nodup → (key, v) ∈ fields →
      lookup key fields = some v
  | (k, w) :: rest, hd, hm => by
      rw [List.map_cons, List.nodup_cons] at hd
      obtain ⟨hk, hrest⟩ := hd
      rcases List.mem_cons.mp hm with heq | hmem
      · cases heq
        simp [lookup]
      · have hne : k ≠ key := by
          rintro rfl
          exact hk (List.mem_map.mpr ⟨_, hmem, rfl⟩)
        simp [lookup, hne, lookup_of_mem rest hrest hmem]

/-- A new key goes to the end. -/
theorem put_of_not_mem
    {key : String}
    {v : Json} :
    ∀ fields : List (String × Json), key ∉ fields.map Prod.fst →
      put key v fields = fields ++ [(key, v)]
  | [], _ => rfl
  | (k, w) :: rest, h => by
      rw [List.map_cons, List.mem_cons, not_or] at h
      obtain ⟨hk, hrest⟩ := h
      simp [put, Ne.symm hk, put_of_not_mem rest hrest]

/-- Fields with new keys are put behind those there are. -/
theorem foldl_put_of_nodup :
    ∀ rest before : List (String × Json), ((before ++ rest).map Prod.fst).Nodup →
      rest.foldl (fun fields (k, v) => put k v fields) before = before ++ rest
  | [], before, _ => by simp
  | (k, v) :: rest, before, h => by
      have hnew : k ∉ before.map Prod.fst := by
        rw [List.map_append, List.nodup_append] at h
        intro hmem
        exact h.2.2 k hmem k (by simp) rfl
      have hrest : (((before ++ [(k, v)]) ++ rest).map Prod.fst).Nodup := by simpa using h
      simp only [List.foldl_cons, put_of_not_mem before hnew]
      rw [foldl_put_of_nodup rest _ hrest, List.append_assoc, List.singleton_append]

/-- Distinct keys are all kept, in their order. -/
theorem ofPairs_of_nodup
    {pairs : List (String × Json)}
    (h : (pairs.map Prod.fst).Nodup) :
    ofPairs pairs = pairs :=
  foldl_put_of_nodup pairs [] h

theorem lookup_put
    (key k : String)
    (v : Json)
    (fields : List (String × Json)) :
    lookup key (put k v fields) = if k = key then some v else lookup key fields := by
  induction fields with
  | nil => rfl
  | cons f rest ih =>
      obtain ⟨j, w⟩ := f
      by_cases hj : j = k
      · subst hj
        by_cases hkey : j = key <;> simp [put, lookup, hkey]
      · by_cases hkey : k = key
        · subst hkey
          simpa [put, lookup, hj] using ih
        · simp only [put, if_neg hj, lookup, ih, if_neg hkey]

/-- Fields under other keys leave the value under a key as it is. -/
theorem lookup_foldl_put_of_not_mem
    {key : String}
    (after before : List (String × Json))
    (h : key ∉ after.map Prod.fst) :
    lookup key (after.foldl (fun fields (k, v) => put k v fields) before) = lookup key before := by
  induction after generalizing before with
  | nil => rfl
  | cons f rest ih =>
      rw [List.map_cons, List.mem_cons, not_or] at h
      obtain ⟨hf, hrest⟩ := h
      rw [List.foldl_cons, ih _ hrest, lookup_put, if_neg (Ne.symm hf)]

/-- A repeated key has its last value. -/
theorem lookup_ofPairs_append_cons
    {key : String}
    {after : List (String × Json)}
    (h : key ∉ after.map Prod.fst)
    (before : List (String × Json))
    (v : Json) :
    lookup key (ofPairs (before ++ (key, v) :: after)) = some v := by
  rw [ofPairs, List.foldl_append, List.foldl_cons, lookup_foldl_put_of_not_mem _ _ h, lookup_put,
    if_pos rfl]

end Json
end EndpointPayload
