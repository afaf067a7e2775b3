import EndpointPayload.Proofs.Store.Memory
import EndpointPayload.Proofs.Store.Sampler

/-!
# Samples of collections in memory

Of a collection with few documents a sample has all, of one of moderate size a window, and of a
large one those that come first by random keys.  Whatever is drawn, as many documents are taken as
there may be, no position is taken twice, and a window lies within the collection.
-/

namespace EndpointPayload

namespace Sampler

open Session

variable {limit : Nat} {docs sample : List Document}

/-- As many documents as asked for, or all there are, and none of them twice.  Those of a small
collection are in its order, and those of one of moderate size lie next to each other. -/
structure IsSample (limit : Nat) (docs sample : List Document) : Prop where
  length_eq : sample.length = min limit docs.length
  exists_positions : ∃ positions : List Nat,
    positions.Nodup ∧ positions.map (docs[·]?) = sample.map some
  eq_of_length_le : docs.length ≤ limit → sample = docs
  exists_window : limit < docs.length → docs.length < 100 →
    ∃ start, start + limit ≤ docs.length ∧ sample = (docs.drop start).take limit

theorem map_range'_window (start limit : Nat) (docs : List Document)
    (h : start + limit ≤ docs.length) :
    (List.range' start limit).map (docs[·]?) = ((docs.drop start).take limit).map some := by
  refine List.ext_getElem (by simp; omega) fun i hi hi' => ?_
  simp

theorem isSample_all (h : docs.length ≤ limit) : IsSample limit docs docs where
  length_eq := by omega
  exists_positions := by
    refine ⟨List.range' 0 docs.length, List.nodup_range', ?_⟩
    rw [map_range'_window 0 docs.length docs (by omega), List.drop_zero, List.take_length]
  eq_of_length_le _ := rfl
  exists_window hlt _ := by omega

theorem isSample_window
    {start : Nat}
    (hlimit : limit < docs.length)
    (hstart : start + limit ≤ docs.length) :
    IsSample limit docs ((docs.drop start).take limit) where
  length_eq := by
    rw [List.length_take, List.length_drop]
    omega
  exists_positions := ⟨List.range' start limit, List.nodup_range',
    map_range'_window start limit docs hstart⟩
  eq_of_length_le h := by omega
  exists_window _ _ := ⟨start, hstart, rfl⟩

/-- No documents are a window anywhere. -/
theorem isSample_zero (docs : List Document) : IsSample 0 docs [] := by
  cases docs with
  | nil =>
      exact isSample_all (Nat.le_refl 0)
  | cons d rest =>
      have hstart : 0 + 0 ≤ (d :: rest).length := Nat.zero_le _
      exact isSample_window (Nat.succ_pos _) hstart

/-- The documents by random keys are those of the collection in another order. -/
theorem isSample_sample
    (keys : Nat → Nat)
    (hlimit : limit < docs.length)
    (hlarge : 100 ≤ docs.length) :
    IsSample limit docs (MemoryStore.sample keys docs limit) where
  length_eq := by
    rw [MemoryStore.sample, List.length_take, List.length_map, List.length_mergeSort,
      List.length_zipIdx]
  exists_positions := by
    unfold MemoryStore.sample
    generalize hpairs : docs.zipIdx.mergeSort _ = pairs
    -- Each document carries its position, and sorting by keys keeps the two together.
    have hperm : pairs.Perm docs.zipIdx := hpairs ▸ List.mergeSort_perm _ _
    refine ⟨(pairs.map Prod.snd).take limit, ?_, ?_⟩
    · have hpositions := hperm.map Prod.snd
      rw [List.zipIdx_map_snd] at hpositions
      exact (hpositions.nodup_iff.mpr List.nodup_range').sublist (List.take_sublist _ _)
    · rw [List.map_take, List.map_take, List.map_map, List.map_map]
      refine congrArg (List.take limit) (List.map_congr_left fun p hp => ?_)
      obtain ⟨d, i⟩ := p
      have hget := List.mk_mem_zipIdx_iff_getElem?.mp (hperm.subset hp)
      exact hget
  eq_of_length_le h := by omega
  exists_window _ h := by omega

/-- No position is taken twice, so a sample has no document more often than the collection. -/
theorem IsSample.subperm (h : IsSample limit docs sample) : sample.Subperm docs := by
  obtain ⟨positions, hnodup, hpositions⟩ := h.exists_positions
  have hrange : positions ⊆ List.range docs.length := by
    intro i hi
    have hmem : docs[i]? ∈ sample.map some := hpositions ▸ List.mem_map_of_mem hi
    obtain ⟨d, -, hd⟩ := List.mem_map.mp hmem
    exact List.mem_range.mpr (List.getElem?_eq_some_iff.mp hd.symm).1
  have hall : (List.range docs.length).map (docs[·]?) = docs.map some := by
    rw [List.range_eq_range', map_range'_window 0 docs.length docs (by omega), List.drop_zero,
      List.take_length]
  have hvalues (xs : List Document) : (xs.map some).filterMap id = xs := by simp
  obtain ⟨chosen, hperm, hsublist⟩ := hnodup.subperm hrange
  have hchosen := (hperm.map (docs[·]?)).filterMap id
  have hdocs := (hsublist.map (docs[·]?)).filterMap id
  rw [hpositions, hvalues] at hchosen
  rw [hall, hvalues] at hdocs
  exact ⟨_, hchosen, hdocs⟩

/-- Which of the three samples is taken is decided by the number of documents. -/
theorem yields_isSample
    (m : MemoryStore)
    (keys : Nat → Nat)
    (draw : List Query → Nat)
    (collection : String)
    (limit : Nat) :
    Yields (some (m.store keys draw)) (documents collection limit)
      (IsSample limit (m.documents collection)) := by
  unfold documents
  split
  · rename_i hzero
    subst hzero
    exact yields_pure (isSample_zero (m.documents collection))
  · refine Gives.orElse ?_ []
    refine Gives.bind (gives_ask_store m keys draw (.count collection)) fun total htotal => ?_
    change total = (m.documents collection).length at htotal
    subst htotal
    -- The branches have the type of the answer to their query, so `split` does not see them.
    refine Gives.ite (fun hnone => gives_pure ?_) fun _ => ?_
    · rw [List.length_eq_zero_iff.mp hnone]
      exact isSample_all (Nat.zero_le limit)
    refine Gives.ite (fun hsmall => ?_) fun hlarge => ?_
    · refine (gives_ask_all m keys draw collection 0 _).mono ?_
      rintro _ rfl
      rw [List.drop_zero, List.take_length]
      exact isSample_all hsmall
    refine Gives.ite (fun hwindow => ?_) fun hmany => ?_
    · refine Gives.bind (yields_places (Nat.lt_of_not_le hlarge) hwindow).gives ?_
      rintro _ rfl
      refine Gives.bind (yields_drawBelow (Nat.succ_pos _)).gives fun start hstart => ?_
      refine (gives_ask_all m keys draw collection start limit).mono ?_
      rintro _ rfl
      exact isSample_window (Nat.lt_of_not_le hlarge) (by omega)
    · refine (gives_ask_store m keys draw (.sample collection limit)).mono ?_
      rintro _ rfl
      exact isSample_sample keys (Nat.lt_of_not_le hlarge) (Nat.le_of_not_lt hmany)

/-- For every limit, a sample is taken without a size out of its bounds, whatever the store answers.
For every collection of every store in memory, all random keys and all random numbers, as many
documents are sampled as there may be. -/
theorem isSample_documents
    (m : MemoryStore)
    (keys : Nat → Nat)
    (draw : List Query → Nat)
    (collection : String)
    (limit : Nat) :
    (∀ store : Option Store, Yields store (documents collection limit) fun _ => True) ∧
      Yields (some (m.store keys draw)) (documents collection limit)
        (IsSample limit (m.documents collection)) :=
  ⟨fun _ => yields_documents limit, yields_isSample m keys draw collection limit⟩

end Sampler
end EndpointPayload
