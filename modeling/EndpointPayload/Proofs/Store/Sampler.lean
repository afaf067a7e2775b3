import EndpointPayload.Forecast.Basic
import EndpointPayload.Proofs.Document.TopLevel
import EndpointPayload.Proofs.Store.Outcome
import EndpointPayload.Store.Memory
import Mathlib.Tactic

/-!
# What samplers give

Against every store, whatever it answers and whenever it fails, a sampler gives no more than was
asked for and no null among values.  Taking a sample never stops, and ids are found for every limit
below half of the words.  The statistics of a sample are those of its documents.  That the documents
have distinct keys is a property of the answers, which `Store.HasDistinctKeys` names.
-/

namespace EndpointPayload

namespace Query

/-- The documents in an answer. -/
def documentsIn : (q : Query) → q.Reply → List Document
  | .find _ _ _ _, docs => docs
  | .sample _ _, docs => docs
  | _, _ => []

end Query

namespace Store

/-- Whatever was asked before, the documents in an answer have distinct keys. -/
def HasDistinctKeys (s : Store) : Prop :=
  ∀ log q r, s.answer log q = .ok r → ∀ d ∈ q.documentsIn r, d.HasDistinctKeys

end Store

namespace MemoryStore

variable {m : MemoryStore} {name : String} {d : Document}

theorem exists_of_mem_documents (h : d ∈ m.documents name) :
    ∃ c ∈ m.collections, d ∈ c.2 := by
  unfold documents at h
  cases hfind : m.collections.find? fun c => c.1 = name with
  | none => simp [hfind] at h
  | some c =>
      rw [hfind] at h
      exact ⟨c, List.mem_of_find?_eq_some hfind, h⟩

theorem mem_of_mem_sample
    {keys : Nat → Nat}
    {docs : List Document}
    {size : Nat}
    (h : d ∈ sample keys docs size) :
    d ∈ docs := by
  obtain ⟨p, hp, rfl⟩ := List.mem_map.mp (List.mem_of_mem_take h)
  exact List.fst_mem_of_mem_zipIdx (List.mem_mergeSort.mp hp)

/-- A store in memory answers with its own documents. -/
theorem store_hasDistinctKeys
    (keys : Nat → Nat)
    (draw : List Query → Nat)
    (hm : ∀ c ∈ m.collections, ∀ d ∈ c.2, d.HasDistinctKeys) :
    (m.store keys draw).HasDistinctKeys := by
  have hdocs : ∀ name, ∀ d ∈ m.documents name, d.HasDistinctKeys := by
    intro name d hd
    obtain ⟨c, hc, hdc⟩ := exists_of_mem_documents hd
    exact hm c hc d hdc
  intro log q r hr d hd
  cases hr
  cases q with
  | find c f skip limit =>
      have hfilter := List.mem_of_mem_drop (List.mem_of_mem_take hd)
      exact hdocs c d (List.mem_filter.mp hfilter).1
  | sample c size => exact hdocs c d (mem_of_mem_sample hd)
  | _ => cases hd

end MemoryStore

namespace Sampler

open Session

variable {store : Option Store} {collection : String}

/-- A query for documents gives documents with distinct keys. -/
theorem grants_ask_documents
    {q : Query}
    (hstore : ∀ s ∈ store, s.HasDistinctKeys) :
    Grants store (ask q) fun r => ∀ d ∈ q.documentsIn r, d.HasDistinctKeys := by
  refine (grants_ask q).mono fun r hr => ?_
  obtain ⟨s, log, hs, hr⟩ := hr
  exact hstore s hs log q r hr

theorem yields_collectionNames : Yields store collectionNames fun _ => True :=
  Yields.bind (yields_orElse trivial (grants_ask_true _)) fun _ _ => yields_pure trivial

/-- The number of places for a window is a word. -/
theorem yields_places
    {total limit : Nat}
    (hlimit : limit < total)
    (htotal : total < windowBound) :
    Yields store (places total limit) (· = total - limit + 1) := by
  refine Yields.bind (yields_difference hlimit.le) ?_
  rintro _ rfl
  have hbound : windowBound = 100 := rfl
  exact yields_word (by omega)

/-- What holds of no documents and of those in an answer holds of a sample.  Taking one does not
stop, whatever the store answers and whatever the limit is. -/
theorem yields_of_answers
    {P : List Document → Prop}
    (hnil : P [])
    (hanswers : ∀ q, Grants store (ask q) fun r => P (q.documentsIn r))
    (limit : Nat) :
    Yields store (documents collection limit) P := by
  unfold documents
  split
  · exact yields_pure hnil
  · refine yields_orElse hnil ?_
    refine Grants.bind (grants_ask_true (.count collection)) fun total _ => ?_
    -- The branches have the type of the answer to their query, so `split` does not see them.
    refine Grants.ite (fun _ => grants_pure hnil) fun _ => ?_
    refine Grants.ite (fun _ => hanswers _) fun hlarge => ?_
    refine Grants.ite (fun hwindow => ?_) fun _ => hanswers (.sample collection limit)
    refine Grants.bind (yields_places (Nat.lt_of_not_le hlarge) hwindow).lift ?_
    rintro _ rfl
    exact Grants.bind (yields_drawBelow (Nat.succ_pos _)).lift fun skip _ => hanswers _

theorem yields_documents (limit : Nat) :
    Yields store (documents collection limit) fun _ => True :=
  yields_of_answers trivial grants_ask_true limit

theorem yields_documents_distinctKeys
    (hstore : ∀ s ∈ store, s.HasDistinctKeys)
    (limit : Nat) :
    Yields store (documents collection limit) fun docs => ∀ d ∈ docs, d.HasDistinctKeys :=
  yields_of_answers (by simp) (fun _ => grants_ask_documents hstore) limit

/-- The values of a field are few enough, and none of them is null. -/
theorem yields_fieldValues (field : String) (limit : Nat) :
    Yields store (fieldValues collection field limit) fun values =>
      values.length ≤ limit ∧ ∀ v ∈ values, v.isNull = false := by
  refine Yields.bind (yields_orElse trivial (grants_ask_true _)) fun values _ =>
    yields_pure ⟨List.length_take_le _ _, ?_⟩
  intro v hv
  have hfilter := (List.mem_filter.mp (List.mem_of_mem_take hv)).2
  simpa using hfilter

theorem grants_referenced (field related : String) (limit : Nat) :
    Grants store (referenced collection field related limit) fun _ => True := by
  refine Grants.bind (grants_ask_true _) fun values _ => ?_
  refine Grants.ite (fun _ => grants_pure trivial) fun _ => ?_
  exact Grants.bind (grants_ask_true _) fun docs _ => grants_pure trivial

/-- Below half of the words, looking for ids does not stop, whatever the store answers. -/
theorem yields_relatedIds
    {limit : Nat}
    (hlimit : 2 * limit < 2 ^ 64)
    (field related : String) :
    Yields store (relatedIds collection field related limit) fun _ => True := by
  unfold relatedIds
  split
  · exact yields_pure trivial
  · refine yields_orElse trivial ?_
    refine Grants.bind (grants_referenced field related limit) fun ids _ => ?_
    refine Grants.ite (fun _ => ?_) fun _ => grants_pure trivial
    refine Grants.bind (yields_word (by omega : limit * 2 < 2 ^ 64)).lift fun size _ => ?_
    exact Grants.bind (grants_ask_true _) fun docs _ => grants_pure trivial

end Sampler

namespace Resolution

open Session

variable {store : Option Store}

theorem yields_idsFrom_true
    {limit : Nat}
    (hlimit : 2 * limit < 2 ^ 64)
    (field : String)
    (source : Option String)
    (collection : String) :
    Yields store (idsFrom field source limit collection) fun _ => True := by
  cases source with
  | none => exact Yields.bind (Sampler.yields_documents limit) fun docs _ => yields_pure trivial
  | some s => exact Sampler.yields_relatedIds hlimit field collection

/-- There are no more suggestions than asked for. -/
theorem yields_ofField
    {limit : Nat}
    (hlimit : 2 * limit < 2 ^ 64)
    (field : String)
    (source : Option String) :
    Yields store (ofField field source limit) fun r => r.suggestions.length ≤ limit := by
  refine Yields.bind Sampler.yields_collectionNames fun existing _ => ?_
  have hfound : ∀ c ∈ searched field existing,
      Yields store (do pure (Suggestion.ofFound c (← idsFrom field source limit c)))
        fun _ => True :=
    fun c _ => Yields.bind (yields_idsFrom_true hlimit field source c) fun _ _ =>
      yields_pure trivial
  refine Yields.bind (yields_mapM _ hfound) fun found _ => ?_
  exact yields_pure (List.length_take_le _ _)

end Resolution

namespace CollectionSample

open Session

variable {store : Option Store} {guess : Guess} {options : ForecastOptions}

/-- The statistics are those of the documents. -/
def IsDescribed (s : CollectionSample) : Prop :=
  ∃ existing, s.statistics = FieldStatistics.describe s.documents existing

theorem isDescribed_none : none.IsDescribed :=
  ⟨[], by simp [none, FieldStatistics.describe_eq, Document.schema_eq, Document.paths, Text.sorted]⟩

theorem yields_isDescribed : Yields store (ofGuess guess options) IsDescribed := by
  refine Yields.bind Sampler.yields_collectionNames fun existing _ => ?_
  split
  · exact yields_pure isDescribed_none
  · refine Yields.bind (Sampler.yields_documents _) fun docs _ => ?_
    exact yields_pure ⟨existing, rfl⟩

/-- The documents of a sample have distinct keys where those of the store have. -/
theorem yields_distinctKeys (hstore : ∀ s ∈ store, s.HasDistinctKeys) :
    Yields store (ofGuess guess options) fun s => ∀ d ∈ s.documents, d.HasDistinctKeys := by
  refine Yields.bind Sampler.yields_collectionNames fun existing _ => ?_
  split
  · exact yields_pure (by simp [none])
  · refine Yields.bind (Sampler.yields_documents_distinctKeys hstore _) fun docs hdocs => ?_
    exact yields_pure hdocs

end CollectionSample
end EndpointPayload
