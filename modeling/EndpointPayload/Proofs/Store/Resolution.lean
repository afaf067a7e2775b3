import EndpointPayload.Proofs.Store.Ranking
import EndpointPayload.Proofs.Store.RelatedIds
import EndpointPayload.Proofs.Store.Sampling
import EndpointPayload.Proofs.Store.Searched

/-!
# Ids for a field from a store in memory

The collections that are searched are those that a candidate for the field names, in the order of
the candidates.  In each of them ids are found: with a source first the ones that its documents
refer to and then others, and without one those of a sample.  All of them are put into one list and
ranked, so the ids that documents refer to go first, whatever collection they are from.  Where
another id is kept, none of them has been dropped, and no document that one of them belongs to is
missing.  With a source, nothing at all is found if twice the limit is no word and the ids of one of
the collections have to be filled up.
-/

namespace EndpointPayload

open Session

namespace Sampler

/-- The ids supplied are the referenced ones, and behind them those of added documents. -/
theorem exists_suppliedIds_eq (m : MemoryStore) (collection field related : String) (limit : Nat) :
    ∃ added : List Document, suppliedIds m collection field related limit =
        referencedIds m collection field related limit ++ added.map (found false) ∧
      added.Sublist (m.documents related) ∧ (added.map Document.idText).Nodup ∧
      ∀ d ∈ added, d.idText ∉ (referencedIds m collection field related limit).map FoundId.id := by
  rw [suppliedIds, filled]
  split
  · obtain ⟨added, hpad, hadded⟩ := exists_pad_eq limit
      (referencedIds m collection field related limit)
      ((m.documents related).take (limit * 2))
    exact ⟨added, hpad, hadded.sublist.trans (List.take_sublist _ _), hadded.nodup,
      fun d hd => (hadded.not_mem d hd).2⟩
  · exact ⟨[], by simp, List.nil_sublist _, .nil, by simp⟩

end Sampler

namespace Resolution

open Sampler

section Found

variable {m : MemoryStore} {field collection : String} {source : Option String} {limit : Nat}
variable {ids : List FoundId}

/-- Ids that may be found in a collection: with a source, those that its documents refer to and
others, and without one, those of a sample. -/
inductive IsFoundIn (m : MemoryStore) (field : String) (limit : Nat) (collection : String) :
    Option String → List FoundId → Prop
  | supplied
      (source : String) :
      IsFoundIn m field limit collection (some source)
        (suppliedIds m source field collection limit)
  | sampled
      {sample : List Document}
      (hsample : IsSample limit (m.documents collection) sample) :
      IsFoundIn m field limit collection none
        ((sample.filter fun d => d.idText ≠ "").map (found false))

/-- The ids of a collection that documents of the source refer to. -/
def referencedAt (m : MemoryStore) (field : String) (source : Option String) (limit : Nat)
    (collection : String) : List FoundId :=
  match source with
  | some s => referencedIds m s field collection limit
  | none => []

theorem isReferenced_of_mem_referencedAt
    {i : FoundId}
    (h : i ∈ referencedAt m field source limit collection) :
    i.isReferenced = true := by
  cases source with
  | none =>
      cases h
  | some s =>
      obtain ⟨d, -, rfl⟩ := List.mem_map.mp h
      rfl

theorem not_isReferenced_of_mem_found {docs : List Document} {i : FoundId}
    (h : i ∈ docs.map (found false)) : ¬ i.isReferenced = true := by
  obtain ⟨d, -, rfl⟩ := List.mem_map.mp h
  exact Bool.false_ne_true

/-- Where the ids are no arrays, some document of the source holds what is referenced. -/
theorem exists_holdsId_of_mem_referencedAt
    (hplain : ∀ d ∈ m.documents collection, d.HasPlainId)
    {i : FoundId}
    (h : i ∈ referencedAt m field source limit collection) :
    ∃ name ∈ source, ∃ e ∈ m.documents name, e.HoldsId field i.id := by
  cases source with
  | none =>
      cases h
  | some name =>
      obtain ⟨d, hd, rfl⟩ := List.mem_map.mp h
      obtain ⟨-, hex, hhex, hid⟩ := mem_referencedIn hplain hd
      obtain ⟨e, he, hholds⟩ := mem_digitsAt.mp hhex
      have htext : (found true d).id = hex := hid.idText hholds.isObjectId
      exact ⟨name, rfl, e, he, htext ▸ hholds⟩

theorem IsFoundIn.filter_eq (h : IsFoundIn m field limit collection source ids) :
    ids.filter FoundId.isReferenced = referencedAt m field source limit collection := by
  cases h with
  | supplied source =>
      obtain ⟨added, hids, -⟩ := exists_suppliedIds_eq m source field collection limit
      have hall : ∀ i ∈ referencedAt m field (some source) limit collection,
          i.isReferenced = true := fun _ => isReferenced_of_mem_referencedAt
      rw [hids, List.filter_append,
        List.filter_eq_nil_iff.mpr fun i hi => not_isReferenced_of_mem_found hi, List.append_nil]
      exact List.filter_eq_self.mpr hall
  | sampled hsample =>
      exact List.filter_eq_nil_iff.mpr fun i hi => not_isReferenced_of_mem_found hi

theorem IsFoundIn.exists_document
    (h : IsFoundIn m field limit collection source ids)
    {i : FoundId}
    (hi : i ∈ ids) :
    ∃ d ∈ m.documents collection, i.id = d.idText ∧ i.displayName = d.displayName := by
  cases h with
  | supplied source =>
      obtain ⟨added, hids, hsublist, -, -⟩ :=
        exists_suppliedIds_eq m source field collection limit
      rw [hids] at hi
      rcases List.mem_append.mp hi with hi | hi
      · obtain ⟨d, hd, rfl⟩ := List.mem_map.mp hi
        exact ⟨d, (referencedIn_sublist _ _ _).subset hd, rfl, rfl⟩
      · obtain ⟨d, hd, rfl⟩ := List.mem_map.mp hi
        exact ⟨d, hsublist.subset hd, rfl, rfl⟩
  | sampled hsample =>
      obtain ⟨d, hd, rfl⟩ := List.mem_map.mp hi
      exact ⟨d, hsample.subperm.subset (List.mem_filter.mp hd).1, rfl, rfl⟩

/-- With a source, the ids of the collection cannot be filled up. -/
def OverflowsAt (m : MemoryStore) (field : String) (source : Option String) (limit : Nat)
    (collection : String) : Prop :=
  ∃ s ∈ source, PaddingOverflows m s field collection limit

theorem yieldsUnless_idsFrom
    (m : MemoryStore)
    (keys : Nat → Nat)
    (draw : List Query → Nat)
    (field : String)
    (source : Option String)
    (limit : Nat)
    (collection : String) :
    YieldsUnless (some (m.store keys draw)) (idsFrom field source limit collection)
      (OverflowsAt m field source limit collection)
      (IsFoundIn m field limit collection source) := by
  cases source with
  | none =>
      constructor
      · rintro ⟨s, hs, -⟩
        cases hs
      · intro _
        refine Yields.bind (yields_isSample m keys draw collection limit) fun sample hsample => ?_
        exact yields_pure (.sampled hsample)
  | some s =>
      have hids := yieldsUnless_relatedIds m keys draw s field collection limit
      constructor
      · rintro ⟨_, hs, hoverflows⟩
        cases hs
        exact hids.stops hoverflows
      · intro hfits
        refine (hids.yields fun hoverflows => hfits ⟨s, rfl, hoverflows⟩).mono ?_
        rintro _ rfl
        exact .supplied s

end Found

section Gathered

variable {m : MemoryStore} {field : String} {source : Option String} {limit : Nat}
variable {r : Resolution}

/-- The suggestions made of the ids that are found in a collection. -/
def AreFrom (m : MemoryStore) (field : String) (source : Option String) (limit : Nat)
    (collection : String) (suggestions : List Suggestion) : Prop :=
  ∃ ids, IsFoundIn m field limit collection source ids ∧
    suggestions = Suggestion.ofFound collection ids

/-- The suggestions of each collection that is searched, put into one list and ranked. -/
structure IsGathered (m : MemoryStore) (field : String) (source : Option String) (limit : Nat)
    (r : Resolution) : Prop where
  field_eq : r.field = field
  collections_eq : r.collections = searched field m.liveNames
  exists_lists : ∃ lists : List (List Suggestion),
    List.Forall₂ (AreFrom m field source limit) r.collections lists ∧
    r.suggestions = ranked limit lists.flatten

/-- With a source, the ids of one of the collections that are searched cannot be filled up: twice
the limit is no word, and fewer ids than the limit are referenced there. -/
def Overflows (m : MemoryStore) (field : String) (source : Option String) (limit : Nat) : Prop :=
  ∃ c ∈ searched field m.liveNames, OverflowsAt m field source limit c

theorem not_overflows (hlimit : 2 * limit < 2 ^ 64) : ¬ Overflows m field source limit := by
  rintro ⟨c, -, s, -, hword, -⟩
  omega

theorem yieldsUnless_isGathered
    (m : MemoryStore)
    (keys : Nat → Nat)
    (draw : List Query → Nat)
    (field : String)
    (source : Option String)
    (limit : Nat) :
    YieldsUnless (some (m.store keys draw)) (ofField field source limit)
      (Overflows m field source limit)
      (IsGathered m field source limit) := by
  refine Yields.bind_unless (yields_liveNames m keys draw) ?_
  rintro _ rfl
  have hfound : ∀ c ∈ searched field m.liveNames,
      YieldsUnless (some (m.store keys draw))
        (do pure (Suggestion.ofFound c (← idsFrom field source limit c)))
        (OverflowsAt m field source limit c)
        (AreFrom m field source limit c) := by
    intro c _
    refine (yieldsUnless_idsFrom m keys draw field source limit c).bind fun ids hids => ?_
    exact yields_pure ⟨ids, hids, rfl⟩
  refine (yieldsUnless_mapM _ hfound).bind fun lists hlists => yields_pure ?_
  exact ⟨rfl, rfl, lists, hlists, rfl⟩

/-- A suggestion is made of an id that was found in one of the collections. -/
theorem exists_found_of_mem_flatten
    {collections : List String}
    {lists : List (List Suggestion)}
    (h : List.Forall₂ (AreFrom m field source limit) collections lists)
    {s : Suggestion}
    (hs : s ∈ lists.flatten) :
    ∃ c ∈ collections, ∃ ids, IsFoundIn m field limit c source ids ∧
      s ∈ Suggestion.ofFound c ids := by
  induction h with
  | nil => cases hs
  | @cons c suggestions collections lists hfirst _ ih =>
      obtain ⟨ids, hids, rfl⟩ := hfirst
      rcases List.mem_append.mp hs with hs | hs
      · exact ⟨c, List.mem_cons_self, ids, hids, hs⟩
      · obtain ⟨e, he, hfound⟩ := ih hs
        exact ⟨e, List.mem_cons_of_mem _ he, hfound⟩

theorem filter_ofFound (c : String) (ids : List FoundId) :
    (Suggestion.ofFound c ids).filter Suggestion.isReferenced =
      Suggestion.ofFound c (ids.filter FoundId.isReferenced) := by
  unfold Suggestion.ofFound
  rw [List.filter_map]
  refine List.map_congr_left fun i hi => ?_
  have hreferenced : i.isReferenced = true := (List.mem_filter.mp hi).2
  simp only [hreferenced, if_true]

theorem filter_flatten
    {collections : List String}
    {lists : List (List Suggestion)}
    (h : List.Forall₂ (AreFrom m field source limit) collections lists) :
    lists.flatten.filter Suggestion.isReferenced =
      collections.flatMap fun c =>
        Suggestion.ofFound c (referencedAt m field source limit c) := by
  induction h with
  | nil => rfl
  | @cons c suggestions collections lists hfirst _ ih =>
      obtain ⟨ids, hids, rfl⟩ := hfirst
      rw [List.flatten_cons, List.filter_append, List.flatMap_cons, filter_ofFound, hids.filter_eq,
        ih]

end Gathered

section Searched

variable {m : MemoryStore} {field : String}

/-- What some items are turned into is turned from items in the same order. -/
theorem exists_sublist_of_filterMap
    {α β : Type}
    {f : α → Option β}
    {xs : List α}
    {ys : List β}
    (h : ys.Sublist (xs.filterMap f)) :
    ∃ chosen : List α, chosen.Sublist xs ∧ List.Forall₂ (fun x y => f x = some y) chosen ys := by
  induction xs generalizing ys with
  | nil =>
      obtain rfl := List.sublist_nil.mp h
      exact ⟨[], .refl [], .nil⟩
  | cons x xs ih =>
      cases hx : f x with
      | none =>
          rw [List.filterMap_cons_none hx] at h
          obtain ⟨chosen, hchosen, hall⟩ := ih h
          exact ⟨chosen, hchosen.cons x, hall⟩
      | some y =>
          rw [List.filterMap_cons_some hx] at h
          cases h with
          | cons _ h =>
              obtain ⟨chosen, hchosen, hall⟩ := ih h
              exact ⟨chosen, hchosen.cons x, hall⟩
          | cons_cons _ h =>
              obtain ⟨chosen, hchosen, hall⟩ := ih h
              exact ⟨x :: chosen, hchosen.cons_cons x, .cons hx hall⟩

/-- The collections that are searched are called like candidates, in their order. -/
theorem exists_candidates_searched (field : String) (existing : List String) :
    ∃ names, names.Sublist (Reference.candidates field) ∧
      List.Forall₂ (fun name c => Reference.sameName c name = true) names
        (searched field existing) := by
  obtain ⟨names, hnames, hall⟩ := exists_sublist_of_filterMap
    (eraseDups_sublist ((Reference.candidates field).filterMap fun name =>
      existing.find? fun e => Reference.sameName e name))
  exact ⟨names, hnames, hall.imp fun name c hc => by simpa using List.find?_some hc⟩

theorem mem_liveNames_of_mem_searched
    {c : String}
    (h : c ∈ searched field m.liveNames) :
    c ∈ m.liveNames := by
  obtain ⟨name, -, hfind⟩ := mem_searched.mp h
  exact List.mem_of_find?_eq_some hfind

/-- A candidate that there is a collection of is searched for. -/
theorem exists_searched_of_candidate
    {name e : String}
    (hname : name ∈ Reference.candidates field)
    (he : e ∈ m.liveNames)
    (hsame : Reference.sameName e name = true) :
    ∃ c ∈ searched field m.liveNames, Reference.sameName c name = true := by
  have hsome : (m.liveNames.find? fun e => Reference.sameName e name).isSome = true :=
    List.find?_isSome.mpr ⟨e, he, hsame⟩
  obtain ⟨c, hc⟩ := Option.isSome_iff_exists.mp hsome
  exact ⟨c, mem_searched.mpr ⟨name, hname, hc⟩, by simpa using List.find?_some hc⟩

end Searched

section Result

variable {m : MemoryStore} {field : String} {source : Option String} {limit : Nat}
variable {r : Resolution}

/-- What the ids for a field are, whatever the store is asked before and draws at random. -/
structure RanksReferences (m : MemoryStore) (field : String) (source : Option String) (limit : Nat)
    (r : Resolution) : Prop where
  field_eq : r.field = field
  nodup_collections : r.collections.Nodup
  /-- The collections are there, and none of them is one of the system. -/
  exists_collection : ∀ c ∈ r.collections,
    (∃ e ∈ m.collections, e.1 = c) ∧ c.startsWith "system." = false
  in_order : ∃ names, names.Sublist (Reference.candidates field) ∧
    List.Forall₂ (fun name c => Reference.sameName c name = true) names r.collections
  exists_searched : ∀ name ∈ Reference.candidates field, ∀ e ∈ m.collections,
    e.1.startsWith "system." = false → Reference.sameName e.1 name = true →
      ∃ c ∈ r.collections, Reference.sameName c name = true
  length_le : r.suggestions.length ≤ limit
  pairwise_confidence : r.suggestions.Pairwise fun a b => b.confidence ≤ a.confidence
  exists_document : ∀ s ∈ r.suggestions, s.collection ∈ r.collections ∧
    ∃ d ∈ m.documents s.collection, s.id = d.idText ∧ s.displayName = d.displayName
  /-- An id is marked as referenced only if a document of the source holds it. -/
  exists_holdsId : ∀ s ∈ r.suggestions, s.isReferenced = true →
    (∀ d ∈ m.documents s.collection, d.HasPlainId) →
      ∃ name ∈ source, ∃ e ∈ m.documents name, e.HoldsId field s.id
  success_iff : r.json.get? "success" = some (.bool true) ↔ r.suggestions ≠ []
  pairwise_referenced : r.suggestions.Pairwise fun a b =>
    b.isReferenced = true → a.isReferenced = true
  /-- Of the referenced ids of all collections the first ones are kept. -/
  filter_eq : r.suggestions.filter Suggestion.isReferenced =
    (r.collections.flatMap fun c =>
      Suggestion.ofFound c (referencedAt m field source limit c)).take limit
  /-- With any other id kept, all of them are. -/
  filter_eq_all : (∃ s ∈ r.suggestions, s.isReferenced = false) →
    r.suggestions.filter Suggestion.isReferenced =
      r.collections.flatMap fun c => Suggestion.ofFound c (referencedAt m field source limit c)
  /-- Then every id of a searched collection that a document of the source holds is suggested. -/
  exists_referenced : (∃ s ∈ r.suggestions, s.isReferenced = false) →
    ∀ name ∈ source, ∀ c ∈ r.collections, ∀ d ∈ m.documents c, ∀ hex, d.HasId hex →
      (∃ e ∈ m.documents name, e.HoldsId field hex) →
        ∃ s ∈ r.suggestions, s.collection = c ∧ s.id = hex ∧ s.isReferenced = true

theorem mem_ofFound_parts
    {c : String}
    {ids : List FoundId}
    {s : Suggestion}
    (h : s ∈ Suggestion.ofFound c ids) :
    s.collection = c ∧ ∃ i ∈ ids, s.id = i.id ∧ s.displayName = i.displayName := by
  obtain ⟨i, hi, rfl⟩ := List.mem_map.mp h
  exact ⟨rfl, i, hi, rfl, rfl⟩

theorem exists_mem_ofFound
    (c : String)
    {ids : List FoundId}
    {i : FoundId}
    (h : i ∈ ids) :
    ∃ s ∈ Suggestion.ofFound c ids,
      s.collection = c ∧ s.id = i.id ∧ s.isReferenced = i.isReferenced :=
  ⟨_, List.mem_map_of_mem h, rfl, rfl, rfl⟩

theorem success_iff_suggestions (r : Resolution) :
    r.json.get? "success" = some (.bool true) ↔ r.suggestions ≠ [] := by
  simp [Resolution.json, Json.get?, Json.lookup]

/-- With a suggestion kept that no document refers to, none is dropped that one refers to. -/
theorem filter_eq_of_unreferenced
    (hfilter : r.suggestions.filter Suggestion.isReferenced =
      (r.collections.flatMap fun c =>
        Suggestion.ofFound c (referencedAt m field source limit c)).take limit)
    (hlength : r.suggestions.length ≤ limit)
    (hother : ∃ s ∈ r.suggestions, s.isReferenced = false) :
    (r.collections.flatMap fun c =>
        Suggestion.ofFound c (referencedAt m field source limit c)).length < limit ∧
      r.suggestions.filter Suggestion.isReferenced =
        r.collections.flatMap fun c =>
          Suggestion.ofFound c (referencedAt m field source limit c) := by
  obtain ⟨s, hs, hfalse⟩ := hother
  have hfewer : (r.suggestions.filter Suggestion.isReferenced).length < r.suggestions.length :=
    List.length_filter_lt_length_iff_exists.mpr ⟨s, hs, by simp [hfalse]⟩
  rw [hfilter, List.length_take] at hfewer
  have hlt : (r.collections.flatMap fun c =>
      Suggestion.ofFound c (referencedAt m field source limit c)).length < limit := by omega
  exact ⟨hlt, by rw [hfilter, List.take_of_length_le hlt.le]⟩

/-- With fewer referenced ids than there may be, every id of a collection that a document of the
source holds is among them. -/
theorem exists_suggestion_of_holdsId
    {collections : List String}
    {name c hex : String}
    {d : Document}
    (hlt : (collections.flatMap fun c =>
      Suggestion.ofFound c (referencedAt m field (some name) limit c)).length < limit)
    (hc : c ∈ collections)
    (hd : d ∈ m.documents c)
    (hid : d.HasId hex)
    (hheld : ∃ e ∈ m.documents name, e.HoldsId field hex) :
    ∃ s ∈ collections.flatMap fun c =>
        Suggestion.ofFound c (referencedAt m field (some name) limit c),
      s.collection = c ∧ s.id = hex ∧ s.isReferenced = true := by
  have hpart : (Suggestion.ofFound c (referencedIds m name field c limit)).Sublist
      (collections.flatMap fun c =>
        Suggestion.ofFound c (referencedAt m field (some name) limit c)) :=
    List.sublist_flatten_of_mem (List.mem_map_of_mem hc)
  have hfew : (referencedIn (m.documents c) (digitsAt m name field) limit).length < limit := by
    have hle := hpart.length_le
    rw [Suggestion.ofFound, referencedIds, List.length_map, List.length_map] at hle
    omega
  have hmem : found true d ∈ referencedIds m name field c limit :=
    List.mem_map_of_mem (mem_referencedIn_of_hasId hfew hd (mem_digitsAt.mpr hheld) hid)
  obtain ⟨s, hs, hcollection, hsid, hreferenced⟩ := exists_mem_ofFound c hmem
  obtain ⟨e, -, hholds⟩ := hheld
  exact ⟨s, hpart.subset hs, hcollection, hsid.trans (hid.idText hholds.isObjectId), hreferenced⟩

theorem IsGathered.ranksReferences (h : IsGathered m field source limit r) :
    RanksReferences m field source limit r := by
  obtain ⟨hfield, hcollections, lists, hlists, hsuggestions⟩ := h
  have hfound : ∀ s ∈ lists.flatten, ∃ c ∈ r.collections, ∃ ids,
      IsFoundIn m field limit c source ids ∧ s ∈ Suggestion.ofFound c ids :=
    fun s hs => exists_found_of_mem_flatten hlists hs
  have hmarked : ∀ s ∈ lists.flatten, s.IsMarked := by
    intro s hs
    obtain ⟨c, -, ids, -, hmem⟩ := hfound s hs
    exact Suggestion.isMarked_of_mem_ofFound hmem
  have hmarkedKept : ∀ s ∈ r.suggestions, s.IsMarked :=
    fun s hs => hmarked s (mem_of_mem_ranked (hsuggestions ▸ hs))
  have hsorted : r.suggestions.Pairwise fun a b => a.mayPrecede b = true :=
    hsuggestions ▸ pairwise_mayPrecede_ranked limit
  have hlength : r.suggestions.length ≤ limit := hsuggestions ▸ List.length_take_le _ _
  have hfilter : r.suggestions.filter Suggestion.isReferenced =
      (r.collections.flatMap fun c =>
        Suggestion.ofFound c (referencedAt m field source limit c)).take limit := by
    rw [hsuggestions, filter_isReferenced_ranked hmarked, filter_flatten hlists]
  exact {
    field_eq := hfield
    nodup_collections := hcollections ▸ nodup_eraseDups _
    exists_collection := fun c hc =>
      MemoryStore.mem_liveNames.mp (mem_liveNames_of_mem_searched (hcollections ▸ hc))
    in_order := hcollections ▸ exists_candidates_searched field m.liveNames
    exists_searched := fun name hname e he hlive hsame => hcollections ▸
      exists_searched_of_candidate hname (MemoryStore.mem_liveNames.mpr ⟨⟨e, he, rfl⟩, hlive⟩) hsame
    length_le := hlength
    pairwise_confidence :=
      hsuggestions ▸ (isRanked_ranked (fun s hs => (hmarked s hs).isGraded) limit).pairwise
    exists_document := fun s hs => by
      obtain ⟨c, hc, ids, hids, hmem⟩ := hfound s (mem_of_mem_ranked (hsuggestions ▸ hs))
      obtain ⟨rfl, i, hi, hid, hname⟩ := mem_ofFound_parts hmem
      obtain ⟨d, hd, hdid, hdname⟩ := hids.exists_document hi
      exact ⟨hc, d, hd, hid.trans hdid, hname.trans hdname⟩
    exists_holdsId := fun s hs hreferenced hplain => by
      have hmem : s ∈ r.suggestions.filter Suggestion.isReferenced :=
        List.mem_filter.mpr ⟨hs, hreferenced⟩
      rw [hfilter] at hmem
      obtain ⟨c, -, hmem⟩ := List.mem_flatMap.mp (List.mem_of_mem_take hmem)
      obtain ⟨rfl, i, hi, hid, -⟩ := mem_ofFound_parts hmem
      exact hid ▸ exists_holdsId_of_mem_referencedAt hplain hi
    success_iff := success_iff_suggestions r
    pairwise_referenced := pairwise_isReferenced hmarkedKept hsorted
    filter_eq := hfilter
    filter_eq_all := fun hother => (filter_eq_of_unreferenced hfilter hlength hother).2
    exists_referenced := fun hother name hname c hc d hd hex hid hheld => by
      obtain rfl : source = some name := hname
      obtain ⟨hlt, hall⟩ := filter_eq_of_unreferenced hfilter hlength hother
      obtain ⟨s, hs, hsuggested⟩ := exists_suggestion_of_holdsId hlt hc hd hid hheld
      rw [← hall] at hs
      exact ⟨s, (List.mem_filter.mp hs).1, hsuggested⟩ }

/-- For every store in memory, every field, source and limit, whatever is asked before and drawn at
random: no result is given if the ids of a collection cannot be filled up, and else there is one in
which the ids that documents refer to win. -/
theorem ranksReferences_ofField
    (m : MemoryStore)
    (keys : Nat → Nat)
    (draw : List Query → Nat)
    (field : String)
    (source : Option String)
    (limit : Nat) :
    YieldsUnless (some (m.store keys draw)) (ofField field source limit)
      (Overflows m field source limit)
      (RanksReferences m field source limit) :=
  (yieldsUnless_isGathered m keys draw field source limit).mono fun _ h => h.ranksReferences

/-- Two users, and an order of the first. -/
def customers : MemoryStore :=
  ⟨[("orders", [[("userId", Json.ofObjectId "0123456789abcdef01234567")]]),
    ("users", [[("_id", Json.ofObjectId "0123456789abcdef01234567"), ("name", .str "Emma")],
      [("_id", Json.ofObjectId "fedcba9876543210fedcba98"), ("name", .str "Jane")]])]⟩

theorem overflows_customers : Overflows customers "userId" (some "orders") (2 ^ 63) := by
  have hlive : customers.liveNames = ["orders", "users"] :=
    MemoryStore.liveNames_eq (by decide +kernel) (by decide)
  have hsearched : searched "userId" ["orders", "users"] = ["users"] := by decide +kernel
  refine ⟨"users", ?_, "orders", rfl, by decide, by decide +kernel⟩
  rw [hlive, hsearched]
  exact List.mem_singleton_self _

/-- With half of all words as the limit, neither of the users is found. -/
theorem not_forall_exists_ranksReferences :
    ¬ ∀ (m : MemoryStore) (keys : Nat → Nat) (draw : List Query → Nat) (field : String)
        (source : Option String) (limit : Nat),
      limit < 2 ^ 64 →
      ∃ r, ((ofField field source limit).run (some (m.store keys draw))).1 = some r ∧
        RanksReferences m field source limit r := by
  intro hall
  obtain ⟨r, hr, -⟩ := hall customers id List.length "userId" (some "orders") (2 ^ 63) (by decide)
  have hstops := ((yieldsUnless_isGathered customers id List.length "userId" (some "orders")
    (2 ^ 63)).stops overflows_customers).run
  rw [hstops] at hr
  cases hr

end Result

end Resolution
end EndpointPayload
