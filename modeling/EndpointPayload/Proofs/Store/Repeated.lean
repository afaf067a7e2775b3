import EndpointPayload.Proofs.Store.Resolution

/-!
# Repeated suggestions

A suggestion names a document by its collection and the text of its id.  A store tells ids apart as
values, and an object id has the same text in both of its forms.  Filling a list of ids up compares
texts, so it repeats none.  The documents that are referenced, and those of a sample, are taken as
they are: with a source a suggestion is repeated exactly where one id is found in both forms, and
without one where a sample has two ids with the same text.
-/

namespace EndpointPayload

open Session

namespace Document

variable {d : Document} {docs : List Document} {digits : List String} {hex : String}

/-- Where two documents have ids, these are different values. -/
def HaveDistinctIds (docs : List Document) : Prop :=
  docs.Pairwise fun d e =>
    ∀ v ∈ Json.lookup idKey d, ∀ w ∈ Json.lookup idKey e, (v == w) = false

instance (docs : List Document) : Decidable (HaveDistinctIds docs) :=
  inferInstanceAs (Decidable (docs.Pairwise fun d e =>
    ∀ v ∈ Json.lookup idKey d, ∀ w ∈ Json.lookup idKey e, (v == w) = false))

/-- Where two documents have ids, these have different texts. -/
def HaveDistinctTexts (docs : List Document) : Prop :=
  docs.Pairwise fun d e => d.idText = e.idText → d.idText = ""

theorem idText_ne_of_accepts
    (hdigits : ∀ hex ∈ digits, Json.isObjectId hex = true)
    (h : (Filter.oneOf idKey (digits.flatMap Sampler.idForms)).accepts d = true) :
    d.idText ≠ "" := by
  by_cases hplain : d.HasPlainId
  · obtain ⟨hex, hhex, hid⟩ := (accepts_ids_iff hplain).mp h
    have hobject := hdigits hex hhex
    rw [hid.idText hobject]
    rintro rfl
    exact absurd hobject (by decide)
  · obtain ⟨items, hitems⟩ := not_forall.mp hplain
    rw [idText, not_not.mp hitems]
    simp [Json.objectId?, Json.display, Json.text, ← String.toList_inj]

/-- A document has one object id. -/
theorem HasId.eq_of_lookup
    {v : Json}
    {other : String}
    (h : d.HasId other)
    (hv : v ∈ Sampler.idForms hex)
    (hlookup : Json.lookup idKey d = some v) :
    hex = other := by
  obtain ⟨w, hw, hother⟩ := h
  obtain rfl : w = v := Option.some.inj (hother.symm.trans hlookup)
  simp only [Sampler.idForms, Json.ofObjectId, List.mem_cons, List.not_mem_nil, or_false] at hv hw
  rcases hv with rfl | rfl <;> simpa using hw

/-- Of two documents with the same object id and different ids, each has one of the forms. -/
theorem HasId.forms
    {e : Document}
    (hd : d.HasId hex)
    (he : e.HasId hex)
    (hdistinct : ∀ v ∈ Json.lookup idKey d, ∀ w ∈ Json.lookup idKey e, (v == w) = false) :
    (Json.lookup idKey d = some (Json.ofObjectId hex) ∧ Json.lookup idKey e = some (.str hex)) ∨
      (Json.lookup idKey e = some (Json.ofObjectId hex) ∧
        Json.lookup idKey d = some (.str hex)) := by
  obtain ⟨v, hv, hdv⟩ := hd
  obtain ⟨w, hw, hew⟩ := he
  have hne : v ≠ w := by
    intro heq
    have hfalse := hdistinct v hdv w hew
    rw [(Json.same_form_iff hw).mpr heq] at hfalse
    cases hfalse
  simp only [Sampler.idForms, List.mem_cons, List.not_mem_nil, or_false] at hv hw
  rcases hv with rfl | rfl <;> rcases hw with rfl | rfl
  · exact absurd rfl hne
  · exact .inl ⟨hdv, hew⟩
  · exact .inr ⟨hew, hdv⟩
  · exact absurd rfl hne

end Document

namespace Suggestion

/-- The document that is suggested: its collection, and its id. -/
def place (s : Suggestion) : String × String := (s.collection, s.id)

theorem map_place_ofFound (c : String) (ids : List FoundId) :
    (ofFound c ids).map place = (ids.map FoundId.id).map (c, ·) := by
  rw [ofFound, List.map_map, List.map_map]
  rfl

end Suggestion

namespace Resolution

open Sampler Document

section Found

variable {m : MemoryStore} {field collection name : String} {source : Option String} {limit : Nat}
variable {ids : List FoundId}

/-- With a source, only referenced ids are repeated. -/
theorem IsFoundIn.pairwise_referenced (h : IsFoundIn m field limit collection (some name) ids) :
    ids.Pairwise fun i j => i.id = j.id → i.isReferenced = true ∧ j.isReferenced = true := by
  cases h with
  | supplied =>
      obtain ⟨added, hids, -, hnodup, hnew⟩ :=
        exists_suppliedIds_eq m name field collection limit
      rw [hids, List.pairwise_append]
      refine ⟨?_, ?_, ?_⟩
      · have hreferenced : ∀ i ∈ referencedAt m field (some name) limit collection,
            i.isReferenced = true := fun _ => isReferenced_of_mem_referencedAt
        exact List.pairwise_of_forall_mem_list fun i hi j hj _ =>
          ⟨hreferenced i hi, hreferenced j hj⟩
      · refine List.pairwise_map.mpr ((List.pairwise_map.mp hnodup).imp ?_)
        exact fun hne heq => absurd heq hne
      · intro i hi j hj heq
        obtain ⟨d, hd, rfl⟩ := List.mem_map.mp hj
        have hid : i.id = d.idText := heq
        exact absurd (hid ▸ List.mem_map_of_mem hi) (hnew d hd)

/-- The documents that are referenced have different ids if those of the collection have. -/
theorem pairwise_referencedAt
    (hdocs : HaveDistinctTexts (m.documents collection)) :
    (referencedAt m field source limit collection).Pairwise fun i j => i.id ≠ j.id := by
  cases source with
  | none =>
      exact .nil
  | some name =>
      have hdigits : ∀ hex ∈ digitsAt m name field, Json.isObjectId hex = true := by
        intro hex hhex
        obtain ⟨e, -, hholds⟩ := mem_digitsAt.mp hhex
        exact hholds.isObjectId
      refine List.pairwise_map.mpr ?_
      refine (hdocs.sublist (referencedIn_sublist _ _ limit)).imp_of_mem fun {d e} hd _ h heq => ?_
      have haccepts := (List.mem_filter.mp (List.mem_of_mem_take hd)).2
      exact idText_ne_of_accepts hdigits haccepts (h heq)

/-- Ids are different if those of the collection have different texts. -/
theorem IsFoundIn.pairwise_ne
    (h : IsFoundIn m field limit collection source ids)
    (hdocs : HaveDistinctTexts (m.documents collection)) :
    ids.Pairwise fun i j => i.id = j.id → False := by
  cases source with
  | none =>
      cases h with
      | @sampled sample hsample =>
          obtain ⟨chosen, hperm, hsublist⟩ := hsample.subperm
          have hsymm : ∀ {d e : Document}, (d.idText = e.idText → d.idText = "") →
              e.idText = d.idText → e.idText = "" :=
            fun h heq => heq.trans (h heq.symm)
          have hall := (hperm.pairwise_iff hsymm).mp (hdocs.sublist hsublist)
          refine List.pairwise_map.mpr (List.pairwise_filter.mpr (hall.imp fun h hd _ heq => ?_))
          exact of_decide_eq_true hd (h heq)
  | some name =>
      have hreferenced : (referencedAt m field (some name) limit collection).Pairwise
          fun i j => i.id ≠ j.id := pairwise_referencedAt hdocs
      rw [← h.filter_eq, List.pairwise_filter] at hreferenced
      refine hreferenced.imp₂ (fun i j hne h heq => ?_) h.pairwise_referenced
      exact hne (h heq).1 (h heq).2 heq

end Found

section Gathered

variable {m : MemoryStore} {field name : String} {source : Option String} {limit : Nat}
variable {r : Resolution} {collections : List String} {lists : List (List Suggestion)}

/-- Suggestions of different collections are different, so what holds of any two ids of a collection
with the same text holds of any two suggestions at the same place. -/
theorem pairwise_flatten
    (P : Bool → Bool → Prop)
    (hnodup : collections.Nodup)
    (h : List.Forall₂ (AreFrom m field source limit) collections lists)
    (hids : ∀ c ∈ collections, ∀ ids, IsFoundIn m field limit c source ids →
      ids.Pairwise fun i j => i.id = j.id → P i.isReferenced j.isReferenced) :
    lists.flatten.Pairwise fun a b => a.place = b.place → P a.isReferenced b.isReferenced := by
  induction h with
  | nil => exact .nil
  | @cons c suggestions collections lists hfirst hrest ih =>
      obtain ⟨ids, hfound, rfl⟩ := hfirst
      obtain ⟨hnew, hnodup⟩ := List.nodup_cons.mp hnodup
      rw [List.flatten_cons, List.pairwise_append]
      refine ⟨?_, ih hnodup fun e he => hids e (List.mem_cons_of_mem _ he), ?_⟩
      · refine List.pairwise_map.mpr ((hids c List.mem_cons_self ids hfound).imp ?_)
        exact fun himp hplace => himp (Prod.mk.inj hplace).2
      · -- The collection of the first list is none of the others, so the places differ.
        intro a ha b hb hplace
        obtain ⟨e, he, ids', -, hb⟩ := exists_found_of_mem_flatten hrest hb
        have hcollection : a.collection = b.collection := (Prod.mk.inj hplace).1
        rw [(mem_ofFound_parts ha).1, (mem_ofFound_parts hb).1] at hcollection
        exact absurd (hcollection ▸ he) hnew

/-- The same of the suggestions that are kept. -/
theorem IsGathered.pairwise
    (h : IsGathered m field source limit r)
    (P : Bool → Bool → Prop)
    (hsymm : ∀ {a b}, P a b → P b a)
    (hids : ∀ c ∈ r.collections, ∀ ids, IsFoundIn m field limit c source ids →
      ids.Pairwise fun i j => i.id = j.id → P i.isReferenced j.isReferenced) :
    r.suggestions.Pairwise fun a b => a.place = b.place → P a.isReferenced b.isReferenced := by
  obtain ⟨lists, hlists, hsuggestions⟩ := h.exists_lists
  rw [hsuggestions]
  exact pairwise_ranked (fun himp hplace => hsymm (himp hplace.symm))
    (pairwise_flatten P h.ranksReferences.nodup_collections hlists hids) limit

theorem IsGathered.nodup_of_texts
    (h : IsGathered m field source limit r)
    (hdocs : ∀ c ∈ r.collections, HaveDistinctTexts (m.documents c)) :
    (r.suggestions.map Suggestion.place).Nodup := by
  refine List.pairwise_map.mpr (h.pairwise (fun _ _ => False) (fun hfalse => hfalse) ?_)
  exact fun c hc ids hids => hids.pairwise_ne (hdocs c hc)

/-- The referenced documents that are kept, with their collections. -/
def referencedDocuments (m : MemoryStore) (source field : String) (limit : Nat)
    (collections : List String) : List (String × Document) :=
  (collections.flatMap fun c =>
    (referencedIn (m.documents c) (digitsAt m source field) limit).map (c, ·)).take limit

/-- The place of a document, as a suggestion shows it. -/
def placeOf (p : String × Document) : String × String := (p.1, p.2.idText)

theorem map_place_filter (h : IsGathered m field (some name) limit r) :
    (r.suggestions.filter Suggestion.isReferenced).map Suggestion.place =
      (referencedDocuments m name field limit r.collections).map placeOf := by
  rw [h.ranksReferences.filter_eq, referencedDocuments, List.map_take, List.map_take,
    List.map_flatMap, List.map_flatMap]
  congr 2
  funext c
  rw [Suggestion.map_place_ofFound, referencedAt, referencedIds]
  simp only [List.map_map]
  rfl

/-- With a source, no suggestion is repeated if none of a referenced document is. -/
theorem IsGathered.nodup_iff_texts (h : IsGathered m field (some name) limit r) :
    (r.suggestions.map Suggestion.place).Nodup ↔
      ((referencedDocuments m name field limit r.collections).map placeOf).Nodup := by
  rw [← map_place_filter h]
  constructor
  · exact fun hnodup => hnodup.sublist (List.filter_sublist.map _)
  · intro hnodup
    have hreferenced := List.pairwise_filter.mp (List.pairwise_map.mp hnodup)
    -- Two suggestions at one place are both referenced, so the filter has dropped neither.
    have hboth := h.pairwise (fun x y => x = true ∧ y = true) (fun h => h.symm)
      fun c _ ids hids => hids.pairwise_referenced
    refine List.pairwise_map.mpr (hreferenced.imp₂ (fun a b hne h hplace => ?_) hboth)
    exact hne (h hplace).1 (h hplace).2 hplace

/-- A referenced document with some id is kept. -/
def KeepsId (m : MemoryStore) (source field : String) (limit : Nat) (collections : List String)
    (collection : String) (v : Json) : Prop :=
  ∃ d, (collection, d) ∈ referencedDocuments m source field limit collections ∧
    Json.lookup idKey d = some v

theorem mem_referencedDocuments
    {p : String × Document}
    (h : p ∈ referencedDocuments m name field limit collections) :
    p.1 ∈ collections ∧ p.2 ∈ referencedIn (m.documents p.1) (digitsAt m name field) limit := by
  obtain ⟨c, hc, hp⟩ := List.mem_flatMap.mp (List.mem_of_mem_take h)
  obtain ⟨d, hd, rfl⟩ := List.mem_map.mp hp
  exact ⟨hc, hd⟩

theorem exists_hasId
    (hplain : ∀ c ∈ collections, ∀ d ∈ m.documents c, d.HasPlainId)
    {p : String × Document}
    (h : p ∈ referencedDocuments m name field limit collections) :
    ∃ hex, p.2.HasId hex ∧ p.2.idText = hex := by
  obtain ⟨hc, hd⟩ := mem_referencedDocuments h
  obtain ⟨-, hex, hhex, hid⟩ := mem_referencedIn (hplain p.1 hc) hd
  obtain ⟨e, -, hholds⟩ := mem_digitsAt.mp hhex
  exact ⟨hex, hid, hid.idText hholds.isObjectId⟩

theorem pairwise_referencedDocuments
    (hnodup : collections.Nodup)
    (hdistinct : ∀ c ∈ collections, HaveDistinctIds (m.documents c)) :
    (referencedDocuments m name field limit collections).Pairwise fun p q =>
      p.1 = q.1 →
        ∀ v ∈ Json.lookup idKey p.2, ∀ w ∈ Json.lookup idKey q.2, (v == w) = false := by
  refine List.Pairwise.sublist (List.take_sublist _ _) (List.pairwise_flatMap.mpr ⟨?_, ?_⟩)
  · intro c hc
    have hkept := (hdistinct c hc).sublist (referencedIn_sublist _ (digitsAt m name field) limit)
    refine List.pairwise_map.mpr (hkept.imp ?_)
    exact fun hids _ => hids
  · refine hnodup.imp fun {c e} hne p hp q hq hsame => absurd ?_ hne
    obtain ⟨d, -, rfl⟩ := List.mem_map.mp hp
    obtain ⟨d', -, rfl⟩ := List.mem_map.mp hq
    exact hsame

/-- With different ids that are no arrays, exactly an id in both forms is repeated. -/
theorem nodup_placeOf_iff
    (hnodup : collections.Nodup)
    (hdistinct : ∀ c ∈ collections, HaveDistinctIds (m.documents c))
    (hplain : ∀ c ∈ collections, ∀ d ∈ m.documents c, d.HasPlainId) :
    ((referencedDocuments m name field limit collections).map placeOf).Nodup ↔
      ∀ c hex, ¬ (KeepsId m name field limit collections c (Json.ofObjectId hex) ∧
        KeepsId m name field limit collections c (.str hex)) := by
  constructor
  · rintro hplaces c hex ⟨⟨d, hd, hdid⟩, ⟨e, he, heid⟩⟩
    obtain ⟨x, hx, hdtext⟩ := exists_hasId hplain hd
    obtain ⟨y, hy, hetext⟩ := exists_hasId hplain he
    obtain rfl : hex = x := hx.eq_of_lookup (by simp [idForms]) hdid
    obtain rfl : hex = y := hy.eq_of_lookup (by simp [idForms]) heid
    have hplace : placeOf (c, d) = placeOf (c, e) := congrArg (c, ·) (hdtext.trans hetext.symm)
    have hsame := List.inj_on_of_nodup_map hplaces hd he hplace
    rw [← (Prod.mk.inj hsame).2, hdid] at heid
    cases heid
  · intro hnone
    refine List.pairwise_map.mpr ?_
    refine (pairwise_referencedDocuments hnodup hdistinct).imp_of_mem
      fun {p q} hp hq hids hplace => ?_
    obtain ⟨c, d⟩ := p
    obtain ⟨e, d'⟩ := q
    obtain ⟨x, hx, hdtext⟩ := exists_hasId hplain hp
    obtain ⟨y, hy, hetext⟩ := exists_hasId hplain hq
    obtain ⟨rfl, htext⟩ := Prod.mk.inj hplace
    obtain rfl : x = y := hdtext.symm.trans (htext.trans hetext)
    rcases hx.forms hy (hids rfl) with ⟨hobject, hstring⟩ | ⟨hobject, hstring⟩
    · exact hnone c x ⟨⟨d, hp, hobject⟩, ⟨d', hq, hstring⟩⟩
    · exact hnone c x ⟨⟨d', hq, hobject⟩, ⟨d, hp, hstring⟩⟩

end Gathered

section Samples

variable {m : MemoryStore} {field : String} {limit : Nat}
variable {r : Resolution} {collections : List String} {lists : List (List Suggestion)}

/-- The places of the documents of samples. -/
def sampledPlaces (collections : List String) (samples : List (List Document)) :
    List (String × String) :=
  (collections.zip samples).flatMap fun p =>
    (p.2.filter fun d => d.idText ≠ "").map fun d => placeOf (p.1, d)

theorem exists_samples_flatten
    (h : List.Forall₂ (AreFrom m field none limit) collections lists) :
    ∃ samples, List.Forall₂ (fun c sample => IsSample limit (m.documents c) sample) collections
        samples ∧
      lists.flatten.map Suggestion.place = sampledPlaces collections samples := by
  induction h with
  | nil => exact ⟨[], .nil, rfl⟩
  | @cons c suggestions collections lists hfirst _ ih =>
      obtain ⟨ids, hids, rfl⟩ := hfirst
      obtain ⟨samples, hsamples, hplaces⟩ := ih
      cases hids with
      | @sampled sample hsample =>
          refine ⟨sample :: samples, .cons hsample hsamples, ?_⟩
          rw [List.flatten_cons, List.map_append, hplaces, Suggestion.map_place_ofFound,
            sampledPlaces, sampledPlaces, List.zip_cons_cons, List.flatMap_cons]
          simp only [List.map_map]
          rfl

/-- Without a source, all suggestions are equally sure. -/
theorem confidence_of_mem_flatten
    (h : List.Forall₂ (AreFrom m field none limit) collections lists)
    {s : Suggestion}
    (hs : s ∈ lists.flatten) :
    s.confidence = Suggestion.unreferenced := by
  obtain ⟨c, -, ids, hids, hs⟩ := exists_found_of_mem_flatten h hs
  have hnone : ids.filter FoundId.isReferenced = [] := hids.filter_eq
  have hany : ids.any FoundId.isReferenced = false :=
    List.any_eq_false.mpr (List.filter_eq_nil_iff.mp hnone)
  obtain ⟨i, hi, rfl⟩ := List.mem_map.mp hs
  have hother := List.filter_eq_nil_iff.mp hnone i hi
  simp only [hother, hany, Bool.false_eq_true, if_false]

/-- Without a source, the documents of samples are suggested in their order. -/
theorem IsGathered.exists_samples (h : IsGathered m field none limit r) :
    ∃ samples, List.Forall₂ (fun c sample => IsSample limit (m.documents c) sample) r.collections
        samples ∧
      r.suggestions.map Suggestion.place = (sampledPlaces r.collections samples).take limit := by
  obtain ⟨lists, hlists, hsuggestions⟩ := h.exists_lists
  obtain ⟨samples, hsamples, hplaces⟩ := exists_samples_flatten hlists
  have hsorted : lists.flatten.Pairwise fun a b => a.mayPrecede b = true := by
    refine List.pairwise_of_forall_mem_list fun a ha b hb => ?_
    rw [Suggestion.mayPrecede, confidence_of_mem_flatten hlists ha,
      confidence_of_mem_flatten hlists hb]
    decide
  have hranked : ranked limit lists.flatten = lists.flatten.take limit :=
    congrArg (List.take limit) (List.mergeSort_of_pairwise hsorted)
  refine ⟨samples, hsamples, ?_⟩
  rw [hsuggestions, hranked, List.map_take, hplaces]

end Samples

section Result

variable {m : MemoryStore} {field : String} {source : Option String} {limit : Nat}
variable {r : Resolution}

/-- Which suggestions are repeated, in a store with different ids in each collection. -/
structure RepeatsForms (m : MemoryStore) (field : String) (source : Option String) (limit : Nat)
    (r : Resolution) : Prop where
  nodup_of_texts : (∀ c ∈ r.collections, HaveDistinctTexts (m.documents c)) →
    (r.suggestions.map Suggestion.place).Nodup
  /-- With a source, it depends on the referenced documents that are kept. -/
  nodup_iff_texts : ∀ name ∈ source,
    ((r.suggestions.map Suggestion.place).Nodup ↔
      ((referencedDocuments m name field limit r.collections).map placeOf).Nodup)
  /-- Of these, if no id is an array, exactly those with one id in both forms are repeated. -/
  nodup_iff_forms : ∀ name ∈ source,
    (∀ c ∈ r.collections, ∀ d ∈ m.documents c, d.HasPlainId) →
      ((r.suggestions.map Suggestion.place).Nodup ↔
        ∀ c hex, ¬ (KeepsId m name field limit r.collections c (Json.ofObjectId hex) ∧
          KeepsId m name field limit r.collections c (.str hex)))
  /-- Without a source, it depends on the texts of the samples. -/
  exists_samples : source = none →
    ∃ samples, List.Forall₂ (fun c sample => IsSample limit (m.documents c) sample) r.collections
        samples ∧
      r.suggestions.map Suggestion.place = (sampledPlaces r.collections samples).take limit

/-- For every store in memory with different ids in each collection, every field, source and limit,
whatever is asked before and drawn at random: where there is a result, only ids with the same text
are repeated, and of referenced documents only those with one id in both forms; and there is one
unless the ids of a collection cannot be filled up. -/
theorem repeatsForms_ofField
    (hdistinct : ∀ c, HaveDistinctIds (m.documents c))
    (keys : Nat → Nat)
    (draw : List Query → Nat)
    (field : String)
    (source : Option String)
    (limit : Nat) :
    YieldsUnless (some (m.store keys draw)) (ofField field source limit)
      (Overflows m field source limit)
      (RepeatsForms m field source limit) := by
  refine (yieldsUnless_isGathered m keys draw field source limit).mono fun r h => ?_
  refine ⟨h.nodup_of_texts, ?_, ?_, ?_⟩
  · rintro name hname
    obtain rfl : source = some name := hname
    exact h.nodup_iff_texts
  · rintro name hname hplain
    obtain rfl : source = some name := hname
    exact h.nodup_iff_texts.trans
      (nodup_placeOf_iff h.ranksReferences.nodup_collections (fun c _ => hdistinct c) hplain)
  · rintro rfl
    exact h.exists_samples

/-- Two users whose ids are the two forms of one, and an order of the first. -/
def accounts : MemoryStore :=
  ⟨[("orders", [[("userId", Json.ofObjectId "65a1b2c3d4e5f60718293a4b")]]),
    ("users", [[("_id", Json.ofObjectId "65a1b2c3d4e5f60718293a4b")],
      [("_id", .str "65a1b2c3d4e5f60718293a4b")]])]⟩

theorem haveDistinctIds_accounts (c : String) : HaveDistinctIds (accounts.documents c) := by
  by_cases horders : "orders" = c
  · subst horders
    decide +kernel
  · by_cases husers : "users" = c
    · subst husers
      decide +kernel
    · have hnone : accounts.documents c = [] := by
        simp [accounts, MemoryStore.documents, horders, husers]
      rw [hnone]
      exact .nil

/-- The ids of the users are different values with the same text. -/
theorem repeatsForms_accounts :
    (∀ c, HaveDistinctIds (accounts.documents c)) ∧
      Yields (some (accounts.store id List.length)) (ofField "userId" (some "orders") 5)
        (RepeatsForms accounts "userId" (some "orders") 5) :=
  ⟨haveDistinctIds_accounts,
    (repeatsForms_ofField haveDistinctIds_accounts id List.length "userId" (some "orders")
      5).yields (not_overflows (by decide))⟩

/-- By the query for its user, the one order refers to both. -/
theorem not_forall_nodup_places :
    ¬ ∀ (m : MemoryStore) (keys : Nat → Nat) (draw : List Query → Nat) (field : String)
        (source : Option String) (limit : Nat) (r : Resolution),
      (∀ c, HaveDistinctIds (m.documents c)) →
      ((ofField field source limit).run (some (m.store keys draw))).1 = some r →
      (r.suggestions.map Suggestion.place).Nodup := by
  intro hall
  obtain ⟨r, hr, hgathered⟩ := ((yieldsUnless_isGathered accounts id List.length "userId"
    (some "orders") 5).yields (not_overflows (by decide))).run
  have hnodup := hall accounts id List.length "userId" (some "orders") 5 r haveDistinctIds_accounts
    hr
  have hlive : accounts.liveNames = ["orders", "users"] :=
    MemoryStore.liveNames_eq (by decide +kernel) (by decide)
  have hcollections := hgathered.collections_eq
  have hsearched : searched "userId" ["orders", "users"] = ["users"] := by decide +kernel
  rw [hlive, hsearched] at hcollections
  have htexts := hgathered.nodup_iff_texts.mp hnodup
  rw [hcollections] at htexts
  exact absurd htexts (by decide +kernel)

end Result

end Resolution

end EndpointPayload
