import EndpointPayload.Proofs.Document.Labels
import EndpointPayload.Proofs.Document.TopLevel
import EndpointPayload.Proofs.Store.Memory

/-!
# Ids of a related collection

The sampler first asks for the documents that a field refers to, with their ids written in either
form, and fills the list up with further documents of the related collection.  A document that it
asks for is added or has been known.  It asks for twice as many of them as there may be ids, so as
many are found as there may be.
-/

namespace EndpointPayload

namespace Json

variable {v w : Json} {hex : String}

/-- Equal values are read as the same object id. -/
theorem objectId?_of_same
    (hsame : (v == w) = true)
    (h : v.objectId? = some hex) :
    w.objectId? = some hex := by
  cases same_iff_alike.mp hsame with
  | scalar => exact h
  | float => cases h
  | array => cases h
  | object hlength hfields =>
      simp only [objectId?] at h ⊢
      split at h
      · rename_i s hlookup
        obtain ⟨u, hu, hus⟩ := hfields _ (mem_of_lookup _ hlookup)
        cases same_iff_alike.mp hus
        rw [hu]
        exact h
      · cases h

/-- In both forms an id is read as itself. -/
theorem objectId?_of_mem_idForms
    (hhex : isObjectId hex = true)
    (hv : v ∈ Sampler.idForms hex) :
    v.objectId? = some hex := by
  simp only [Sampler.idForms, List.mem_cons, List.not_mem_nil, or_false] at hv
  rcases hv with rfl | rfl
  · simp [ofObjectId, objectId?, lookup, hhex]
  · simp [objectId?, hhex]

theorem same_ofObjectId_iff : same v (ofObjectId hex) = true ↔ v = ofObjectId hex := by
  rw [same_iff_alike]
  constructor
  · intro h
    cases h with
    | scalar hscalar => cases hscalar
    | object hlength hfields =>
        obtain ⟨⟨key, u⟩, rfl⟩ := List.length_eq_one_iff.mp hlength
        obtain ⟨x, hx, hux⟩ := hfields _ List.mem_cons_self
        obtain ⟨rfl, rfl⟩ : key = "$oid" ∧ x = .str hex := by
          simpa using mem_of_lookup _ hx
        obtain rfl : u = .str hex := same_str_iff.mp hux
        rfl
  · rintro rfl
    refine .object rfl fun f hf => ?_
    obtain rfl := List.mem_singleton.mp hf
    exact ⟨.str hex, rfl, same_str_iff.mpr rfl⟩

/-- Only a form of an id is equal to it. -/
theorem same_form_iff (hw : w ∈ Sampler.idForms hex) : (v == w) = true ↔ v = w := by
  simp only [Sampler.idForms, List.mem_cons, List.not_mem_nil, or_false] at hw
  rcases hw with rfl | rfl
  · exact same_ofObjectId_iff
  · exact same_str_iff

end Json

namespace Document

variable {d : Document} {docs source : List Document} {path hex : String} {digits : List String}

/-- A value of the document at a path is an object id, or an item of it is one if it is an array. -/
def HoldsId (path hex : String) (d : Document) : Prop :=
  ∃ v, d.at? path = some v ∧
    (v.objectId? = some hex ∨ ∃ items, v = .arr items ∧ ∃ w ∈ items, w.objectId? = some hex)

theorem holdsId_iff : d.HoldsId path hex ↔ ∃ v ∈ d.shownAt path, v.objectId? = some hex := by
  rw [HoldsId, shownAt]
  cases hat : d.at? path with
  | none => simp
  | some v =>
      cases v with
      | arr items => simp [Json.objectId?]
      | _ => simp

/-- A document that holds an id is found by the query for the field. -/
theorem HoldsId.accepts (h : d.HoldsId path hex) : (Filter.present path).accepts d = true := by
  obtain ⟨v, hat, hv⟩ := h
  rw [Filter.accepts, hat]
  cases v with
  | null => rcases hv with hv | ⟨items, hv, -⟩ <;> cases hv
  | _ => rfl

theorem HoldsId.isObjectId (h : d.HoldsId path hex) : Json.isObjectId hex = true := by
  obtain ⟨v, -, hv⟩ := holdsId_iff.1 h
  exact Json.isObjectId_of_objectId? hv

/-- The ids that are read off the values of a field are those that documents hold there. -/
theorem mem_objectIds_iff :
    hex ∈ ((MemoryStore.distinct (docs.filter (Filter.present path).accepts) path).filterMap
        Json.objectId?) ↔
      ∃ d ∈ docs, d.HoldsId path hex := by
  rw [MemoryStore.distinct_eq, List.mem_filterMap]
  constructor
  · rintro ⟨v, hv, hhex⟩
    obtain ⟨d, hd, hshown⟩ := List.mem_flatMap.mp ((eraseDups_sublist _).mem hv)
    exact ⟨d, (List.mem_filter.mp hd).1, holdsId_iff.2 ⟨v, hshown, hhex⟩⟩
  · rintro ⟨d, hd, hholds⟩
    obtain ⟨v, hshown, hhex⟩ := holdsId_iff.1 hholds
    have hmem : v ∈ (docs.filter (Filter.present path).accepts).flatMap (shownAt path) :=
      List.mem_flatMap.mpr ⟨d, List.mem_filter.mpr ⟨hd, hholds.accepts⟩, hshown⟩
    rcases mem_or_exists_beq_of_mem hmem with hkept | ⟨w, hw, hvw⟩
    · exact ⟨v, hkept, hhex⟩
    · exact ⟨w, hw, Json.objectId?_of_same hvw hhex⟩

/-- The id of the document is an object id, in one of its two forms. -/
def HasId (hex : String) (d : Document) : Prop :=
  ∃ v ∈ Sampler.idForms hex, Json.lookup idKey d = some v

theorem HasId.idText (h : d.HasId hex) (hhex : Json.isObjectId hex = true) : d.idText = hex := by
  obtain ⟨v, hv, hlookup⟩ := h
  rw [Document.idText, hlookup]
  simp only [Json.objectId?_of_mem_idForms hhex hv, Option.getD_some]

/-- The id of a document is not an array. -/
def HasPlainId (d : Document) : Prop := ∀ items, Json.lookup idKey d ≠ some (.arr items)

theorem HasId.hasPlainId (h : d.HasId hex) : d.HasPlainId := by
  obtain ⟨v, hv, hlookup⟩ := h
  rintro items harray
  obtain rfl : v = .arr items := Option.some.inj (hlookup.symm.trans harray)
  simp [Sampler.idForms, Json.ofObjectId] at hv

/-- A query for ids in both forms finds the documents that have them. -/
theorem accepts_ids_iff (hplain : d.HasPlainId) :
    (Filter.oneOf idKey (digits.flatMap Sampler.idForms)).accepts d = true ↔
      ∃ hex ∈ digits, d.HasId hex := by
  have hat : d.at? idKey = Json.lookup idKey d := at?_of_isTopLevelName (by decide +kernel)
  rw [Filter.accepts, hat]
  cases hlookup : Json.lookup idKey d with
  | none => simp [HasId, hlookup]
  | some v =>
      have hholds : ∀ w, Filter.holds w v = (v == w) := by
        intro w
        cases v with
        | arr items => exact absurd hlookup (hplain items)
        | _ => rfl
      simp only [Option.map_some, Option.getD_some, hholds, List.any_eq_true, List.mem_flatMap]
      constructor
      · rintro ⟨w, ⟨hex, hhex, hw⟩, hvw⟩
        obtain rfl := (Json.same_form_iff hw).mp hvw
        exact ⟨hex, hhex, v, hw, hlookup⟩
      · rintro ⟨hex, hhex, w, hw, heq⟩
        obtain rfl : v = w := Option.some.inj (hlookup.symm.trans heq)
        exact ⟨v, ⟨hex, hhex, hw⟩, (Json.same_form_iff hw).mpr rfl⟩

end Document

namespace Sampler

open Session Document

section Padding

variable {limit : Nat} {start : List String} {seen added docs : List Document} {ids : List FoundId}

/-- What has been added to some ids after some documents have been seen: each document with a new
id, until there are enough. -/
structure IsPadding (limit : Nat) (start : List String) (seen added : List Document) : Prop where
  sublist : added.Sublist seen
  nodup : (added.map idText).Nodup
  not_mem : ∀ d ∈ added, d.idText ≠ "" ∧ d.idText ∉ start
  length_le : added.length ≤ limit - start.length
  mem_of_lt : start.length + added.length < limit →
    ∀ d ∈ seen, d.idText = "" ∨ d.idText ∈ start ++ added.map idText

theorem IsPadding.nodup_append
    (h : IsPadding limit start seen added)
    (hstart : start.Nodup) :
    (start ++ added.map idText).Nodup := by
  refine hstart.append h.nodup fun s hs hmem => ?_
  obtain ⟨d, hd, rfl⟩ := List.mem_map.mp hmem
  exact (h.not_mem d hd).2 hs

/-- A document is passed over where there are enough ids, or where its own is none or known. -/
theorem IsPadding.skip
    {d : Document}
    (h : IsPadding limit start seen added)
    (hskip : limit ≤ start.length + added.length ∨
      d.idText = "" ∨ d.idText ∈ start ++ added.map idText) :
    IsPadding limit start (seen ++ [d]) added := by
  refine ⟨h.sublist.trans (List.sublist_append_left _ _), h.nodup, h.not_mem, h.length_le,
    fun hlt e he => ?_⟩
  rcases List.mem_append.mp he with hold | hlast
  · exact h.mem_of_lt hlt e hold
  · rw [List.mem_singleton.mp hlast]
    rcases hskip with hfull | hknown
    · omega
    · exact hknown

/-- A document with a new id is added where there is room. -/
theorem IsPadding.add
    {d : Document}
    (h : IsPadding limit start seen added)
    (hroom : start.length + added.length < limit)
    (hname : d.idText ≠ "")
    (hnew : d.idText ∉ start ++ added.map idText) :
    IsPadding limit start (seen ++ [d]) (added ++ [d]) := by
  obtain ⟨hstart, hadded⟩ := not_or.mp (mt List.mem_append.mpr hnew)
  refine ⟨h.sublist.append_right [d], ?_, fun e he => ?_, ?_, fun _ e he => ?_⟩
  · rw [List.map_append, List.map_singleton, ← List.concat_eq_append]
    exact h.nodup.concat hadded
  · rcases List.mem_append.mp he with hold | hlast
    · exact h.not_mem e hold
    · rw [List.mem_singleton.mp hlast]
      exact ⟨hname, hstart⟩
  · rw [List.length_append, List.length_singleton]
    omega
  · rw [List.map_append, ← List.append_assoc]
    rcases List.mem_append.mp he with hold | hlast
    · exact (h.mem_of_lt hroom e hold).imp_right (List.mem_append_left _)
    · rw [List.mem_singleton.mp hlast]
      simp

theorem map_id_append_found (ids : List FoundId) (isReferenced : Bool) (docs : List Document) :
    (ids ++ docs.map (found isReferenced)).map FoundId.id =
      ids.map FoundId.id ++ docs.map idText := by
  rw [List.map_append, List.map_map]
  rfl

/-- Filling a list of ids up adds documents to it. -/
theorem exists_pad_eq (limit : Nat) (ids : List FoundId) (docs : List Document) :
    ∃ added, pad limit ids docs = ids ++ added.map (found false) ∧
      IsPadding limit (ids.map FoundId.id) docs added := by
  -- The documents are seen in order, so the last one meets all that was added before.
  induction docs using List.reverseRecOn with
  | nil =>
      exact ⟨[], by simp [pad], {
        sublist := List.Sublist.refl []
        nodup := .nil
        not_mem := by simp
        length_le := Nat.zero_le _
        mem_of_lt := fun _ _ hd => absurd hd List.not_mem_nil }⟩
  | append_singleton seen d ih =>
      obtain ⟨added, hpad, hadded⟩ := ih
      rw [pad, List.foldl_concat, ← pad, hpad]
      have hknown : ((ids ++ added.map (found false)).any fun i => i.id = d.idText) = true ↔
          d.idText ∈ ids.map FoundId.id ++ added.map idText := by
        rw [← map_id_append_found ids false added]
        simp
      have hcount : (ids ++ added.map (found false)).length =
          (ids.map FoundId.id).length + added.length := by simp
      by_cases hskip : limit ≤ (ids.map FoundId.id).length + added.length ∨
          d.idText = "" ∨ d.idText ∈ ids.map FoundId.id ++ added.map idText
      · refine ⟨added, if_pos ?_, hadded.skip hskip⟩
        simpa only [Bool.or_eq_true, decide_eq_true_eq, hcount, hknown, or_assoc] using hskip
      · obtain ⟨hroom, hother⟩ := not_or.mp hskip
        obtain ⟨hname, hnew⟩ := not_or.mp hother
        refine ⟨added ++ [d], ?_, hadded.add (Nat.lt_of_not_le hroom) hname hnew⟩
        rw [if_neg, List.map_append, List.append_assoc, List.map_singleton]
        simpa only [Bool.or_eq_true, decide_eq_true_eq, hcount, hknown, or_assoc] using hskip

end Padding

section Result

variable {source related : List Document} {field : String} {limit : Nat}

/-- The ids of a related collection, those that a field of a source refers to before the others. -/
structure AreRelated (source related : List Document) (field : String) (limit : Nat)
    (ids : List FoundId) : Prop where
  length_eq : ids.length = min limit related.length
  nodup : (ids.map FoundId.id).Nodup
  exists_document : ∀ i ∈ ids, ∃ d ∈ related, i.id = d.idText ∧ i.displayName = d.displayName
  pairwise_referenced : ids.Pairwise fun a b => b.isReferenced = true → a.isReferenced = true
  holdsId : ∀ i ∈ ids, i.isReferenced = true → ∃ d ∈ source, d.HoldsId field i.id
  /-- Where there is room for more, no referenced id is missing. -/
  mem_of_room : (∃ i ∈ ids, i.isReferenced = false) →
    ∀ hex, (∃ d ∈ source, d.HoldsId field hex) →
      ∀ d ∈ related, d.HasId hex → ∃ i ∈ ids, i.id = hex ∧ i.isReferenced = true

variable {digits : List String} {referenced added : List Document}

/-- Documents whose ids are referenced, and others added to them, give ids as they should be. -/
theorem areRelated_of_documents
    (hdigits : ∀ hex, hex ∈ digits ↔ ∃ d ∈ source, d.HoldsId field hex)
    (hreferenced : ∀ d ∈ referenced, d ∈ related ∧ ∃ hex ∈ digits, d.HasId hex)
    (hadded : ∀ d ∈ added, d ∈ related)
    (hnodup : (referenced.map idText ++ added.map idText).Nodup)
    (hlength : referenced.length + added.length = min limit related.length)
    (hroom : added ≠ [] → ∀ d ∈ related, ∀ hex ∈ digits, d.HasId hex → d ∈ referenced) :
    AreRelated source related field limit
      (referenced.map (found true) ++ added.map (found false)) := by
  have hhex : ∀ hex ∈ digits, Json.isObjectId hex = true := by
    intro hex hmem
    obtain ⟨d, -, hholds⟩ := (hdigits hex).mp hmem
    exact hholds.isObjectId
  refine ⟨?_, ?_, ?_, ?_, ?_, ?_⟩
  · simpa using hlength
  · rw [map_id_append_found, List.map_map]
    exact hnodup
  · intro i hi
    rcases List.mem_append.mp hi with h | h
    · obtain ⟨d, hd, rfl⟩ := List.mem_map.mp h
      exact ⟨d, (hreferenced d hd).1, rfl, rfl⟩
    · obtain ⟨d, hd, rfl⟩ := List.mem_map.mp h
      exact ⟨d, hadded d hd, rfl, rfl⟩
  · refine List.pairwise_append.mpr ⟨?_, ?_, ?_⟩
    · refine List.pairwise_map.mpr (List.pairwise_of_forall fun _ _ _ => rfl)
    · refine List.pairwise_map.mpr (List.pairwise_of_forall fun _ _ h => ?_)
      cases h
    · intro i hi j hj _
      obtain ⟨d, -, rfl⟩ := List.mem_map.mp hi
      rfl
  · intro i hi htrue
    rcases List.mem_append.mp hi with h | h
    · obtain ⟨d, hd, rfl⟩ := List.mem_map.mp h
      obtain ⟨-, hex, hmem, hid⟩ := hreferenced d hd
      rw [found, hid.idText (hhex hex hmem)]
      exact (hdigits hex).mp hmem
    · obtain ⟨d, -, rfl⟩ := List.mem_map.mp h
      cases htrue
  · rintro ⟨i, hi, hfalse⟩ hex hsource d hd hid
    have hne : added ≠ [] := by
      rintro rfl
      rw [List.map_nil, List.append_nil] at hi
      obtain ⟨e, -, rfl⟩ := List.mem_map.mp hi
      cases hfalse
    have hmem := (hdigits hex).mpr hsource
    refine ⟨found true d, List.mem_append_left _ (List.mem_map_of_mem ?_), ?_, rfl⟩
    · exact hroom hne d hd hex hmem hid
    · exact hid.idText (hhex hex hmem)

/-- The documents whose ids are among some digits, up to a limit. -/
def referencedIn (docs : List Document) (digits : List String) (limit : Nat) : List Document :=
  (docs.filter (Filter.oneOf idKey (digits.flatMap idForms)).accepts).take limit

/-- Without digits no document is found. -/
theorem referencedIn_nil (docs : List Document) (limit : Nat) :
    referencedIn docs [] limit = [] := by
  have hnone : ∀ d ∈ docs, ¬ (Filter.oneOf idKey ([].flatMap idForms)).accepts d = true := by
    intro d _
    rw [Filter.accepts]
    cases d.at? idKey <;> simp
  rw [referencedIn, List.filter_eq_nil_iff.mpr hnone, List.take_nil]

theorem mem_referencedIn
    (hplain : ∀ d ∈ related, d.HasPlainId)
    {d : Document}
    (h : d ∈ referencedIn related digits limit) :
    d ∈ related ∧ ∃ hex ∈ digits, d.HasId hex := by
  obtain ⟨hd, haccepts⟩ := List.mem_filter.mp (List.mem_of_mem_take h)
  exact ⟨hd, (accepts_ids_iff (hplain d hd)).mp haccepts⟩

/-- Fewer documents than the limit are all that have one of the ids. -/
theorem mem_referencedIn_of_hasId
    (hlt : (referencedIn related digits limit).length < limit)
    {d : Document}
    {hex : String}
    (hd : d ∈ related)
    (hhex : hex ∈ digits)
    (hid : d.HasId hex) :
    d ∈ referencedIn related digits limit := by
  rw [referencedIn, List.length_take] at hlt
  rw [referencedIn, List.take_of_length_le (by omega), List.mem_filter]
  exact ⟨hd, (accepts_ids_iff hid.hasPlainId).mpr ⟨hex, hhex, hid⟩⟩

theorem referencedIn_sublist (related : List Document) (digits : List String) (limit : Nat) :
    (referencedIn related digits limit).Sublist related :=
  (List.take_sublist _ _).trans List.filter_sublist

/-- From at least as many documents as there may be ids, filling up gives as many as there are:
with room left, every document that is asked for is added or has been known. -/
theorem IsPadding.length_eq
    {asked : Nat}
    {referenced : List Document}
    (h : IsPadding limit (referenced.map idText) (related.take asked) added)
    (hasked : limit ≤ asked)
    (hreferenced : referenced.Sublist related)
    (hroom : referenced.length ≤ limit)
    (hnodup : (related.map idText).Nodup)
    (hnames : ∀ d ∈ related, d.idText ≠ "") :
    referenced.length + added.length = min limit related.length := by
  have hle := h.length_le
  have hids : (referenced.map idText).Nodup := hnodup.sublist (hreferenced.map idText)
  have hfound : (referenced.map idText ++ added.map idText).length ≤
      (related.map idText).length := by
    refine ((h.nodup_append hids).subperm (List.append_subset.mpr ⟨?_, ?_⟩)).length_le
    · exact List.map_subset _ hreferenced.subset
    · exact List.map_subset _ fun d hd => List.mem_of_mem_take (h.sublist.subset hd)
  simp only [List.length_append, List.length_map] at hfound hle
  by_cases hfull : referenced.length + added.length < limit
  · have hseen : ((related.take asked).map idText).length ≤
        (referenced.map idText ++ added.map idText).length := by
      refine (List.Nodup.subperm ?_ fun s hs => ?_).length_le
      · exact hnodup.sublist ((List.take_sublist _ _).map idText)
      · obtain ⟨d, hd, rfl⟩ := List.mem_map.mp hs
        exact (h.mem_of_lt (by simpa using hfull) d hd).resolve_left
          (hnames d (List.mem_of_mem_take hd))
    simp only [List.length_append, List.length_map, List.length_take] at hseen
    omega
  · omega

/-- The ids of the referenced documents, filled up where they are too few. -/
def filled (related : List Document) (limit : Nat) (ids : List FoundId) : List FoundId :=
  if ids.length < limit then pad limit ids (related.take (limit * 2)) else ids

/-- With enough referenced documents, as many are kept as there may be. -/
theorem length_referencedIn_of_le
    (h : limit ≤ (referencedIn related digits limit).length) :
    (referencedIn related digits limit).length = min limit related.length := by
  have hle := (referencedIn_sublist related digits limit).length_le
  have htake : (referencedIn related digits limit).length ≤ limit := List.length_take_le _ _
  omega

/-- Where too few documents are referenced, others are added to them. -/
theorem exists_filled_eq (hlt : (referencedIn related digits limit).length < limit) :
    ∃ added, filled related limit ((referencedIn related digits limit).map (found true)) =
        (referencedIn related digits limit).map (found true) ++ added.map (found false) ∧
      IsPadding limit ((referencedIn related digits limit).map idText)
        (related.take (limit * 2)) added := by
  obtain ⟨added, hpad, hadded⟩ := exists_pad_eq limit
    ((referencedIn related digits limit).map (found true)) (related.take (limit * 2))
  rw [List.map_map] at hadded
  rw [filled, if_pos (by simpa using hlt)]
  exact ⟨added, hpad, hadded⟩

theorem length_of_filled
    (hnodup : (related.map idText).Nodup)
    (hnames : ∀ d ∈ related, d.idText ≠ "")
    (hlt : (referencedIn related digits limit).length < limit)
    (hadded : IsPadding limit ((referencedIn related digits limit).map idText)
      (related.take (limit * 2)) added) :
    (referencedIn related digits limit).length + added.length = min limit related.length :=
  hadded.length_eq (by omega) (referencedIn_sublist _ _ _) hlt.le hnodup hnames

/-- Twice the limit is enough to fill the ids up. -/
theorem length_filled
    (hnodup : (related.map idText).Nodup)
    (hnames : ∀ d ∈ related, d.idText ≠ "")
    (digits : List String)
    (limit : Nat) :
    (filled related limit ((referencedIn related digits limit).map (found true))).length =
      min limit related.length := by
  by_cases hlt : (referencedIn related digits limit).length < limit
  · obtain ⟨added, hfilled, hadded⟩ := exists_filled_eq hlt
    rw [hfilled, List.length_append, List.length_map, List.length_map]
    exact length_of_filled hnodup hnames hlt hadded
  · rw [filled, if_neg (by simpa using hlt), List.length_map]
    exact length_referencedIn_of_le (Nat.le_of_not_lt hlt)

theorem areRelated_filled
    (hnodup : (related.map idText).Nodup)
    (hnames : ∀ d ∈ related, d.idText ≠ "")
    (hplain : ∀ d ∈ related, d.HasPlainId)
    (hdigits : ∀ hex, hex ∈ digits ↔ ∃ d ∈ source, d.HoldsId field hex) :
    AreRelated source related field limit
      (filled related limit ((referencedIn related digits limit).map (found true))) := by
  have hreferenced : ∀ d ∈ referencedIn related digits limit,
      d ∈ related ∧ ∃ hex ∈ digits, d.HasId hex := fun _ => mem_referencedIn hplain
  have hids : ((referencedIn related digits limit).map idText).Nodup :=
    hnodup.sublist ((referencedIn_sublist related digits limit).map _)
  by_cases hlt : (referencedIn related digits limit).length < limit
  · obtain ⟨added, hfilled, hadded⟩ := exists_filled_eq hlt
    rw [hfilled]
    exact areRelated_of_documents hdigits hreferenced
      (fun d hd => List.mem_of_mem_take (hadded.sublist.mem hd)) (hadded.nodup_append hids)
      (length_of_filled hnodup hnames hlt hadded)
      fun _ d hd hex hhex hid => mem_referencedIn_of_hasId hlt hd hhex hid
  · have hlength := length_referencedIn_of_le (Nat.le_of_not_lt hlt)
    have hnone : ∀ d ∈ ([] : List Document), d ∈ related := by simp
    rw [filled, if_neg (by simpa using hlt)]
    simpa using areRelated_of_documents hdigits hreferenced hnone (by simpa using hids)
      (by simpa using hlength) (by simp)

end Result

/-- The ids that documents of a collection hold at a path, sorted. -/
def digitsAt (m : MemoryStore) (collection field : String) : List String :=
  Text.sorted ((MemoryStore.distinct ((m.documents collection).filter
    (Filter.present field).accepts) field).filterMap Json.objectId?)

theorem mem_digitsAt {m : MemoryStore} {collection field hex : String} :
    hex ∈ digitsAt m collection field ↔ ∃ d ∈ m.documents collection, d.HoldsId field hex :=
  (Text.mem_sorted _ _).trans mem_objectIds_iff

/-- The documents that a field refers to, as ids. -/
def referencedIds (m : MemoryStore) (collection field related : String) (limit : Nat) :
    List FoundId :=
  (referencedIn (m.documents related) (digitsAt m collection field) limit).map (found true)

/-- Without digits the sampler does not ask for documents, and there would be none. -/
theorem gives_referencedIds
    (m : MemoryStore)
    (keys : Nat → Nat)
    (draw : List Query → Nat)
    (collection field related : String)
    (limit : Nat) :
    Gives (some (m.store keys draw)) (referenced collection field related limit)
      (· = referencedIds m collection field related limit) := by
  have hask := gives_ask_store m keys draw
  refine Gives.bind (hask (.distinct collection field (.present field))) ?_
  rintro _ rfl
  refine Gives.ite (fun hempty => gives_pure ?_) fun _ => ?_
  · have hnil : digitsAt m collection field = [] := List.isEmpty_iff.mp hempty
    rw [referencedIds, hnil, referencedIn_nil, List.map_nil]
  · refine Gives.bind (hask (.find related _ 0 limit)) ?_
    rintro _ rfl
    exact gives_pure rfl

/-- The ids of the referenced documents, filled up from all documents of the collection. -/
def suppliedIds (m : MemoryStore) (collection field related : String) (limit : Nat) :
    List FoundId :=
  filled (m.documents related) limit (referencedIds m collection field related limit)

/-- Twice the limit is no word, and the ids have to be filled up. -/
def PaddingOverflows (m : MemoryStore) (collection field related : String) (limit : Nat) : Prop :=
  2 ^ 64 ≤ 2 * limit ∧ (referencedIds m collection field related limit).length < limit

/-- The sampler asks a store in memory for the referenced documents and then fills up.  It stops
exactly where it cannot compute how many documents to ask for. -/
theorem yieldsUnless_relatedIds
    (m : MemoryStore)
    (keys : Nat → Nat)
    (draw : List Query → Nat)
    (collection field related : String)
    (limit : Nat) :
    YieldsUnless (some (m.store keys draw)) (relatedIds collection field related limit)
      (PaddingOverflows m collection field related limit)
      (· = suppliedIds m collection field related limit) := by
  have hreferenced := gives_referencedIds m keys draw collection field related limit
  unfold relatedIds
  constructor
  · rintro ⟨hword, hlt⟩
    rw [if_neg (by omega : ¬ limit = 0)]
    refine stops_orElse (hreferenced.bind_stops ?_) []
    rintro _ rfl
    rw [if_pos hlt]
    exact (stops_word (by omega : 2 ^ 64 ≤ limit * 2)).bind_lift _
  · intro hfits
    split
    · rename_i hzero
      subst hzero
      exact yields_pure rfl
    · refine Gives.orElse (hreferenced.bind ?_) []
      rintro _ rfl
      refine Gives.ite (fun hlt => ?_) fun hge => gives_pure (if_neg hge).symm
      have hword : limit * 2 < 2 ^ 64 := by
        by_contra hlarge
        exact hfits ⟨by omega, hlt⟩
      refine Gives.bind (yields_word hword).gives ?_
      rintro _ rfl
      refine Gives.bind (gives_ask_all m keys draw related 0 (limit * 2)) ?_
      rintro _ rfl
      exact gives_pure (if_pos hlt).symm

/-- Against every store in memory whose related documents have different ids, none of them empty
and none an array, the ids found are related ones, as many as there may be. -/
theorem relatedIds_areRelated
    {m : MemoryStore}
    {related : String}
    {limit : Nat}
    (hnodup : ((m.documents related).map idText).Nodup)
    (hnames : ∀ d ∈ m.documents related, d.idText ≠ "")
    (hplain : ∀ d ∈ m.documents related, d.HasPlainId)
    (hlimit : 2 * limit < 2 ^ 64)
    (keys : Nat → Nat)
    (draw : List Query → Nat)
    (collection field : String) :
    Yields (some (m.store keys draw)) (relatedIds collection field related limit)
      (AreRelated (m.documents collection) (m.documents related) field limit) := by
  have hfits : ¬ PaddingOverflows m collection field related limit :=
    fun h => absurd hlimit (Nat.not_lt.mpr h.1)
  refine ((yieldsUnless_relatedIds m keys draw collection field related limit).yields hfits).mono ?_
  rintro _ rfl
  exact areRelated_filled hnodup hnames hplain fun hex => mem_digitsAt

/-- Three authors with ids of three kinds, and a post by two of them. -/
def library : MemoryStore :=
  ⟨[("authors", [[("_id", .int 1)], [("_id", .str "0123456789abcdef01234567")],
      [("_id", Json.ofObjectId "fedcba9876543210fedcba98"), ("name", .str "Emma")]]),
    ("posts", [[("title", .str "On stores")],
      [("by", .arr [.str "fedcba9876543210fedcba98", .null])]])]⟩

/-- Of the authors two are asked for: the one that a post refers to, and another one. -/
theorem relatedIds_areRelated_library :
    ((library.documents "authors").map idText).Nodup ∧
      (∀ d ∈ library.documents "authors", d.idText ≠ "") ∧
      (∀ d ∈ library.documents "authors", d.HasPlainId) ∧ 2 * 2 < 2 ^ 64 ∧
      Yields (some (library.store id List.length)) (relatedIds "posts" "by" "authors" 2)
        (AreRelated (library.documents "posts") (library.documents "authors") "by" 2) := by
  have hnodup : ((library.documents "authors").map idText).Nodup := by decide +kernel
  have hnames : ∀ d ∈ library.documents "authors", d.idText ≠ "" := by decide +kernel
  have hplain : ∀ d ∈ library.documents "authors", d.HasPlainId := by
    simp [library, MemoryStore.documents, HasPlainId, Json.lookup, idKey, Json.ofObjectId]
  exact ⟨hnodup, hnames, hplain, by decide,
    relatedIds_areRelated hnodup hnames hplain (by decide) id List.length "posts" "by"⟩

example :
    ((relatedIds "posts" "by" "authors" 2).run (some (library.store id List.length))).1.map
        (fun ids => ids.map fun i => (i.id, i.isReferenced)) =
      some [("fedcba9876543210fedcba98", true), ("1", false)] := by
  decide +kernel

end Sampler

end EndpointPayload
