import EndpointPayload.Proofs.Forecast.Merge
import EndpointPayload.Proofs.Forecast.Written

/-!
# Types of the values in a body

For a described key of documents whose values other than null have one type, the body writes the
first value that the documents show.  The items of an array are shown in its place, so an array
whose first item other than null is no array is written as that item.  A wrapped `$numberInt` or
`$numberDouble` counts as an object and is written as a number.  In every other case the value that
is written has the type that the schema observed.
-/

namespace EndpointPayload

open Json

section Single

variable {α : Type}

/-- A list without repetitions that holds one thing only. -/
theorem eq_singleton_of_nodup
    {a : α}
    {xs : List α}
    (hnodup : xs.Nodup)
    (hmem : a ∈ xs)
    (hall : ∀ x ∈ xs, x = a) :
    xs = [a] := by
  have hperm : xs.Perm [a] := by
    rw [List.perm_ext_iff_of_nodup hnodup (List.nodup_singleton a)]
    intro x
    rw [List.mem_singleton]
    exact ⟨hall x, fun hx => hx ▸ hmem⟩
  exact List.perm_singleton.mp hperm

end Single

section Sample

variable {docs : List Document} {existing : List String} {s : FieldStatistics}
variable {label name now : String} {v : Json}

/-- The values other than null under a name have one label. -/
def Document.HaveLabel (docs : List Document) (name label : String) : Prop :=
  ∀ d ∈ docs, ∀ v, d.at? name = some v → v.isNull = false → v.typeName = label

/-- A described key whose values have one label is described with that label. -/
theorem FieldStatistics.type_eq_of_haveLabel
    (hdocs : ∀ d ∈ docs, d.HasDistinctKeys)
    (hs : s ∈ FieldStatistics.describe docs existing)
    (htop : s.isTopLevel = true)
    (hfreq : 0.0 < s.frequency)
    (hlabel : Document.HaveLabel docs s.name label) :
    s.type = label := by
  obtain ⟨d, hd, v, hv, hn⟩ := FieldStatistics.exists_value_of_mem_describe hdocs hs htop hfreq
  have htypes : (Text.sorted ((Document.valuesAt s.name docs).map typeName)).filter (· ≠ "null") =
      [label] := by
    refine eq_singleton_of_nodup ((Text.nodup_sorted _).filter _) ?_ fun x hx => ?_
    · rw [List.mem_filter, Text.mem_sorted, List.mem_map]
      have hvisit := (Document.mem_visits_iff_at? (hdocs d hd) htop).mpr hv
      refine ⟨⟨v, Document.mem_valuesAt.mpr ⟨d, hd, hvisit⟩, hlabel d hd v hv hn⟩, ?_⟩
      have hne : v.typeName ≠ "null" := fun h => by simp [typeName_eq_null_iff.mp h] at hn
      simpa [hlabel d hd v hv hn] using hne
    · rw [List.mem_filter, Text.mem_sorted, List.mem_map] at hx
      obtain ⟨⟨w, hw, rfl⟩, hne⟩ := hx
      obtain ⟨e, he, hvisit⟩ := Document.mem_valuesAt.mp hw
      refine hlabel e he w ((Document.mem_visits_iff_at? (hdocs e he) htop).mp hvisit) ?_
      rw [← Bool.not_eq_true, ← typeName_eq_null_iff]
      simpa using hne
  rw [FieldStatistics.eq_of_mem_describe hs]
  simp only [FieldStatistics.ofValues, Document.fieldAt, htypes]
  simp [String.intercalate_singleton]

end Sample

namespace ForecastField

section Shown

variable {docs : List Document} {existing : List String} {s : FieldStatistics}
variable {name now : String} {v : Json}

/-- The first value other than null that documents show under a name, arrays standing for their
items. -/
def firstShown? (docs : List Document) (name : String) : Option Json :=
  (docs.flatMap (Document.shownAt name)).find? fun v => !v.isNull

theorem head?_sampledValues : (sampledValues docs name).head? = firstShown? docs name := by
  rw [sampledValues_eq, List.head?_take, if_neg (by decide), head?_eraseDups, List.head?_filter]
  rfl

/-- What is shown first is an item of an array, or a value that is no array. -/
theorem exists_of_firstShown?
    (h : firstShown? docs name = some v) :
    v.isNull = false ∧ ∃ d ∈ docs,
      (∃ items, d.at? name = some (.arr items) ∧ v ∈ items) ∨
        (d.at? name = some v ∧ ∀ items, v ≠ .arr items) := by
  have hnull := List.find?_some h
  obtain ⟨d, hd, hmem⟩ := List.mem_flatMap.mp (List.mem_of_find?_eq_some h)
  refine ⟨by simpa using hnull, d, hd, ?_⟩
  rw [Document.shownAt] at hmem
  split at hmem
  · rename_i items hat
    exact .inl ⟨items, hat, hmem⟩
  · rename_i w hne hat
    rw [List.mem_singleton] at hmem
    exact .inr ⟨hmem ▸ hat, fun items hitems => hne items (hmem ▸ hitems)⟩
  · cases hmem

/-- Where nothing is shown, the values other than null are arrays. -/
theorem eq_arr_of_firstShown?_none
    {d : Document}
    (h : firstShown? docs name = none)
    (hd : d ∈ docs)
    (hv : d.at? name = some v)
    (hn : v.isNull = false) :
    ∃ items, v = .arr items := by
  by_contra harr
  have hmem : v ∈ docs.flatMap (Document.shownAt name) := by
    refine List.mem_flatMap.mpr ⟨d, hd, ?_⟩
    rw [Document.shownAt, hv]
    cases v with
    | arr items => exact absurd ⟨items, rfl⟩ harr
    | _ => simp
  have hnone := List.find?_eq_none.mp h v hmem
  simp [hn] at hnone

/-- What is shown first is the first real value. -/
theorem head?_valuesFor_of_shown (h : firstShown? docs s.name = some v) :
    (valuesFor s docs).head? = some v := by
  have hhead := head?_sampledValues.trans h
  have hne : sampledValues docs s.name ≠ [] := by
    intro hnil
    simp [hnil] at hhead
  simpa [valuesFor, hne] using hhead

/-- Where nothing is shown, an array is the first real value. -/
theorem head?_valuesFor_of_not_shown
    (hdocs : ∀ d ∈ docs, d.HasDistinctKeys)
    (hs : s ∈ FieldStatistics.describe docs existing)
    (htop : s.isTopLevel = true)
    (hfreq : 0.0 < s.frequency)
    (h : firstShown? docs s.name = none) :
    ∃ items, (valuesFor s docs).head? = some (.arr items) := by
  have hfound : sampledValues docs s.name = [] := by
    rw [← List.head?_eq_none_iff, head?_sampledValues, h]
  -- Arrays are no leaves, so there are no examples either.
  have hexamples : s.examples = [] := by
    rw [FieldStatistics.eq_of_mem_describe hs]
    simp only [FieldStatistics.ofValues, Document.fieldAt]
    rw [List.take_eq_nil_iff, eraseDups_eq_nil, List.filter_eq_nil_iff]
    right
    intro w hw hleaf
    obtain ⟨d, hd, hvisit⟩ := Document.mem_valuesAt.mp hw
    have hat := (Document.mem_visits_iff_at? (hdocs d hd) htop).mp hvisit
    simp only [Bool.and_eq_true, Bool.not_eq_true'] at hleaf
    obtain ⟨items, rfl⟩ := eq_arr_of_firstShown?_none h hd hat hleaf.1
    simp [isLeaf] at hleaf
  obtain ⟨d, hd, v, hv, hn⟩ := FieldStatistics.exists_value_of_mem_describe hdocs hs htop hfreq
  have hobserved : (observedValues docs s.name).head? =
      (docs.filterMap fun d => d.at? s.name).find? fun v => !v.isNull := by
    rw [observedValues_eq, List.head?_take, if_neg (by decide), head?_eraseDups, List.head?_filter]
  have hsome : ((docs.filterMap fun d => d.at? s.name).find? fun v => !v.isNull).isSome := by
    rw [List.find?_isSome]
    exact ⟨v, List.mem_filterMap.mpr ⟨d, hd, hv⟩, by simp [hn]⟩
  obtain ⟨w, hw⟩ := Option.isSome_iff_exists.mp hsome
  obtain ⟨e, he, hat⟩ := List.mem_filterMap.mp (List.mem_of_find?_eq_some hw)
  have hwn := List.find?_some hw
  obtain ⟨items, rfl⟩ := eq_arr_of_firstShown?_none h he hat (by simpa using hwn)
  exact ⟨items, by simp [valuesFor, hfound, hexamples, hobserved, hw]⟩

/-- The first real value is written, whether or not real values are preferred. -/
theorem valueOf_ofSample
    {type : String}
    (preferReal : Bool)
    (hvalue : (valuesFor s docs).head? = some v)
    (htype : s.type = type)
    (hbar : '|' ∉ type.toList) :
    Body.valueOf now preferReal (ofSample s none docs) = Body.written now type v := by
  have hchosen : (if preferReal then
      (ofSample s none docs).realValues.headD (ofSample s none docs).base.sample
      else (ofSample s none docs).base.sample) = v := by
    have hsample : (ofSample s none docs).base.sample = v := by
      simp [ofSample, exampleOf, hvalue]
    have hreal : (ofSample s none docs).realValues.headD v = v := by
      simp [ofSample, List.headD_eq_head?_getD, hvalue]
    rw [hsample, hreal, ite_self]
  have hkind : (ofSample s none docs).base.type = type := by
    simp [ofSample, htype, Text.split_of_not_mem hbar]
  simp only [Body.valueOf, Body.written, hchosen, hkind]

end Shown

end ForecastField

namespace Body

open ForecastField

variable {docs : List Document} {existing : List String} {s : FieldStatistics}
variable {label name now : String}

/-- The documents show a value that is written with another type than its field is described with:
an item in place of its array, or a wrapped number that counts as an object. -/
def IsMistyped (docs : List Document) (name label : String) : Prop :=
  ∃ v, firstShown? docs name = some v ∧
    (label = "array" ∧ v.items? = none ∨ label = "object" ∧ v.IsUnlabelledNumber)

/-- The value that is written for what documents show first. -/
theorem hasLabel_shown_iff
    {v : Json}
    (hlabel : Document.HaveLabel docs name label)
    (hread : ∀ d ∈ docs, ∀ v, d.at? name = some v → v.IsReadable)
    (h : firstShown? docs name = some v) :
    HasLabel now label (written now label v) ↔ ¬ IsMistyped docs name label := by
  have hmistyped : IsMistyped docs name label ↔
      label = "array" ∧ v.items? = none ∨ label = "object" ∧ v.IsUnlabelledNumber := by
    simp [IsMistyped, h]
  rw [hmistyped]
  obtain ⟨hnull, d, hd, hcase⟩ := exists_of_firstShown? h
  rcases hcase with ⟨items, hat, -⟩ | ⟨hat, hne⟩
  · obtain rfl : "array" = label := hlabel d hd _ hat rfl
    rw [hasLabel_array_iff]
    cases v <;> simp [items?]
  · obtain rfl := hlabel d hd v hat hnull
    have hnot : v.typeName ≠ "array" := fun h => by
      obtain ⟨items, hitems⟩ := eq_arr_of_typeName h
      exact hne items hitems
    rw [hasLabel_written_iff hnull (hread d hd v hat)]
    constructor
    · rintro hnumber (⟨harray, -⟩ | ⟨-, hwrapped⟩)
      · exact hnot harray
      · exact hnumber hwrapped
    · intro hmis hwrapped
      exact hmis (.inr ⟨typeName_of_isUnlabelledNumber hwrapped, hwrapped⟩)

theorem hasLabel_valueOf_iff
    (preferReal : Bool)
    (hdocs : ∀ d ∈ docs, d.HasDistinctKeys)
    (hs : s ∈ FieldStatistics.describe docs existing)
    (htop : s.isTopLevel = true)
    (hfreq : 0.0 < s.frequency)
    (hlabel : Document.HaveLabel docs s.name label)
    (hread : ∀ d ∈ docs, ∀ v, d.at? s.name = some v → v.IsReadable) :
    HasLabel now label (valueOf now preferReal (ofSample s none docs)) ↔
      ¬ IsMistyped docs s.name label := by
  have htype := FieldStatistics.type_eq_of_haveLabel hdocs hs htop hfreq hlabel
  obtain ⟨d, hd, u, hu, hun⟩ := FieldStatistics.exists_value_of_mem_describe hdocs hs htop hfreq
  have hbar : '|' ∉ label.toList := hlabel d hd u hu hun ▸ bar_not_mem_typeName u
  cases hshown : firstShown? docs s.name with
  | some v =>
      rw [valueOf_ofSample preferReal (head?_valuesFor_of_shown hshown) htype hbar]
      exact hasLabel_shown_iff hlabel hread hshown
  | none =>
      obtain ⟨items, hhead⟩ := head?_valuesFor_of_not_shown hdocs hs htop hfreq hshown
      obtain ⟨others, rfl⟩ := eq_arr_of_firstShown?_none hshown hd hu hun
      obtain rfl : "array" = label := hlabel d hd _ hu hun
      rw [valueOf_ofSample preferReal hhead htype hbar]
      exact iff_of_true (hasLabel_array_iff.mpr ⟨items, rfl⟩) (by simp [IsMistyped, hshown])

/-- What stands under a name in the only document. -/
theorem eq_of_at?
    {d e : Document}
    {v w : Json}
    (h : d.at? name = some w)
    (he : e ∈ [d])
    (hv : e.at? name = some v) :
    v = w := by
  rw [List.mem_singleton.mp he, h] at hv
  exact (Option.some.inj hv).symm

/-- For documents with distinct keys and readable numbers, the body has the name of a described key
with a positive frequency and values of one type, and under it a value of that type, whether or not
real values are preferred, except where the documents show a value of another type first. -/
theorem hasLabel_ofFields_iff
    (now : String)
    (preferReal : Bool)
    (hdocs : ∀ d ∈ docs, d.HasDistinctKeys)
    (hs : s ∈ FieldStatistics.describe docs existing)
    (htop : s.isTopLevel = true)
    (hfreq : 0.0 < s.frequency)
    (hlabel : Document.HaveLabel docs s.name label)
    (hread : ∀ d ∈ docs, ∀ v, d.at? s.name = some v → v.IsReadable) :
    ∃ v, ofFields now preferReal [ofSample s none docs] = [(s.name, v)] ∧
      (HasLabel now label v ↔ ¬ IsMistyped docs s.name label) :=
  ⟨_, rfl, hasLabel_valueOf_iff preferReal hdocs hs htop hfreq hlabel hread⟩

/-- An empty list of tags is written as an array. -/
theorem hasLabel_ofFields_tags :
    ∃ v, ofFields "" true [ofSample Forecast.Orders.tags none [Forecast.Orders.order]] =
        [("tags", v)] ∧
      (HasLabel "" "array" v ↔ ¬ IsMistyped [Forecast.Orders.order] "tags" "array") := by
  have hat : Forecast.Orders.order.at? "tags" = some (.arr []) := by
    rw [Document.at?_of_isTopLevelName (by decide)]
    rfl
  refine hasLabel_ofFields_iff "" true ?_ Forecast.Orders.tags_mem_describe ?_ ?_ ?_ ?_
  · simpa using Forecast.Orders.order_hasDistinctKeys
  · decide +kernel
  · decide +kernel
  · intro d hd v hv _
    rw [eq_of_at? hat hd hv]
    rfl
  · intro d hd v hv
    rw [eq_of_at? hat hd hv]
    trivial

/-- An order with a tag. -/
def taggedOrder : Document := [("tags", .arr [.str "gift"])]

/-- The tags of that order as the schema describes them. -/
def giftTags : FieldStatistics :=
  FieldStatistics.ofValues (Document.fieldAt [taggedOrder] "tags")
    (Document.valuesAt "tags" [taggedOrder]) []

/-- Not every value is written with the observed type: a tag stands in place of the list of tags. -/
theorem not_forall_hasLabel_ofFields :
    ¬ ∀ (docs : List Document) (existing : List String) (s : FieldStatistics) (label now : String)
      (preferReal : Bool),
      (∀ d ∈ docs, d.HasDistinctKeys) →
      s ∈ FieldStatistics.describe docs existing →
      s.isTopLevel = true →
      0.0 < s.frequency →
      Document.HaveLabel docs s.name label →
      (∀ d ∈ docs, ∀ v, d.at? s.name = some v → v.IsReadable) →
      ∃ v, ofFields now preferReal [ofSample s none docs] = [(s.name, v)] ∧
        HasLabel now label v := by
  intro hall
  have hat : taggedOrder.at? "tags" = some (.arr [.str "gift"]) := by
    rw [Document.at?_of_isTopLevelName (by decide)]
    rfl
  have hdocs : ∀ d ∈ [taggedOrder], d.HasDistinctKeys := by
    simp [Document.HasDistinctKeys, taggedOrder]
  have hs : giftTags ∈ FieldStatistics.describe [taggedOrder] [] := by
    refine FieldStatistics.mem_describe.mpr ⟨"tags", ?_, rfl⟩
    rw [Document.paths, Text.mem_sorted]
    decide +kernel
  have htop : giftTags.isTopLevel = true := by decide +kernel
  have hfreq : 0.0 < giftTags.frequency := by decide +kernel
  have hlabel : Document.HaveLabel [taggedOrder] "tags" "array" := by
    intro d hd v hv _
    rw [eq_of_at? hat hd hv]
    rfl
  have hread : ∀ d ∈ [taggedOrder], ∀ v, d.at? "tags" = some v → v.IsReadable := by
    intro d hd v hv
    rw [eq_of_at? hat hd hv]
    trivial
  obtain ⟨v, hv, htype⟩ := hall [taggedOrder] [] giftTags "array" "" true hdocs hs htop hfreq hlabel
    hread
  obtain rfl : valueOf "" true (ofSample giftTags none [taggedOrder]) = v := by
    simpa [ofFields, Json.ofPairs, Json.put] using congrArg (List.map Prod.snd) hv
  have hshown : firstShown? [taggedOrder] "tags" = some (.str "gift") := by
    simp [firstShown?, Document.shownAt, hat, isNull]
  exact (hasLabel_valueOf_iff true hdocs hs htop hfreq hlabel hread).mp htype
    ⟨.str "gift", hshown, .inl ⟨rfl, rfl⟩⟩

end Body
end EndpointPayload
