import EndpointPayload.Proofs.Forecast.Provenance

/-!
# Which names the merge has

The merge loses no name but those that the options skip: it has every key of the documents that
some document has with a value other than null, and every field of the model.  The schema writes a
path as the text of its keys with points and brackets between them, so a key with such a part in it
is taken for a path into the document and left out, even where the options ask for it.
-/

namespace EndpointPayload

namespace Document

/-- A value other than null under a key of the document itself. -/
def Holds (d : Document) (name : String) : Prop := ∃ v, (name, v) ∈ d ∧ v.isNull = false

variable {docs : List Document} {name : String}

/-- Where a word can count the documents, the keys with a positive frequency are those that some
document holds. -/
theorem frequency_pos_iff
    (hlength : docs.length < 2 ^ 64)
    (hname : SchemaField.isTopLevelName name = true) :
    0.0 < (fieldAt docs name).frequency ↔ ∃ d ∈ docs, d.Holds name := by
  constructor
  · intro h
    obtain ⟨d, hd, v, hv, hn⟩ := exists_value_of_frequency h
    exact ⟨d, hd, v, (mem_visits_iff hname).mp hv, hn⟩
  · rintro ⟨d, hd, v, hv, hn⟩
    exact frequency_pos hlength hd ((mem_visits_iff hname).mpr hv) hn

theorem mem_paths_of_holds
    (hname : SchemaField.isTopLevelName name = true)
    (h : ∃ d ∈ docs, d.Holds name) :
    name ∈ paths docs := by
  obtain ⟨d, hd, v, hv, -⟩ := h
  rw [paths, Text.mem_sorted, List.mem_map]
  exact ⟨(name, v), List.mem_flatMap.mpr ⟨d, hd, (mem_visits_iff hname).mpr hv⟩, rfl⟩

end Document

namespace Forecast

open Session

section Names

variable {store : Option Store} {verb : Verb} {model : List PredictedField}
variable {sample : CollectionSample} {options : ForecastOptions} {name : String}

/-- The fields of a described sample: the keys without a part of a nested path that some document
holds. -/
theorem mem_names_sampleFields_iff
    (hsample : sample.IsDescribed)
    (hkeys : ∀ d ∈ sample.documents, d.HasDistinctKeys)
    (hlength : sample.documents.length < 2 ^ 64) :
    name ∈ (sampleFields verb model sample options).map (fun f => f.base.name) ↔
      options.skips verb name = false ∧
        SchemaField.isTopLevelName name = true ∧ ∃ d ∈ sample.documents, d.Holds name := by
  rw [sampleFields_eq_map hkeys hsample, List.map_map, List.mem_map]
  obtain ⟨existing, hexisting⟩ := hsample
  constructor
  · rintro ⟨s, hs, rfl⟩
    obtain ⟨hmem, hkept⟩ := List.mem_filter.mp hs
    simp only [Bool.and_eq_true, Bool.not_eq_true', decide_eq_true_eq] at hkept
    obtain ⟨⟨htop, hfreq⟩, hskips⟩ := hkept
    rw [hexisting] at hmem
    rw [FieldStatistics.eq_of_mem_describe hmem] at hfreq
    exact ⟨hskips, htop, (Document.frequency_pos_iff hlength htop).mp hfreq⟩
  · rintro ⟨hskips, htop, hholds⟩
    have hfreq := (Document.frequency_pos_iff hlength htop).mpr hholds
    refine ⟨FieldStatistics.ofValues (Document.fieldAt sample.documents name)
      (Document.valuesAt name sample.documents) existing, List.mem_filter.mpr ⟨?_, ?_⟩, rfl⟩
    · rw [hexisting]
      exact FieldStatistics.mem_describe.mpr ⟨name, Document.mem_paths_of_holds htop hholds, rfl⟩
    · simp only [Bool.and_eq_true, Bool.not_eq_true', decide_eq_true_eq]
      exact ⟨⟨htop, hfreq⟩, hskips⟩

/-- The fields of the model add the names that are not skipped. -/
theorem yields_names_addModelFields :
    ∀ (ms : List PredictedField) (fields : List ForecastField),
      Yields store (addModelFields verb sample options fields ms) fun built =>
        ∀ name, name ∈ built.map (fun f => f.base.name) ↔
          name ∈ fields.map (fun f => f.base.name) ∨
            options.skips verb name = false ∧ name ∈ ms.map PredictedField.name
  | [], fields => yields_pure fun name => by simp
  | m :: ms, fields => by
      rw [addModelFields]
      split
      · rename_i hleft
        -- the name is there already, or it is skipped
        have hm : options.skips verb m.name = false →
            m.name ∈ fields.map fun f => f.base.name := by
          intro hskips
          rw [hskips, Bool.or_false, List.any_eq_true] at hleft
          obtain ⟨f, hf, hname⟩ := hleft
          exact List.mem_map.mpr ⟨f, hf, of_decide_eq_true hname⟩
        refine (yields_names_addModelFields ms fields).mono fun built hbuilt name => ?_
        rw [hbuilt, List.map_cons, List.mem_cons]
        constructor
        · exact Or.imp_right fun h => ⟨h.1, .inr h.2⟩
        · rintro (hname | ⟨hskips, rfl | hname⟩)
          · exact .inl hname
          · exact .inl (hm hskips)
          · exact .inr ⟨hskips, hname⟩
      · rename_i hnew
        rw [Bool.or_eq_true, not_or, Bool.not_eq_true, Bool.not_eq_true] at hnew
        refine Yields.bind (yields_modelField m) fun f hf => ?_
        obtain ⟨values, -, rfl⟩ := hf
        refine (yields_names_addModelFields ms _).mono fun built hbuilt name => ?_
        have hbase : (ForecastField.ofModel m values).base.name = m.name := rfl
        rw [hbuilt, List.map_append, List.mem_append, List.map_singleton, List.mem_singleton, hbase,
          List.map_cons, List.mem_cons]
        constructor
        · rintro ((hname | rfl) | ⟨hskips, hname⟩)
          · exact .inl hname
          · exact .inr ⟨hnew.2, .inl rfl⟩
          · exact .inr ⟨hskips, .inr hname⟩
        · rintro (hname | ⟨hskips, rfl | hname⟩)
          · exact .inl (.inl hname)
          · exact .inl (.inr rfl)
          · exact .inr ⟨hskips, hname⟩

/-- The names that the merge can have: keys without a part of a nested path that some document
holds, and fields of the model. -/
def IsOffered (docs : List Document) (model : List PredictedField) (name : String) : Prop :=
  (SchemaField.isTopLevelName name = true ∧ ∃ d ∈ docs, d.Holds name) ∨
    name ∈ model.map PredictedField.name

/-- Suggestions change no name, so the merge has the names that are offered and not skipped. -/
theorem yields_names_merge
    (hsample : sample.IsDescribed)
    (hkeys : ∀ d ∈ sample.documents, d.HasDistinctKeys)
    (hlength : sample.documents.length < 2 ^ 64) :
    Yields store (merge verb model sample options) fun merged =>
      ∀ name, name ∈ merged.map (fun f => f.base.name) ↔
        options.skips verb name = false ∧ IsOffered sample.documents model name := by
  refine Yields.bind (yields_names_addModelFields model _) fun built hbuilt => ?_
  refine (yields_mapM built fun f _ => yields_resolveReference _ f).mono fun merged hmerged => ?_
  intro name
  rw [names_of_areResolved (areResolved_of_forall₂ hmerged), hbuilt,
    mem_names_sampleFields_iff hsample hkeys hlength, IsOffered, ← and_or_left]

end Names

/-- For every sample with its statistics and no more documents than a word can count, whatever the
model says and however the store behaves: there is a merge, and it has exactly the names that are
not skipped and that are keys without a point or a pair of brackets which some document holds, or
fields of the model.  In particular it has every such name that the options ask for. -/
theorem names_merge
    {sample : CollectionSample}
    (store : Option Store)
    (verb : Verb)
    (model : List PredictedField)
    (options : ForecastOptions)
    (hsample : sample.IsDescribed)
    (hkeys : ∀ d ∈ sample.documents, d.HasDistinctKeys)
    (hlength : sample.documents.length < 2 ^ 64) :
    ∃ merged, (Session.run (merge verb model sample options) store).1 = some merged ∧
      (∀ name,
        name ∈ merged.map (fun f => f.base.name) ↔
          options.skips verb name = false ∧ IsOffered sample.documents model name) ∧
      (∀ name ∈ options.includeFields,
        IsOffered sample.documents model name →
        name ∈ merged.map fun f => f.base.name) := by
  have hmerge : Yields store (merge verb model sample options) fun merged =>
      ∀ name, name ∈ merged.map (fun f => f.base.name) ↔
        options.skips verb name = false ∧ IsOffered sample.documents model name :=
    yields_names_merge hsample hkeys hlength
  obtain ⟨merged, hrun, hnames⟩ := hmerge.run
  refine ⟨merged, hrun, hnames, fun name hname hoffered => (hnames name).mpr ⟨?_, hoffered⟩⟩
  simp [ForecastOptions.skips, hname]

namespace Orders

/-- An order with a note, a value of null and a key with a point in it. -/
def parcel : Document := [("note", .str "fragile"), ("gone", .null), ("a.b", .int 1)]

/-- The order as a sample. -/
def parcels : CollectionSample :=
  ⟨some "orders", 1.0, [parcel], FieldStatistics.describe [parcel] []⟩

theorem parcels_isDescribed : parcels.IsDescribed := ⟨[], rfl⟩

theorem parcels_hasDistinctKeys : ∀ d ∈ parcels.documents, d.HasDistinctKeys := by
  simp [parcels, parcel, Document.HasDistinctKeys]

/-- A field that only the model knows. -/
def total : PredictedField := ⟨"total", PredictedField.defaultType, true, .null, ""⟩

/-- The note and the key with a point are asked for. -/
def wishes : ForecastOptions := { options with includeFields := ["note", "a.b"] }

/-- The names that the merge has for the order without a store. -/
def mergedNames : List String :=
  ((Session.run (merge .put [total] parcels wishes) none).1.getD []).map fun f => f.base.name

theorem gone_not_held : ¬ ∃ d ∈ parcels.documents, d.Holds "gone" := by
  rintro ⟨d, hd, v, hv, hn⟩
  rw [List.mem_singleton.mp hd] at hv
  have hnull : v = .null := by simpa [parcel] using hv
  rw [hnull] at hn
  cases hn

theorem point_not_offered : ¬ IsOffered parcels.documents [total] "a.b" := by
  rintro (⟨htop, -⟩ | hmem)
  · exact absurd htop (by decide +kernel)
  · exact absurd hmem (by decide)

end Orders

/-- The names for an order: the note and the field of the model, but not the value of null and not
the key with a point. -/
theorem names_merge_parcels :
    "note" ∈ Orders.mergedNames ∧ "total" ∈ Orders.mergedNames ∧
      "gone" ∉ Orders.mergedNames ∧ "a.b" ∉ Orders.mergedNames := by
  obtain ⟨merged, hrun, hnames, hwished⟩ := names_merge none .put [Orders.total] Orders.wishes
    Orders.parcels_isDescribed Orders.parcels_hasDistinctKeys (by decide)
  have hmerged : Orders.mergedNames = merged.map fun f => f.base.name := by
    rw [Orders.mergedNames, hrun, Option.getD_some]
  rw [hmerged]
  have hnote : IsOffered Orders.parcels.documents [Orders.total] "note" :=
    .inl ⟨by decide +kernel, Orders.parcel, List.mem_singleton_self _, .str "fragile",
      List.mem_cons_self, rfl⟩
  have htotal : IsOffered Orders.parcels.documents [Orders.total] "total" := .inr (by decide)
  refine ⟨hwished "note" (by decide) hnote, (hnames "total").mpr ⟨by decide +kernel, htotal⟩,
    fun hgone => ?_, fun hpoint => ?_⟩
  · obtain ⟨-, ⟨-, hholds⟩ | hmem⟩ := (hnames "gone").mp hgone
    · exact Orders.gone_not_held hholds
    · exact absurd hmem (by decide)
  · exact Orders.point_not_offered ((hnames "a.b").mp hpoint).2

/-- Not every name that a document holds or the model has is among the fields, even if the options
ask for it. -/
theorem not_forall_mem_names :
    ¬ ∀ (store : Option Store) (verb : Verb) (model : List PredictedField)
        (sample : CollectionSample) (options : ForecastOptions) (name : String),
      sample.IsDescribed →
      (∀ d ∈ sample.documents, d.HasDistinctKeys) →
      sample.documents.length < 2 ^ 64 →
      sample.documents ≠ [] →
      sample.collection ≠ none →
      ∃ merged, (Session.run (merge verb model sample options) store).1 = some merged ∧
        (name ∈ merged.map (fun f => f.base.name) ↔
          options.skips verb name = false ∧
            ((∃ d ∈ sample.documents, d.Holds name) ∨ name ∈ model.map PredictedField.name)) := by
  intro hall
  have hholds : ∃ d ∈ Orders.parcels.documents, d.Holds "a.b" :=
    ⟨Orders.parcel, List.mem_singleton_self _, .int 1, by simp [Orders.parcel], rfl⟩
  obtain ⟨merged, hrun, hname⟩ := hall none .put [Orders.total] Orders.parcels Orders.wishes "a.b"
    Orders.parcels_isDescribed Orders.parcels_hasDistinctKeys (by decide) (by simp [Orders.parcels])
    (by simp [Orders.parcels])
  have hmem := hname.mpr ⟨by decide +kernel, .inl hholds⟩
  have hoffered := ((yields_names_merge Orders.parcels_isDescribed Orders.parcels_hasDistinctKeys
    (by decide)).of_run hrun "a.b").mp hmem
  exact Orders.point_not_offered hoffered.2

end Forecast
end EndpointPayload
