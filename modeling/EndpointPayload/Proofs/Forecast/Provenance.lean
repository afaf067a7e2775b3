import EndpointPayload.Proofs.Forecast.Merge

/-!
# Where the fields of a forecast come from

Every field of a forecast says truthfully where it comes from: it claims real data exactly if it has
real values, and names a source besides the model exactly then.  The invariant holds for a field as
it is built and survives the search for references.  For fields of a sample it rests on one fact
about the schema: a key of the documents themselves that some document has with a value other than
null gets at least one real value, so no described field is ever left out for want of values.
-/

namespace EndpointPayload

namespace ForecastField

/-- What a field says about its values is true, and its confidence is a score. -/
structure HasProvenance (f : ForecastField) : Prop where
  hasRealData_iff : f.hasRealData = true ↔ f.realValues ≠ []
  source_iff : f.source ≠ .model ↔ f.realValues ≠ []
  hasRealData_of_sample : f.source = .sample ∨ f.statistics.isSome = true → f.hasRealData = true
  areReal : AreReal f.realValues
  least_le : Score.least ≤ f.confidence
  le_greatest : f.confidence ≤ Score.greatest

section Sample

variable {docs : List Document} {existing : List String} {s : FieldStatistics}

/-- A value that a lookup finds is observed. -/
theorem observedValues_ne_nil
    {name : String}
    {v : Json}
    {d : Document}
    (hd : d ∈ docs)
    (hv : d.at? name = some v)
    (hn : v.isNull = false) :
    observedValues docs name ≠ [] := by
  have hmem : v ∈ (docs.filterMap fun d => d.at? name).filter fun v => !v.isNull := by
    rw [List.mem_filter, List.mem_filterMap]
    exact ⟨⟨d, hd, hv⟩, by simp [hn]⟩
  rw [observedValues_eq, Ne, List.take_eq_nil_iff, eraseDups_eq_nil, not_or]
  exact ⟨by decide, List.ne_nil_of_mem hmem⟩

/-- A described key of the documents themselves with a positive frequency has real values. -/
theorem valuesFor_ne_nil
    (hdocs : ∀ d ∈ docs, d.HasDistinctKeys)
    (hs : s ∈ FieldStatistics.describe docs existing)
    (htop : s.isTopLevel = true)
    (hfreq : 0.0 < s.frequency) :
    valuesFor s docs ≠ [] := by
  obtain ⟨d, hd, v, hv, hn⟩ := FieldStatistics.exists_value_of_mem_describe hdocs hs htop hfreq
  simp only [valuesFor]
  split
  · rename_i hfound
    simpa using hfound
  · split
    · rename_i hexamples
      simpa using hexamples
    · exact observedValues_ne_nil hd hv hn

theorem areReal_valuesFor (hs : s ∈ FieldStatistics.describe docs existing) :
    AreReal (valuesFor s docs) := by
  have hexamples : s.examples.length ≤ Document.maxExamples := by
    rw [FieldStatistics.eq_of_mem_describe hs]
    exact List.length_take_le _ _
  simp only [valuesFor]
  split
  · exact areReal_sampledValues _ _
  · split
    · refine ⟨(List.length_filter_le _ _).trans (hexamples.trans (by decide)), fun v hv => ?_⟩
      simpa using (List.mem_filter.mp hv).2
    · exact areReal_observedValues _ _

theorem hasProvenance_ofSample
    (hdocs : ∀ d ∈ docs, d.HasDistinctKeys)
    (hs : s ∈ FieldStatistics.describe docs existing)
    (htop : s.isTopLevel = true)
    (hfreq : 0.0 < s.frequency)
    (model : Option PredictedField) :
    (ofSample s model docs).HasProvenance := by
  have hvalues := valuesFor_ne_nil hdocs hs htop hfreq
  have hreal : (ofSample s model docs).hasRealData = true := by
    simpa [ofSample] using hvalues
  have hsource : (ofSample s model docs).source ≠ .model := by
    simp only [ofSample]
    split <;> simp
  obtain ⟨e, he⟩ := isScored_ofSample s model docs
  have hscore : Score.InRange (ofSample s model docs).confidence := he ▸ Score.inRange_ofEvidence e
  exact ⟨iff_of_true hreal hvalues, iff_of_true hsource hvalues, fun _ => hreal,
    areReal_valuesFor hs, hscore.least_le, hscore.le_greatest⟩

end Sample

theorem hasProvenance_ofModel
    (m : PredictedField)
    {values : List Json}
    (hvalues : AreReal values) :
    (ofModel m values).HasProvenance := by
  obtain ⟨e, he⟩ := isScored_ofModel m values
  have hscore : Score.InRange (ofModel m values).confidence := he ▸ Score.inRange_ofEvidence e
  refine ⟨?_, ?_, ?_, hvalues, hscore.least_le, hscore.le_greatest⟩
  all_goals cases values <;> simp [ofModel]

end ForecastField

namespace Forecast

open Session ForecastField

/-- The values of suggestions are texts, so they are real. -/
theorem areReal_suggestions
    {suggestions : List Suggestion}
    (h : suggestions.length ≤ maxSuggestions) :
    AreReal (suggestions.map fun s => Json.str s.id) := by
  refine ⟨by rw [List.length_map]; exact h, fun v hv => ?_⟩
  obtain ⟨s, -, rfl⟩ := List.mem_map.mp hv
  rfl

/-- Suggestions keep the provenance of a field. -/
theorem hasProvenance_of_isResolved
    {f g : ForecastField}
    (hf : f.HasProvenance)
    (hscored : f.IsScored)
    (h : IsResolved f g) :
    g.HasProvenance := by
  obtain ⟨suggestions, hlength, rfl⟩ := h
  have hscore : Score.InRange (withSuggestions f suggestions).confidence :=
    inRange_withSuggestions hscored
  cases suggestions with
  | nil => exact hf
  | cons best rest =>
      by_cases hkeep : ((f.realValues.any fun v => v.objectId?.isSome) &&
          best.confidence < f.confidence) = true
      · have hsame : withSuggestions f (best :: rest) = f := by
          simp only [withSuggestions, hkeep, if_true]
        rw [hsame]
        exact hf
      · have hnew := areReal_suggestions hlength
        simp only [withSuggestions, hkeep, Bool.false_eq_true, if_false] at hscore ⊢
        refine ⟨by simp, ?_, fun _ => rfl, hnew, hscore.least_le, hscore.le_greatest⟩
        by_cases hmodel : f.source = .model <;> simp [hmodel]

section Sample

variable {verb : Verb} {model : List PredictedField} {sample : CollectionSample}
variable {options : ForecastOptions}

/-- No field of a described sample is left out for want of values. -/
theorem sampleFields_eq_map
    (hdocs : ∀ d ∈ sample.documents, d.HasDistinctKeys)
    (hsample : sample.IsDescribed) :
    sampleFields verb model sample options =
      (sample.statistics.filter fun s =>
        s.isTopLevel && 0.0 < s.frequency && !options.skips verb s.name).map fun s =>
          ForecastField.ofSample s (model.find? fun m => m.name = s.name) sample.documents := by
  obtain ⟨existing, hexisting⟩ := hsample
  rw [← List.filterMap_eq_map, sampleFields]
  refine List.filterMap_congr fun s hs => ?_
  obtain ⟨hmem, hkept⟩ := List.mem_filter.mp hs
  simp only [Bool.and_eq_true, decide_eq_true_eq] at hkept
  have hvalues := valuesFor_ne_nil hdocs (hexisting ▸ hmem) hkept.1.1 hkept.1.2
  have hreal : (ForecastField.ofSample s (model.find? fun m => m.name = s.name)
      sample.documents).hasRealData = true := by
    simpa [ofSample] using hvalues
  simp [hreal]

theorem hasProvenance_of_mem_sampleFields
    {f : ForecastField}
    (hdocs : ∀ d ∈ sample.documents, d.HasDistinctKeys)
    (hsample : sample.IsDescribed)
    (hf : f ∈ sampleFields verb model sample options) :
    f.HasProvenance ∧ f.IsScored := by
  rw [sampleFields_eq_map hdocs hsample] at hf
  obtain ⟨s, hs, rfl⟩ := List.mem_map.mp hf
  obtain ⟨existing, hexisting⟩ := hsample
  obtain ⟨hmem, hkept⟩ := List.mem_filter.mp hs
  simp only [Bool.and_eq_true, decide_eq_true_eq] at hkept
  exact ⟨hasProvenance_ofSample hdocs (hexisting ▸ hmem) hkept.1.1 hkept.1.2 _,
    isScored_ofSample _ _ _⟩

theorem yields_hasProvenance
    {store : Option Store}
    (hdocs : ∀ d ∈ sample.documents, d.HasDistinctKeys)
    (hsample : sample.IsDescribed) :
    Yields store (merge verb model sample options) fun merged =>
      ∀ f ∈ merged, f.HasProvenance := by
  have hbuilt : ∀ f ∈ sampleFields verb model sample options, f.HasProvenance ∧ f.IsScored :=
    fun f hf => hasProvenance_of_mem_sampleFields hdocs hsample hf
  refine (yields_merge (I := fun fields => ∀ f ∈ fields, f.HasProvenance ∧ f.IsScored)
    hbuilt ?_).mono ?_
  · intro fields m values hfields _ _ hvalues f hf
    rcases List.mem_append.mp hf with hold | hnew
    · exact hfields f hold
    · rw [List.mem_singleton.mp hnew]
      exact ⟨hasProvenance_ofModel m hvalues, isScored_ofModel m values⟩
  · rintro merged ⟨fields, hfields, hmerged⟩ g hg
    obtain ⟨f, hf, hfg⟩ := hmerged.exists_isResolved g hg
    exact hasProvenance_of_isResolved (hfields f hf).1 (hfields f hf).2 hfg

end Sample

/-- For every route with a proper path, whatever a model says and however the store behaves, the
forecast exists and each of its fields says truthfully where it comes from.  Every described key of
documents with a positive frequency has real values, so the sample leaves out no field for want of
values. -/
theorem hasProvenance_ofRoute
    {store : Option Store}
    (predict : Predictor)
    (context : Option HandlerContext)
    (now : String)
    (route : Route)
    (options : ForecastOptions)
    (hroute : route.path.startsWith "/" = true)
    (hstore : ∀ s ∈ store, s.HasDistinctKeys) :
    (∃ forecast,
      (Session.run (ofRoute predict context now route options) store).1 = some (.ok forecast) ∧
        ∀ f ∈ forecast.fields, f.HasProvenance) ∧
    (∀ docs existing, (∀ d ∈ docs, d.HasDistinctKeys) →
      ∀ s ∈ FieldStatistics.describe docs existing, s.isTopLevel = true → 0.0 < s.frequency →
        ∀ model, (ForecastField.ofSample s model docs).realValues ≠ []) ∧
    (∀ verb model sample, (∀ d ∈ sample.documents, d.HasDistinctKeys) → sample.IsDescribed →
      sampleFields verb model sample options =
        (sample.statistics.filter fun s =>
          s.isTopLevel && 0.0 < s.frequency && !options.skips verb s.name).map fun s =>
            ForecastField.ofSample s (model.find? fun m => m.name = s.name) sample.documents) := by
  refine ⟨?_, ?_, ?_⟩
  · have hsample : Yields store (CollectionSample.ofGuess (Naming.best route) options) fun sample =>
        sample.IsDescribed ∧ ∀ d ∈ sample.documents, d.HasDistinctKeys :=
      CollectionSample.yields_isDescribed.and (CollectionSample.yields_distinctKeys hstore)
    have hmerged : Yields store (mergedFields predict context route options) fun merged =>
        ∀ f ∈ merged, f.HasProvenance :=
      yields_mergedFields hsample fun model sample hS => yields_hasProvenance hS.2 hS.1
    obtain ⟨forecast, merged, hrun, hrunMerged, hfields, -⟩ :=
      run_ofRoute predict context now options hroute
    have hall := hmerged.of_run hrunMerged
    exact ⟨forecast, hrun, fun f hf => hall f (mem_of_mem_limited (hfields ▸ hf))⟩
  · intro docs existing hdocs s hs htop hfreq model
    exact valuesFor_ne_nil hdocs hs htop hfreq
  · intro verb model sample hdocs hsample
    exact sampleFields_eq_map hdocs hsample

/-- The forecast for an order with an empty list of tags, which are described all the same. -/
theorem hasProvenance_orders :
    (∃ forecast,
      (Session.run (ofRoute (fun _ _ => none) none "" Orders.route Orders.options)
        (some Orders.store)).1 = some (.ok forecast) ∧
      ∀ f ∈ forecast.fields, f.HasProvenance) ∧
    (ForecastField.ofSample Orders.tags none [Orders.order]).realValues ≠ [] := by
  have hstore : ∀ s ∈ some Orders.store, s.HasDistinctKeys := by
    simpa using Orders.store_hasDistinctKeys
  obtain ⟨hrun, hdescribed, -⟩ := hasProvenance_ofRoute (fun _ _ => none) none "" Orders.route
    Orders.options (by decide +kernel) hstore
  refine ⟨hrun, hdescribed [Orders.order] [] ?_ Orders.tags Orders.tags_mem_describe ?_ ?_ none⟩
  · simpa using Orders.order_hasDistinctKeys
  · decide +kernel
  · decide +kernel

end Forecast
end EndpointPayload
