import EndpointPayload.Proofs.Document.NewValues
import EndpointPayload.Proofs.Forecast.Score
import EndpointPayload.Proofs.Store.Sampler

/-!
# How the fields of a forecast come about

Fields are built from the sample, then from the model alone, and last they may be given ids that
were found for them.  For each of these steps there is one rule here: an invariant of the list of
fields that building a field preserves holds after all fields are built, and the fields of the
forecast are those fields, each with some suggestions, sorted and cut off.  What a property of the
result needs is then said about one field at a time.
-/

namespace EndpointPayload

namespace ForecastField

/-- Few enough values, none of them null. -/
structure AreReal (values : List Json) : Prop where
  length_le : values.length ≤ maxRealValues
  isNull_eq : ∀ v ∈ values, v.isNull = false

/-- What a list keeps of its different values other than null, up to the limit, is real. -/
theorem areReal_distinct (values : List Json) :
    AreReal ((values.filter fun v => !v.isNull).eraseDups.take maxRealValues) := by
  refine ⟨List.length_take_le _ _, fun v hv => ?_⟩
  have hmem := (eraseDups_sublist _).subset (List.mem_of_mem_take hv)
  simpa using (List.mem_filter.mp hmem).2

theorem areReal_sampledValues (docs : List Document) (name : String) :
    AreReal (sampledValues docs name) :=
  sampledValues_eq docs name ▸ areReal_distinct _

theorem areReal_observedValues (docs : List Document) (name : String) :
    AreReal (observedValues docs name) :=
  observedValues_eq docs name ▸ areReal_distinct _

/-- The confidence is what some evidence gives. -/
def IsScored (f : ForecastField) : Prop := ∃ e, f.confidence = Score.ofEvidence e

theorem isScored_ofSample
    (statistics : FieldStatistics)
    (model : Option PredictedField)
    (docs : List Document) :
    (ofSample statistics model docs).IsScored :=
  ⟨_, rfl⟩

theorem isScored_ofModel (model : PredictedField) (values : List Json) :
    (ofModel model values).IsScored :=
  ⟨_, rfl⟩

end ForecastField

namespace Forecast

open Session

section Suggestions

variable {f g : ForecastField} {suggestions : List Suggestion}

/-- Suggestions keep the name, the type and the example of a field. -/
@[simp] theorem withSuggestions_base :
    (withSuggestions f suggestions).base = f.base := by
  unfold withSuggestions
  split
  · rfl
  · split <;> rfl

/-- Every confidence in a forecast is a score. -/
theorem inRange_withSuggestions (hf : f.IsScored) :
    Score.InRange (withSuggestions f suggestions).confidence := by
  obtain ⟨e, he⟩ := hf
  have hkeep : Score.InRange f.confidence := he ▸ Score.inRange_ofEvidence e
  have hraise : Score.InRange (Score.clamp (f.confidence + Score.realValuesBonus)) :=
    he ▸ Score.inRange_ofEvidence_bonus e
  unfold withSuggestions
  split
  · exact hkeep
  · split
    · exact hkeep
    · simp only
      split
      · exact hkeep
      · exact hraise

/-- A field with what was found for it. -/
def IsResolved (f g : ForecastField) : Prop :=
  ∃ suggestions : List Suggestion,
    suggestions.length ≤ maxSuggestions ∧ withSuggestions f suggestions = g

theorem IsResolved.base_eq (h : IsResolved f g) : g.base = f.base := by
  obtain ⟨suggestions, -, rfl⟩ := h
  exact withSuggestions_base

/-- Fields that come from others by suggestions: the same names, types and examples in the same
order, and each field from one of the others. -/
structure AreResolved (fields merged : List ForecastField) : Prop where
  map_base : merged.map ForecastField.base = fields.map ForecastField.base
  exists_isResolved : ∀ g ∈ merged, ∃ f ∈ fields, IsResolved f g

theorem areResolved_of_forall₂
    {fields merged : List ForecastField}
    (h : List.Forall₂ IsResolved fields merged) :
    AreResolved fields merged := by
  induction h with
  | nil => exact ⟨rfl, by simp⟩
  | cons hfg _ ih =>
      refine ⟨by rw [List.map_cons, List.map_cons, hfg.base_eq, ih.map_base], fun k hk => ?_⟩
      rcases List.mem_cons.mp hk with rfl | hmem
      · exact ⟨_, List.mem_cons_self, hfg⟩
      · obtain ⟨f, hf, hres⟩ := ih.exists_isResolved k hmem
        exact ⟨f, List.mem_cons_of_mem _ hf, hres⟩

/-- Suggestions change no name. -/
theorem names_of_areResolved
    {fields merged : List ForecastField}
    (h : AreResolved fields merged) :
    merged.map (fun f => f.base.name) = fields.map fun f => f.base.name := by
  have hbases := congrArg (List.map PredictedField.name) h.map_base
  rw [List.map_map, List.map_map] at hbases
  exact hbases

end Suggestions

section Steps

variable {store : Option Store} {verb : Verb} {sample : CollectionSample}
variable {options : ForecastOptions} {I : List ForecastField → Prop}

theorem yields_modelField (m : PredictedField) :
    Yields store (modelField sample m) fun f =>
      ∃ values, ForecastField.AreReal values ∧ f = ForecastField.ofModel m values := by
  simp only [modelField]
  split
  · refine Yields.bind (Sampler.yields_fieldValues m.name _) fun values hvalues => ?_
    exact yields_pure ⟨values, ⟨hvalues.1, hvalues.2⟩, rfl⟩
  · exact yields_pure ⟨_, ForecastField.areReal_sampledValues _ _, rfl⟩

/-- What adding one new field preserves holds when all fields of the model are added. -/
theorem yields_addModelFields
    (hadd : ∀ fields m values,
      I fields →
      (fields.any fun f => f.base.name = m.name) = false →
      options.skips verb m.name = false →
      ForecastField.AreReal values →
      I (fields ++ [ForecastField.ofModel m values])) :
    ∀ (ms : List PredictedField) (fields : List ForecastField),
      I fields → Yields store (addModelFields verb sample options fields ms) I
  | [], fields, h => yields_pure h
  | m :: ms, fields, h => by
      rw [addModelFields]
      split
      · exact yields_addModelFields hadd ms fields h
      · rename_i hnew
        rw [Bool.or_eq_true, not_or, Bool.not_eq_true, Bool.not_eq_true] at hnew
        refine Yields.bind (yields_modelField m) fun f hf => ?_
        obtain ⟨values, hvalues, rfl⟩ := hf
        exact yields_addModelFields hadd ms _ (hadd fields m values h hnew.1 hnew.2 hvalues)

/-- So few ids are looked for that they can always be filled up. -/
theorem two_mul_maxSuggestions_lt : 2 * maxSuggestions < 2 ^ 64 := by decide

theorem yields_resolveReference (source : Option String) (f : ForecastField) :
    Yields store (resolveReference source f) (IsResolved f) := by
  unfold resolveReference
  split
  · refine Yields.bind (Resolution.yields_ofField two_mul_maxSuggestions_lt _ _) fun r hr => ?_
    exact yields_pure ⟨r.suggestions, hr, rfl⟩
  · exact yields_pure ⟨[], Nat.zero_le _, rfl⟩

/-- The merged fields are fields with the invariant, each with what was found for it. -/
theorem yields_merge
    {model : List PredictedField}
    (hsample : I (sampleFields verb model sample options))
    (hadd : ∀ fields m values,
      I fields →
      (fields.any fun f => f.base.name = m.name) = false →
      options.skips verb m.name = false →
      ForecastField.AreReal values →
      I (fields ++ [ForecastField.ofModel m values])) :
    Yields store (merge verb model sample options) fun merged =>
      ∃ fields, I fields ∧ AreResolved fields merged := by
  refine Yields.bind (yields_addModelFields hadd model _ hsample) fun fields hfields => ?_
  refine (yields_mapM fields fun f _ => yields_resolveReference _ f).mono fun merged hmerged => ?_
  exact ⟨fields, hfields, areResolved_of_forall₂ hmerged⟩

theorem yields_merge_true {model : List PredictedField} :
    Yields store (merge verb model sample options) fun _ => True :=
  (yields_merge (I := fun _ => True) trivial fun _ _ _ _ _ _ _ => trivial).mono fun _ _ => trivial

/-- The merged fields for a route. -/
def mergedFields
    (predict : Predictor)
    (context : Option HandlerContext)
    (route : Route)
    (options : ForecastOptions) :
    Session (List ForecastField) := do
  let sample ← CollectionSample.ofGuess (Naming.best route) options
  merge route.verb (((predict route context).map Prediction.fields).getD []) sample options

/-- A route with a proper path has a forecast, whatever the store answers: its merged fields, sorted
and cut off, and a body for these. -/
theorem run_ofRoute
    {route : Route}
    (predict : Predictor)
    (context : Option HandlerContext)
    (now : String)
    (options : ForecastOptions)
    (hroute : route.path.startsWith "/" = true) :
    ∃ forecast merged,
      (Session.run (ofRoute predict context now route options) store).1 = some (.ok forecast) ∧
        (Session.run (mergedFields predict context route options) store).1 = some merged ∧
        forecast.fields = limited options.limitFields (ForecastField.sorted merged) ∧
        forecast.body =
          Body.ofFields now (options.preferRealData.getD true) forecast.fields := by
  have hguess : Yields store (CollectionSample.ofGuess (Naming.best route) options)
      CollectionSample.IsDescribed := CollectionSample.yields_isDescribed
  obtain ⟨sample, hsample, -⟩ := hguess []
  have hmerge : Yields store (merge route.verb
      (((predict route context).map Prediction.fields).getD []) sample options) fun _ => True :=
    yields_merge_true
  obtain ⟨merged, hmerged, -⟩ := hmerge _
  rw [run_eq_outcome, run_eq_outcome]
  unfold mergedFields ofRoute
  rw [hroute]
  simp only [Bool.not_true, Bool.false_eq_true, if_false]
  rw [outcome_bind_of_some hsample, outcome_bind_of_some hsample, outcome_bind_of_some hmerged]
  exact ⟨_, merged, rfl, hmerged, rfl, rfl⟩

/-- What the merged fields of every sample have, those of a route have. -/
theorem yields_mergedFields
    {S : CollectionSample → Prop}
    {M : List ForecastField → Prop}
    {predict : Predictor}
    {context : Option HandlerContext}
    {route : Route}
    (hsample : Yields store (CollectionSample.ofGuess (Naming.best route) options) S)
    (hmerge : ∀ model sample, S sample →
      Yields store (merge route.verb model sample options) M) :
    Yields store (mergedFields predict context route options) M :=
  Yields.bind hsample fun sample hS => hmerge _ sample hS

/-- Sorting and cutting off leaves fields out at most. -/
theorem mem_of_mem_limited
    {limit : Option Nat}
    {fields : List ForecastField}
    {f : ForecastField}
    (h : f ∈ limited limit (ForecastField.sorted fields)) :
    f ∈ fields := by
  cases limit with
  | none => exact List.mem_mergeSort.mp h
  | some n => exact List.mem_mergeSort.mp (List.mem_of_mem_take h)

end Steps

namespace Orders

/-- A request that changes an order. -/
def route : Route where
  verb := .put
  path := "/orders"
  filePath := "orders.js"
  line := 1
  middlewares := []
  handler := Route.anonymous
  routerPrefix := none
  controllerFile := none
  controllerFunction := none
  inlineSpan := none

/-- One order: a list of tags without tags and a note. -/
def order : Document := [("tags", .arr []), ("note", .str "fragile")]

theorem order_hasDistinctKeys : order.HasDistinctKeys := by
  simp [Document.HasDistinctKeys, order]

/-- The tags as the schema describes them. -/
def tags : FieldStatistics :=
  FieldStatistics.ofValues (Document.fieldAt [order] "tags") (Document.valuesAt "tags" [order]) []

theorem tags_mem_describe : tags ∈ FieldStatistics.describe [order] [] := by
  refine FieldStatistics.mem_describe.mpr ⟨"tags", ?_, rfl⟩
  rw [Document.paths, Text.mem_sorted]
  decide +kernel

/-- A store with one order. -/
def store : Store := MemoryStore.store ⟨[("orders", [order])]⟩ id fun _ => 0

theorem store_hasDistinctKeys : store.HasDistinctKeys :=
  MemoryStore.store_hasDistinctKeys _ _ (by simpa using order_hasDistinctKeys)

/-- No wishes. -/
def options : ForecastOptions := ⟨none, none, [], [], 0⟩

end Orders

end Forecast
end EndpointPayload
