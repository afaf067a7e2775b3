import EndpointPayload.Proofs.Forecast.Merge

/-!
# The list of fields and the keys of the body

The fields of a forecast have distinct names, none of which the options skip.  Names are distinct
because the schema describes each path once and a field of the model is added only under a new name;
suggestions, sorting and a limit change no name.  So the body has one key for each field and keeps
them all.  Every confidence is a number, which makes the total order of the sort agree with the
order of numbers.
-/

namespace EndpointPayload

namespace ForecastField

/-- The order of a final list: required fields first, then by falling confidence. -/
def StandsBefore (a b : ForecastField) : Prop :=
  (b.base.isRequired = true → a.base.isRequired = true) ∧
    (a.base.isRequired = b.base.isRequired → b.confidence ≤ a.confidence)

theorem mayPrecede_trans (a b c : ForecastField) :
    mayPrecede a b = true → mayPrecede b c = true → mayPrecede a c = true := by
  simp only [mayPrecede]
  cases a.base.isRequired <;> cases b.base.isRequired <;> cases c.base.isRequired <;>
    simp only [if_true, Bool.false_eq_true, if_false, Bool.true_eq_false, imp_self, implies_true,
      false_implies]
  all_goals exact Decimal.descending_trans

theorem mayPrecede_total (a b : ForecastField) : (mayPrecede a b || mayPrecede b a) = true := by
  simp only [mayPrecede]
  cases a.base.isRequired <;> cases b.base.isRequired <;>
    simp [Decimal.descending_total]

/-- Where confidences are numbers, the order of the sort is that of the final list. -/
theorem standsBefore_of_mayPrecede
    {a b : ForecastField}
    (ha : Score.InRange a.confidence)
    (hb : Score.InRange b.confidence)
    (h : mayPrecede a b = true) :
    StandsBefore a b := by
  unfold mayPrecede at h
  split at h
  · rename_i heq
    exact ⟨fun hreq => heq ▸ hreq, fun _ => Decimal.le_of_descending ha.isNaN_eq hb.isNaN_eq h⟩
  · rename_i hne
    exact ⟨fun _ => h, fun heq => absurd heq hne⟩

theorem pairwise_sorted
    {fields : List ForecastField}
    (h : ∀ f ∈ fields, Score.InRange f.confidence) :
    (sorted fields).Pairwise StandsBefore := by
  have hpair : (sorted fields).Pairwise fun a b => mayPrecede a b = true :=
    List.pairwise_mergeSort mayPrecede_trans mayPrecede_total fields
  refine hpair.imp_of_mem fun {a b} ha hb hab => ?_
  exact standsBefore_of_mayPrecede (h a (List.mem_mergeSort.mp ha)) (h b (List.mem_mergeSort.mp hb))
    hab

end ForecastField

namespace Forecast

open Session ForecastField

/-- Distinct names that the options do not skip, and confidences that are scores. -/
structure IsFieldList (verb : Verb) (options : ForecastOptions) (fields : List ForecastField) :
    Prop where
  nodup : (fields.map fun f => f.base.name).Nodup
  skips_eq : ∀ f ∈ fields, options.skips verb f.base.name = false
  inRange : ∀ f ∈ fields, Score.InRange f.confidence

section Lists

variable {verb : Verb} {options : ForecastOptions} {fields : List ForecastField}

theorem IsFieldList.sorted (h : IsFieldList verb options fields) :
    IsFieldList verb options (ForecastField.sorted fields) := by
  have hperm : (ForecastField.sorted fields).Perm fields := List.mergeSort_perm _ _
  refine ⟨(hperm.map _).nodup_iff.mpr h.nodup, fun f hf => ?_, fun f hf => ?_⟩
  · exact h.skips_eq f (hperm.subset hf)
  · exact h.inRange f (hperm.subset hf)

theorem limited_sublist (limit : Option Nat) (fields : List ForecastField) :
    (limited limit fields).Sublist fields := by
  cases limit with
  | none => exact List.Sublist.refl _
  | some n => exact List.take_sublist n fields

theorem IsFieldList.limited
    (limit : Option Nat)
    (h : IsFieldList verb options fields) :
    IsFieldList verb options (Forecast.limited limit fields) := by
  have hsub := limited_sublist limit fields
  refine ⟨h.nodup.sublist (hsub.map _), fun f hf => ?_, fun f hf => ?_⟩
  · exact h.skips_eq f (hsub.subset hf)
  · exact h.inRange f (hsub.subset hf)

end Lists

section Steps

variable {store : Option Store} {verb : Verb} {model : List PredictedField}
variable {sample : CollectionSample} {options : ForecastOptions}

/-- The fields of a sample are built from some of its statistics, in their order. -/
theorem sampleFields_sublist :
    (sampleFields verb model sample options).Sublist
      ((sample.statistics.filter fun s =>
        s.isTopLevel && 0.0 < s.frequency && !options.skips verb s.name).map fun s =>
          ForecastField.ofSample s (model.find? fun m => m.name = s.name) sample.documents) := by
  unfold sampleFields
  induction sample.statistics.filter fun s =>
      s.isTopLevel && 0.0 < s.frequency && !options.skips verb s.name with
  | nil => exact .slnil
  | cons s rest ih =>
      rw [List.filterMap_cons, List.map_cons]
      split
      · exact ih.cons _
      · rename_i f hf
        simp only at hf
        split at hf
        · cases hf
        · cases hf
          exact ih.cons_cons _

theorem names_sampleFields_sublist :
    ((sampleFields verb model sample options).map fun f => f.base.name).Sublist
      (sample.statistics.map FieldStatistics.name) := by
  have hnames : ((sampleFields verb model sample options).map fun f => f.base.name).Sublist _ :=
    sampleFields_sublist.map _
  rw [List.map_map] at hnames
  exact hnames.trans (List.filter_sublist.map FieldStatistics.name)

/-- Before references are resolved: distinct names that are not skipped, with the confidence of some
evidence. -/
structure IsBuilt (verb : Verb) (options : ForecastOptions) (fields : List ForecastField) :
    Prop where
  nodup : (fields.map fun f => f.base.name).Nodup
  skips_eq : ∀ f ∈ fields, options.skips verb f.base.name = false
  isScored : ∀ f ∈ fields, f.IsScored

theorem isBuilt_sampleFields (hsample : sample.IsDescribed) :
    IsBuilt verb options (sampleFields verb model sample options) := by
  obtain ⟨existing, hexisting⟩ := hsample
  refine ⟨?_, fun f hf => ?_, fun f hf => ?_⟩
  · have hstatistics : (sample.statistics.map FieldStatistics.name).Nodup :=
      hexisting ▸ FieldStatistics.nodup_names_describe
    exact hstatistics.sublist names_sampleFields_sublist
  · obtain ⟨s, hs, rfl⟩ := List.mem_map.mp (sampleFields_sublist.subset hf)
    have hkept := (List.mem_filter.mp hs).2
    simp only [Bool.and_eq_true, Bool.not_eq_true'] at hkept
    exact hkept.2
  · obtain ⟨s, hs, rfl⟩ := List.mem_map.mp (sampleFields_sublist.subset hf)
    exact isScored_ofSample _ _ _

/-- A field under a new name that is not skipped can be added. -/
theorem IsBuilt.add
    {fields : List ForecastField}
    {m : PredictedField}
    {values : List Json}
    (h : IsBuilt verb options fields)
    (hnew : (fields.any fun f => f.base.name = m.name) = false)
    (hskips : options.skips verb m.name = false) :
    IsBuilt verb options (fields ++ [ForecastField.ofModel m values]) := by
  refine ⟨?_, fun f hf => ?_, fun f hf => ?_⟩
  · rw [List.map_append, List.nodup_append]
    refine ⟨h.nodup, by simp, fun name hname other hother => ?_⟩
    obtain ⟨f, hf, rfl⟩ := List.mem_map.mp hname
    have hne := List.any_eq_false.mp hnew f hf
    rw [List.mem_singleton.mp hother]
    exact of_decide_eq_false (Bool.eq_false_iff.mpr hne)
  · rcases List.mem_append.mp hf with hold | hadded
    · exact h.skips_eq f hold
    · rw [List.mem_singleton.mp hadded]
      exact hskips
  · rcases List.mem_append.mp hf with hold | hadded
    · exact h.isScored f hold
    · rw [List.mem_singleton.mp hadded]
      exact isScored_ofModel m values

/-- Suggestions change no name and leave every confidence a score. -/
theorem IsBuilt.isFieldList
    {fields merged : List ForecastField}
    (h : IsBuilt verb options fields)
    (hmerged : AreResolved fields merged) :
    IsFieldList verb options merged := by
  refine ⟨?_, fun g hg => ?_, fun g hg => ?_⟩
  · rw [names_of_areResolved hmerged]
    exact h.nodup
  · obtain ⟨f, hf, hfg⟩ := hmerged.exists_isResolved g hg
    rw [hfg.base_eq]
    exact h.skips_eq f hf
  · obtain ⟨f, hf, suggestions, -, rfl⟩ := hmerged.exists_isResolved g hg
    exact inRange_withSuggestions (h.isScored f hf)

theorem yields_isFieldList (hsample : sample.IsDescribed) :
    Yields store (merge verb model sample options) (IsFieldList verb options) := by
  refine (yields_merge (isBuilt_sampleFields hsample) ?_).mono ?_
  · intro fields m values hfields hnew hskips _
    exact hfields.add hnew hskips
  · rintro merged ⟨fields, hfields, hmerged⟩
    exact hfields.isFieldList hmerged

end Steps

section Limits

variable {store : Option Store} {verb : Verb} {sample : CollectionSample}

theorem addModelFields_limit (options : ForecastOptions) (limit : Option Nat) :
    ∀ (model : List PredictedField) (fields : List ForecastField),
      addModelFields verb sample { options with limitFields := limit } fields model =
        addModelFields verb sample options fields model
  | [], _ => rfl
  | m :: ms, fields => by
      simp only [addModelFields, addModelFields_limit options limit ms]
      rfl

/-- The limit plays no part before the end. -/
theorem mergedFields_limit
    (predict : Predictor)
    (context : Option HandlerContext)
    (route : Route)
    (options : ForecastOptions)
    (limit : Option Nat) :
    mergedFields predict context route { options with limitFields := limit } =
      mergedFields predict context route options := by
  unfold mergedFields merge
  simp only [addModelFields_limit]
  rfl

end Limits

/-- The keys of a body are the names of its fields where these are distinct. -/
theorem keys_ofFields
    (now : String)
    (preferReal : Bool)
    {fields : List ForecastField}
    (h : (fields.map fun f => f.base.name).Nodup) :
    (Body.ofFields now preferReal fields).map Prod.fst = fields.map fun f => f.base.name := by
  have hkeys : (fields.map fun f => (f.base.name, Body.valueOf now preferReal f)).map Prod.fst =
      fields.map fun f => f.base.name := by
    rw [List.map_map]
    rfl
  rw [Body.ofFields, Json.ofPairs_of_nodup (by rw [hkeys]; exact h), hkeys]

/-- For every route with a proper path, whatever a model says and however the store behaves: the
fields of the forecast have distinct names, none of them skipped, and stand with the required ones
first and by falling confidence; a limit keeps the first of the fields that there are without it;
and the keys of the body are the names of the fields, in their order. -/
theorem fieldList_ofRoute
    {route : Route}
    (predict : Predictor)
    (context : Option HandlerContext)
    (now : String)
    (options : ForecastOptions)
    (store : Option Store)
    (hroute : route.path.startsWith "/" = true) :
    ∃ forecast full,
      (Session.run (ofRoute predict context now route options) store).1 = some (.ok forecast) ∧
      (Session.run (ofRoute predict context now route { options with limitFields := none })
        store).1 = some (.ok full) ∧
      (forecast.fields.map fun f => f.base.name).Nodup ∧
      (∀ f ∈ forecast.fields, options.skips route.verb f.base.name = false) ∧
      forecast.fields.Pairwise StandsBefore ∧
      (∀ n, options.limitFields = some n → forecast.fields = full.fields.take n) ∧
      forecast.body.map Prod.fst = forecast.fields.map fun f => f.base.name := by
  have hmerged : Yields store (mergedFields predict context route options)
      (IsFieldList route.verb options) :=
    yields_mergedFields CollectionSample.yields_isDescribed fun model sample hS =>
      yields_isFieldList hS
  obtain ⟨forecast, merged, hrun, hrunMerged, hfields, hbody⟩ :=
    run_ofRoute predict context now options hroute
  obtain ⟨full, mergedFull, hrunFull, hrunMergedFull, hfieldsFull, -⟩ :=
    run_ofRoute predict context now { options with limitFields := none } hroute
  -- The limit has no part in merging, so both forecasts are made of the same fields.
  rw [mergedFields_limit, hrunMerged] at hrunMergedFull
  obtain rfl : merged = mergedFull := Option.some.inj hrunMergedFull
  have hmergedList := hmerged.of_run hrunMerged
  have hlist : IsFieldList route.verb options forecast.fields := by
    rw [hfields]
    exact hmergedList.sorted.limited options.limitFields
  refine ⟨forecast, full, hrun, hrunFull, hlist.nodup, hlist.skips_eq, ?_, ?_, ?_⟩
  · rw [hfields]
    exact (pairwise_sorted hmergedList.inRange).sublist (limited_sublist _ _)
  · intro n hn
    rw [hfields, hfieldsFull, hn]
    rfl
  · rw [hbody]
    exact keys_ofFields now _ hlist.nodup

/-- The fields and the body for an order. -/
theorem fieldList_orders :
    ∃ forecast,
      (Session.run (ofRoute (fun _ _ => none) none "" Orders.route Orders.options)
        (some Orders.store)).1 = some (.ok forecast) ∧
      forecast.body.map Prod.fst = forecast.fields.map fun f => f.base.name := by
  obtain ⟨forecast, full, hrun, -, -, -, -, -, hkeys⟩ := fieldList_ofRoute (fun _ _ => none) none ""
    Orders.options (some Orders.store) (show Orders.route.path.startsWith "/" = true by
      decide +kernel)
  exact ⟨forecast, hrun, hkeys⟩

end Forecast
end EndpointPayload
