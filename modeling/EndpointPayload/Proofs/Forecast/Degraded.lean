import EndpointPayload.Proofs.Forecast.Merge
import EndpointPayload.Proofs.Store.Down

/-!
# Forecasts without a store

Without a store there is a forecast all the same, and a store that answers nothing changes nothing
about it: its fields are those that the model names, each name once and none that the options skip,
without any values.  Whether there is a forecast at all is decided by the path of the route alone.
-/

namespace EndpointPayload

namespace Forecast

open Session

/-- The fields that the model alone knows: no skipped ones, the first of each name, no values. -/
def modelOnlyFields
    (verb : Verb)
    (options : ForecastOptions)
    (model : List PredictedField) :
    List ForecastField :=
  ((model.filter fun m => !options.skips verb m.name).eraseDupsBy fun a b => a.name == b.name).map
    fun m => ForecastField.ofModel m []

/-- The forecast of a model that no store adds to. -/
def modelOnly
    (predict : Predictor)
    (context : Option HandlerContext)
    (now : String)
    (route : Route)
    (options : ForecastOptions) :
    Forecast :=
  let prediction := predict route context
  let model := (prediction.map Prediction.fields).getD []
  let fields :=
    limited options.limitFields (ForecastField.sorted (modelOnlyFields route.verb options model))
  { route := route
    fields := fields
    headers := (prediction.map Prediction.headers).getD []
    hasModelData := !model.isEmpty
    hasSampleData := false
    approach := .modelOnly
    guess := Naming.best route
    sampledCollection := none
    sampleConfidence := 0.0
    sampleDocuments := []
    body := Body.ofFields now (options.preferRealData.getD true) fields }

section Fields

variable {verb : Verb} {options : ForecastOptions}

/-- A field that is not skipped comes first and drops the others of its name. -/
theorem modelOnlyFields_cons_of_kept
    {m : PredictedField}
    {ms : List PredictedField}
    (h : options.skips verb m.name = false) :
    modelOnlyFields verb options (m :: ms) =
      ForecastField.ofModel m [] ::
        modelOnlyFields verb options (ms.filter fun p => !decide (m.name = p.name)) := by
  have hname : ∀ p : PredictedField,
      decide ((p.name == m.name) = false) = !decide (m.name = p.name) := by
    intro p
    simp [eq_comm (a := m.name)]
  simp only [modelOnlyFields, List.filter_cons, h, Bool.not_false, if_true, List.eraseDupsBy_cons,
    List.map_cons, hname]
  rw [List.filter_comm]

theorem modelOnlyFields_cons_of_skips
    {m : PredictedField}
    {ms : List PredictedField}
    (h : options.skips verb m.name = true) :
    modelOnlyFields verb options (m :: ms) = modelOnlyFields verb options ms := by
  simp [modelOnlyFields, h]

/-- Without a sample, the fields that are added to some fields are those of the model under other
names. -/
theorem addModelFields_none :
    ∀ (model : List PredictedField) (fields : List ForecastField),
      addModelFields verb .none options fields model =
        pure (fields ++ modelOnlyFields verb options
          (model.filter fun m => !fields.any fun f => f.base.name = m.name))
  | [], fields => by simp [addModelFields, modelOnlyFields]
  | m :: ms, fields => by
      have hfield : modelField .none m = pure (ForecastField.ofModel m []) := rfl
      rw [addModelFields, hfield, pure_bind, addModelFields_none ms, addModelFields_none ms]
      cases hold : fields.any fun f => f.base.name = m.name with
      | true => simp [hold]
      | false =>
          have hcons : (m :: ms).filter (fun p => !fields.any fun f => f.base.name = p.name) =
              m :: ms.filter fun p => !fields.any fun f => f.base.name = p.name := by
            simp [hold]
          rw [hcons]
          cases hskips : options.skips verb m.name with
          | true => rw [modelOnlyFields_cons_of_skips hskips]; rfl
          | false =>
              have hadded : ∀ p : PredictedField,
                  (!(fields ++ [ForecastField.ofModel m []]).any fun f => f.base.name = p.name) =
                    (!decide (m.name = p.name) &&
                      !fields.any fun f => f.base.name = p.name) := by
                intro p
                simp [ForecastField.ofModel, Bool.and_comm]
              rw [modelOnlyFields_cons_of_kept hskips, List.filter_filter]
              simp only [hadded, Bool.or_self, Bool.false_eq_true, if_false, List.append_assoc,
                List.singleton_append]

theorem source_eq_of_mem_modelOnlyFields
    {model : List PredictedField}
    {f : ForecastField}
    (h : f ∈ modelOnlyFields verb options model) :
    f.source = .model := by
  obtain ⟨m, -, rfl⟩ := List.mem_map.mp h
  rfl

end Fields

section Down

variable {store : Option Store} (hdown : ∀ s ∈ store, s.IsDown)
include hdown

/-- A field that no ids are found for stays as it is. -/
theorem yields_resolveReference_self (source : Option String) (f : ForecastField) :
    Yields store (resolveReference source f) (f = ·) := by
  unfold resolveReference
  split
  · refine Yields.bind (Resolution.yields_suggestions_nil hdown _ _ _) fun r hr => yields_pure ?_
    rw [hr]
    rfl
  · exact yields_pure rfl

theorem yields_merge_none
    (verb : Verb)
    (model : List PredictedField)
    (options : ForecastOptions) :
    Yields store (merge verb model .none options) (· = modelOnlyFields verb options model) := by
  have hsample : sampleFields verb model .none options = [] := rfl
  unfold merge
  rw [hsample, addModelFields_none, pure_bind]
  refine (yields_mapM _ fun f _ => yields_resolveReference_self hdown _ f).mono fun fields h => ?_
  rw [List.forall₂_eq_eq_eq] at h
  rw [← h]
  simp

/-- A route with a proper path has the forecast of the model alone. -/
theorem yields_modelOnly
    (predict : Predictor)
    (context : Option HandlerContext)
    (now : String)
    (options : ForecastOptions)
    {route : Route}
    (hroute : route.path.startsWith "/" = true) :
    Yields store (ofRoute predict context now route options)
      (· = .ok (modelOnly predict context now route options)) := by
  unfold ofRoute
  rw [hroute]
  refine Yields.bind (CollectionSample.yields_none hdown _ _) fun sample hsample => ?_
  subst hsample
  refine Yields.bind (yields_merge_none hdown _ _ _) fun fields hfields => yields_pure ?_
  subst hfields
  rfl

end Down

/-- Only a path that does not start with a slash keeps a route from having a forecast. -/
theorem exists_run_ofRoute
    (predict : Predictor)
    (context : Option HandlerContext)
    (now : String)
    (route : Route)
    (options : ForecastOptions)
    (store : Option Store) :
    ∃ result, (Session.run (ofRoute predict context now route options) store).1 = some result ∧
      ∀ e, result = .error e ↔
        route.path.startsWith "/" = false ∧
          e = .invalidRoute ("route path must start with '/': " ++ Text.quoted route.path) := by
  cases hroute : route.path.startsWith "/" with
  | true =>
      obtain ⟨forecast, -, hrun, -⟩ :=
        @run_ofRoute store route predict context now options hroute
      exact ⟨_, hrun, by simp⟩
  | false =>
      refine ⟨.error (.invalidRoute
        ("route path must start with '/': " ++ Text.quoted route.path)), ?_, fun e => ?_⟩
      · unfold ofRoute
        rw [hroute]
        rfl
      · rw [Except.error.injEq, eq_comm]
        simp

/-- For every route, every model and all options: there is no forecast exactly if the path does not
start with a slash, whatever the store does; a store that is down gives the same as no store; and
without a store the fields are those of the model, sorted and cut off, each name once, none skipped
and none with values, nothing comes from a sample, and the model alone is recommended. -/
theorem degraded_ofRoute
    (predict : Predictor)
    (context : Option HandlerContext)
    (now : String)
    (route : Route)
    (options : ForecastOptions) :
    (∀ store, ∃ result,
      (Session.run (ofRoute predict context now route options) store).1 = some result ∧
      ∀ e, result = .error e ↔
        route.path.startsWith "/" = false ∧
          e = .invalidRoute ("route path must start with '/': " ++ Text.quoted route.path)) ∧
    (∀ store : Store, store.IsDown →
      (Session.run (ofRoute predict context now route options) (some store)).1 =
        (Session.run (ofRoute predict context now route options) none).1) ∧
    (route.path.startsWith "/" = true →
      ∃ forecast,
        (Session.run (ofRoute predict context now route options) none).1 = some (.ok forecast) ∧
        forecast.fields = limited options.limitFields (ForecastField.sorted
          (modelOnlyFields route.verb options
            (((predict route context).map Prediction.fields).getD []))) ∧
        forecast.hasSampleData = false ∧
        forecast.sampledCollection = none ∧
        forecast.sampleConfidence = 0 ∧
        (∀ f ∈ forecast.fields, f.source = .model) ∧
        forecast.approach = .modelOnly) := by
  have hnone : ∀ s ∈ (none : Option Store), s.IsDown := by simp
  refine ⟨exists_run_ofRoute predict context now route options, ?_, ?_⟩
  · intro store hstore
    have hsome : ∀ s ∈ some store, s.IsDown := by simpa using hstore
    cases hroute : route.path.startsWith "/" with
    | true =>
        obtain ⟨_, hrun, rfl⟩ := (yields_modelOnly hsome predict context now options hroute).run
        obtain ⟨_, hrunNone, rfl⟩ :=
          (yields_modelOnly hnone predict context now options hroute).run
        rw [hrun, hrunNone]
    | false =>
        unfold ofRoute
        rw [hroute]
        rfl
  · intro hroute
    obtain ⟨_, hrun, rfl⟩ := (yields_modelOnly hnone predict context now options hroute).run
    refine ⟨modelOnly predict context now route options, hrun, rfl, rfl, rfl, rfl, ?_, rfl⟩
    intro f hf
    exact source_eq_of_mem_modelOnlyFields (mem_of_mem_limited hf)

namespace Orders

/-- A store that was attached and then stopped to answer. -/
def lostStore : Store where
  answer
    | _, .ping => .ok ()
    | _, _ => .error .storeUnavailable
  draw _ := 0

theorem lostStore_isDown : lostStore.IsDown := by
  intro log q hq
  cases q with
  | ping => exact absurd rfl hq
  | _ => exact ⟨_, rfl⟩

/-- A request that makes an order. -/
def creation : Route := { route with verb := .post }

/-- A field that a model names. -/
def named (name : String) (isRequired : Bool) : PredictedField :=
  ⟨name, PredictedField.defaultType, isRequired, .null, ""⟩

/-- A model that names one field twice, and two that are skipped. -/
def predict : Predictor := fun _ _ =>
  some ⟨[named "__v" true, named "total" true, named "note" false, named "total" false,
    named "createdAt" true], []⟩

/-- What the model names for the request. -/
def alone : List ForecastField :=
  modelOnlyFields creation.verb options (((predict creation none).map Prediction.fields).getD [])

/-- The fields stand in order as the model names them. -/
theorem sorted_alone : ForecastField.sorted alone = alone :=
  List.mergeSort_of_pairwise (by decide +kernel)

end Orders

/-- The request that makes an order, with a store that was lost. -/
theorem degraded_orders :
    Orders.lostStore.IsDown ∧
    (Session.run (ofRoute Orders.predict none "" Orders.creation Orders.options)
        (some Orders.lostStore)).1 =
      (Session.run (ofRoute Orders.predict none "" Orders.creation Orders.options) none).1 ∧
    ∃ forecast,
      (Session.run (ofRoute Orders.predict none "" Orders.creation Orders.options) none).1 =
        some (.ok forecast) ∧
      forecast.fields.map (fun f => f.base.name) = ["total", "note"] ∧
      ∀ f ∈ forecast.fields, f.source = .model := by
  obtain ⟨-, hstore, hforecast⟩ :=
    degraded_ofRoute Orders.predict none "" Orders.creation Orders.options
  obtain ⟨forecast, hrun, hfields, -, -, -, hsource, -⟩ :=
    hforecast (by decide +kernel)
  refine ⟨Orders.lostStore_isDown, hstore _ Orders.lostStore_isDown, forecast, hrun, ?_, hsource⟩
  have hnames : Orders.alone.map (fun f => f.base.name) = ["total", "note"] := by decide +kernel
  rw [hfields]
  exact (congrArg (List.map fun f => f.base.name) Orders.sorted_alone).trans hnames

end Forecast
end EndpointPayload
