import EndpointPayload.Proofs.Forecast.FieldList
import EndpointPayload.Proofs.Store.Memory
import EndpointPayload.Proofs.Store.Ranking

/-!
# Ids in place of the values of a field

The last step of a merge looks for ids for each field that speaks of one.  The best of them comes
first, and the others are no surer.  Of a field with an id among its values the values are replaced
only by ids that are at least as sure as the field.  A field without such a value gives way to
whatever ids there are, however sure it is.
-/

namespace EndpointPayload

open Session

namespace Resolution

theorem yields_isRanked
    {store : Option Store}
    {limit : Nat}
    (hlimit : 2 * limit < 2 ^ 64)
    (field : String)
    (source : Option String) :
    Yields store (ofField field source limit) fun r => IsRanked r.suggestions := by
  refine Yields.bind Sampler.yields_collectionNames fun existing _ => ?_
  have hfound : ∀ c ∈ searched field existing,
      Yields store (do pure (Suggestion.ofFound c (← idsFrom field source limit c)))
        fun suggestions => ∀ s ∈ suggestions, s.IsGraded := by
    intro c _
    exact Yields.bind (yields_idsFrom_true hlimit field source c) fun ids _ =>
      yields_pure fun s hs => (Suggestion.isMarked_of_mem_ofFound hs).isGraded
  refine Yields.bind (yields_mapM _ hfound) fun found hgraded => yields_pure ?_
  have hall : ∀ suggestions ∈ found, ∀ s ∈ suggestions, s.IsGraded :=
    ((List.forall₂_and_left found _).mp (hgraded.flip.imp fun _ _ h => ⟨h, trivial⟩)).1
  refine isRanked_ranked (fun s hs => ?_) limit
  obtain ⟨suggestions, hmem, hs⟩ := List.mem_flatten.mp hs
  exact hall suggestions hmem s hs

end Resolution

namespace ForecastField

/-- Among the values of a field is an id. -/
def HasId (f : ForecastField) : Prop := ∃ v ∈ f.realValues, v.objectId?.isSome = true

theorem hasId_iff {f : ForecastField} :
    f.HasId ↔ (f.realValues.any fun v => v.objectId?.isSome) = true :=
  List.any_eq_true.symm

theorem HasId.looksLikeId {f : ForecastField} (h : f.HasId) : f.looksLikeId = true := by
  rw [ForecastField.looksLikeId, hasId_iff.1 h, Bool.or_true]

end ForecastField

namespace Forecast

/-- A field before and after ids were looked for, with the ids that were found. -/
structure GuardsIds (f : ForecastField) (found : List Suggestion) (g : ForecastField) : Prop where
  /-- The first id is the surest. -/
  le_best : ∀ best ∈ found.head?, ∀ s ∈ found, s.confidence ≤ best.confidence
  /-- Values are kept, or replaced by the ids, and an id among them only by surer ones. -/
  kept_or_replaced : g.realValues = f.realValues ∨
    ∃ best ∈ found.head?, f.looksLikeId = true ∧ g.realValues = found.map (fun s => .str s.id) ∧
      (f.HasId → f.confidence ≤ best.confidence)
  /-- A field with an id that is surer than all that were found stays as it is. -/
  eq_of_lt : f.HasId → (∀ best ∈ found.head?, best.confidence < f.confidence) → g = f
  /-- Values among which is no id give way to the ids that were found, whatever their confidence. -/
  replaced : ¬ f.HasId → f.looksLikeId = true → found ≠ [] →
    g.realValues = found.map fun s => .str s.id

theorem guardsIds_withSuggestions
    {f : ForecastField}
    {found : List Suggestion}
    (hf : f.confidence.isNaN = false)
    (hlooks : f.looksLikeId = true)
    (hfound : Resolution.IsRanked found) :
    GuardsIds f found (withSuggestions f found) := by
  cases found with
  | nil => exact ⟨hfound.le_head, .inl rfl, fun _ _ => rfl, fun _ _ h => absurd rfl h⟩
  | cons best rest =>
      cases hid : f.realValues.any fun v => v.objectId?.isSome with
      | false =>
          have hnone : ¬ f.HasId := by simp [ForecastField.hasId_iff, hid]
          have hg : (withSuggestions f (best :: rest)).realValues =
              (best :: rest).map fun s => .str s.id := by
            simp [withSuggestions, hid]
          exact ⟨hfound.le_head, .inr ⟨best, rfl, hlooks, hg, fun h => absurd h hnone⟩,
            fun h => absurd h hnone, fun _ _ _ => hg⟩
      | true =>
          have hsome : f.HasId := ForecastField.hasId_iff.2 hid
          by_cases hlt : best.confidence < f.confidence
          · have hg : withSuggestions f (best :: rest) = f := by simp [withSuggestions, hid, hlt]
            exact ⟨hfound.le_head, .inl (by rw [hg]), fun _ _ => hg, fun h => absurd hsome h⟩
          · have hg : (withSuggestions f (best :: rest)).realValues =
                (best :: rest).map fun s => .str s.id := by
              simp [withSuggestions, hid, hlt]
            have hbest := (hfound.isGraded best List.mem_cons_self).isNaN_eq
            have hle := Decimal.le_of_not_lt hbest hf hlt
            exact ⟨hfound.le_head, .inr ⟨best, rfl, hlooks, hg, fun _ => hle⟩,
              fun _ h => absurd (h best rfl) hlt, fun h => absurd hsome h⟩

section Steps

variable {store : Option Store} {verb : Verb} {model : List PredictedField}
variable {sample : CollectionSample} {options : ForecastOptions} {f : ForecastField}

/-- The fields of a merge before ids are looked for. -/
def unresolved (verb : Verb) (model : List PredictedField) (sample : CollectionSample)
    (options : ForecastOptions) : Session (List ForecastField) :=
  addModelFields verb sample options (sampleFields verb model sample options) model

/-- Looking for ids for a field after some queries makes another of it, and guards the ids that it
has. -/
def IsGuarded (store : Option Store) (source : Option String) (log : List Query)
    (f g : ForecastField) : Prop :=
  ∃ r, (outcome (Resolution.ofField f.base.name source maxSuggestions) store log).1 = some r ∧
    (outcome (resolveReference source f) store log).1 = some g ∧
    GuardsIds f r.suggestions g

theorem yields_isScored :
    Yields store (unresolved verb model sample options) fun fields =>
      ∀ f ∈ fields, f.IsScored := by
  refine yields_addModelFields ?_ model _ ?_
  · intro fields m values hfields _ _ _ f hf
    rcases List.mem_append.mp hf with hold | hadded
    · exact hfields f hold
    · rw [List.mem_singleton.mp hadded]
      exact ForecastField.isScored_ofModel m values
  · intro f hf
    obtain ⟨s, -, rfl⟩ := List.mem_map.mp (sampleFields_sublist.subset hf)
    exact ForecastField.isScored_ofSample _ _ _

theorem exists_isGuarded
    (hf : f.IsScored)
    (source : Option String)
    (log : List Query) :
    ∃ g, IsGuarded store source log f g := by
  have hfound : Yields store (Resolution.ofField f.base.name source maxSuggestions) fun r =>
      Resolution.IsRanked r.suggestions :=
    Resolution.yields_isRanked two_mul_maxSuggestions_lt f.base.name source
  obtain ⟨r, hr, hranked⟩ := hfound log
  obtain ⟨e, he⟩ := hf
  have hnumber : f.confidence.isNaN = false := he ▸ (Score.inRange_ofEvidence e).isNaN_eq
  unfold IsGuarded resolveReference
  split
  · rename_i hlooks
    rw [outcome_bind_of_some hr]
    exact ⟨_, r, hr, rfl, guardsIds_withSuggestions hnumber hlooks hranked⟩
  · rename_i hlooks
    exact ⟨f, r, hr, rfl, hranked.le_head, .inl rfl, fun h => absurd h.looksLikeId hlooks,
      fun _ h => absurd h hlooks⟩

/-- Ids are looked for in the order of the fields, for each of them after those before it. -/
theorem yields_isGuarded
    {fields : List ForecastField}
    (hfields : ∀ f ∈ fields, f.IsScored)
    (source : Option String) :
    Yields store (fields.mapM (resolveReference source)) fun merged =>
      List.Forall₂ (fun f g => ∃ log, IsGuarded store source log f g) fields merged := by
  refine yields_mapM fields fun f hf log => ?_
  obtain ⟨g, r, hr, hg, hguards⟩ := exists_isGuarded (hfields f hf) source log
  exact ⟨g, hg, log, r, hr, hg, hguards⟩

/-- Whatever the sample, the model, the options and the store, and whatever was asked before:
looking for ids for a field of the merge replaces an id among its values only where the surest of
the ids found is at least as sure as the field; a field without an id takes what ids there are.  The
fields of the merge are those before it in their order, each made into another one in this way. -/
theorem guardsIds_resolveReference
    (store : Option Store)
    (verb : Verb)
    (model : List PredictedField)
    (sample : CollectionSample)
    (options : ForecastOptions)
    (before : List Query) :
    ∃ fields, (outcome (unresolved verb model sample options) store before).1 = some fields ∧
      (∀ f ∈ fields, ∀ source log, ∃ g, IsGuarded store source log f g) ∧
      ∃ merged, (outcome (merge verb model sample options) store before).1 = some merged ∧
        List.Forall₂ (fun f g => ∃ log, IsGuarded store sample.collection log f g)
          fields merged := by
  have hscored : Yields store (unresolved verb model sample options) fun fields =>
      ∀ f ∈ fields, f.IsScored := yields_isScored
  obtain ⟨fields, hfields, hall⟩ := hscored before
  obtain ⟨merged, hmerged, hguarded⟩ := yields_isGuarded hall sample.collection
    (outcome (unresolved verb model sample options) store before).2
  refine ⟨fields, hfields, fun f hf => exists_isGuarded (hall f hf), merged, ?_, hguarded⟩
  unfold merge
  exact (congrArg Prod.fst (outcome_bind_of_some hfields _)).trans hmerged

end Steps

namespace Orders

/-- The id of the one customer. -/
def customer : String := "65a1b2c3d4e5f60718293a4b"

/-- An order that refers to a customer by some value. -/
def purchase (reference : Json) : Document := [("customerId", reference)]

/-- A store with the order and with one customer that it does not refer to. -/
def shop (reference : Json) : Store :=
  MemoryStore.store
    ⟨[("customers", [[("_id", .str customer)]]), ("orders", [purchase reference])]⟩ id fun _ => 0

/-- The order as a sample. -/
def purchases (reference : Json) : CollectionSample :=
  ⟨some "orders", 1.0, [purchase reference],
    FieldStatistics.describe [purchase reference] ["customers", "orders"]⟩

/-- The id of no customer. -/
def nobody : String := "65a1b2c3d4e5f60718293a01"

def references : List Json := [.int 42, .str nobody]

theorem outcome_bind_shop
    {α : Type}
    (reference : Json)
    (next : List String → Session α)
    (log : List Query) :
    outcome (Sampler.collectionNames >>= next) (some (shop reference)) log =
      outcome (next ["customers", "orders"]) (some (shop reference))
        (log ++ [.collectionNames]) := by
  have hkept : (["customers", "orders"].filter fun n => !n.startsWith "system.") =
      ["customers", "orders"] := by decide +kernel
  have hlive : MemoryStore.liveNames
      ⟨[("customers", [[("_id", .str customer)]]), ("orders", [purchase reference])]⟩ =
        ["customers", "orders"] :=
    MemoryStore.liveNames_eq hkept (by decide)
  have hnames := Sampler.outcome_collectionNames
    ⟨[("customers", [[("_id", .str customer)]]), ("orders", [purchase reference])]⟩ id
      (fun _ => 0) log
  rw [hlive] at hnames
  rw [shop, outcome_bind_of_some (congrArg Prod.fst hnames), hnames]

/-- What is found for the customer. -/
def found (reference : Json) : List Suggestion :=
  ((outcome (Resolution.ofField "customerId" (some "orders") maxSuggestions)
    (some (shop reference)) []).1.map Resolution.suggestions).getD []

theorem found_eq
    {reference : Json}
    {r : Resolution}
    (h : (outcome (Resolution.ofField "customerId" (some "orders") maxSuggestions)
      (some (shop reference)) []).1 = some r) :
    found reference = r.suggestions := by
  rw [found, h, Option.map_some, Option.getD_some]

/-- There is one id, and it is less sure than the field. -/
theorem exists_found
    {reference : Json}
    (h : reference ∈ references) :
    ∃ s : Suggestion, found reference = [s] ∧ s.id = customer ∧ s.confidence = 0.5 := by
  have hall : ∀ reference ∈ references,
      (found reference).map (fun s => (s.id, s.confidence)) = [(customer, 0.5)] := by
    unfold found Resolution.ofField
    simp only [outcome_bind_shop]
    decide +kernel
  obtain ⟨s, hs, hpair⟩ := List.map_eq_singleton_iff.mp (hall reference h)
  obtain ⟨hid, hconfidence⟩ := Prod.mk.inj hpair
  exact ⟨s, hs, hid, hconfidence⟩

/-- The fields of the merge before ids are looked for. -/
def fields (reference : Json) : List ForecastField :=
  (outcome (unresolved .put [] (purchases reference) options) (some (shop reference)) []).1.getD []

/-- There is a field for the customer, as sure as can be. -/
theorem exists_field
    {reference : Json}
    (h : reference ∈ references) :
    ∃ f ∈ fields reference, f.base.name = "customerId" ∧ f.confidence = 1.0 ∧
      f.realValues.map Json.objectId? = [reference.objectId?] := by
  have hall : ∀ reference ∈ references,
      (fields reference).map
        (fun f => (f.base.name, f.confidence, f.realValues.map Json.objectId?)) =
          [("customerId", 1.0, [reference.objectId?])] := by
    decide +kernel
  obtain ⟨f, hf, hshown⟩ := List.map_eq_singleton_iff.mp (hall reference h)
  obtain ⟨hname, hshown⟩ := Prod.mk.inj hshown
  obtain ⟨hconfidence, hvalues⟩ := Prod.mk.inj hshown
  exact ⟨f, hf ▸ List.mem_singleton_self f, hname, hconfidence, hvalues⟩

/-- The field has an id if the order refers by one. -/
theorem hasId_iff_of_map
    {f : ForecastField}
    {reference : Json}
    (h : f.realValues.map Json.objectId? = [reference.objectId?]) :
    f.HasId ↔ reference.objectId?.isSome = true := by
  have hsome : f.HasId ↔ ∃ o ∈ f.realValues.map Json.objectId?, o.isSome = true := by
    simp [ForecastField.HasId]
  rw [hsome, h]
  simp

theorem looksLikeId_of_name
    {f : ForecastField}
    (h : f.base.name = "customerId") :
    f.looksLikeId = true := by
  have hname : Text.occursIn "id" (Text.lower "customerId") = true := by decide +kernel
  rw [ForecastField.looksLikeId, h, hname, Bool.true_or, Bool.true_or]

/-- A field for the number has no id and takes that of the customer. -/
theorem number_gives_way
    {f g : ForecastField}
    (hname : f.base.name = "customerId")
    (hvalues : f.realValues.map Json.objectId? = [(Json.int 42).objectId?])
    (h : GuardsIds f (found (.int 42)) g) :
    ¬ f.HasId ∧ g.realValues = [.str customer] := by
  obtain ⟨s, hs, hcustomer, -⟩ := exists_found (List.mem_cons_self : Json.int 42 ∈ references)
  rw [hs] at h
  have hnone : ¬ f.HasId := by
    rw [hasId_iff_of_map hvalues]
    decide
  have hreplaced := h.replaced hnone (looksLikeId_of_name hname) (List.cons_ne_nil s [])
  rw [List.map_singleton, hcustomer] at hreplaced
  exact ⟨hnone, hreplaced⟩

/-- For the customer there is what is found. -/
theorem guardsIds_found
    {reference : Json}
    {f g : ForecastField}
    (hname : f.base.name = "customerId")
    (h : IsGuarded (some (shop reference)) (some "orders") [] f g) :
    (outcome (resolveReference (some "orders") f) (some (shop reference)) []).1 = some g ∧
      GuardsIds f (found reference) g := by
  obtain ⟨r, hr, hg, hguards⟩ := h
  rw [hname] at hr
  exact ⟨hg, found_eq hr ▸ hguards⟩

end Orders

/-- The id of no customer is kept, since the field is surer than the id found; the number gives way
all the same. -/
theorem guardsIds_orders :
    (∃ f ∈ Orders.fields (.str Orders.nobody), f.HasId ∧
      (outcome (resolveReference (some "orders") f)
        (some (Orders.shop (.str Orders.nobody))) []).1 = some f) ∧
    ∃ f ∈ Orders.fields (.int 42), ¬ f.HasId ∧
      ∃ g, (outcome (resolveReference (some "orders") f)
          (some (Orders.shop (.int 42))) []).1 = some g ∧
        g.realValues = [.str Orders.customer] := by
  have hguarded : ∀ reference, ∀ f ∈ Orders.fields reference,
      ∃ g, IsGuarded (some (Orders.shop reference)) (some "orders") [] f g := by
    intro reference f hf
    obtain ⟨fields, hfields, hguarded, -⟩ := guardsIds_resolveReference
      (some (Orders.shop reference)) .put [] (Orders.purchases reference) Orders.options []
    rw [Orders.fields, hfields, Option.getD_some] at hf
    exact hguarded f hf (some "orders") []
  constructor
  · have hmem : Json.str Orders.nobody ∈ Orders.references :=
      List.mem_cons_of_mem _ (List.mem_singleton_self _)
    obtain ⟨f, hf, hname, hconfidence, hvalues⟩ := Orders.exists_field hmem
    obtain ⟨s, hs, -, hless⟩ := Orders.exists_found hmem
    obtain ⟨g, hg⟩ := hguarded (.str Orders.nobody) f hf
    obtain ⟨hrun, hguards⟩ := Orders.guardsIds_found hname hg
    rw [hs] at hguards
    have hid : f.HasId := (Orders.hasId_iff_of_map hvalues).mpr (by decide +kernel)
    have hkept : g = f := by
      refine hguards.eq_of_lt hid fun best hbest => ?_
      obtain rfl : s = best := by simpa using hbest
      rw [hless, hconfidence]
      decide +kernel
    exact ⟨f, hf, hid, hkept ▸ hrun⟩
  · have hmem : Json.int 42 ∈ Orders.references := List.mem_cons_self
    obtain ⟨f, hf, hname, -, hvalues⟩ := Orders.exists_field hmem
    obtain ⟨g, hg⟩ := hguarded (.int 42) f hf
    obtain ⟨hrun, hguards⟩ := Orders.guardsIds_found hname hg
    obtain ⟨hnone, hreplaced⟩ := Orders.number_gives_way hname hvalues hguards
    exact ⟨f, hf, hnone, g, hrun, hreplaced⟩

/-- Looking for ids may replace the values of a field by ids that are less sure than the field. -/
theorem not_forall_le_confidence :
    ¬ ∀ (store : Store) (verb : Verb) (model : List PredictedField) (sample : CollectionSample)
        (options : ForecastOptions) (before log : List Query) (source : Option String)
        (fields : List ForecastField) (f g : ForecastField) (r : Resolution),
      (outcome (unresolved verb model sample options) (some store) before).1 = some fields →
      f ∈ fields →
      f.realValues ≠ [] →
      (outcome (resolveReference source f) (some store) log).1 = some g →
      (outcome (Resolution.ofField f.base.name source maxSuggestions) (some store) log).1 =
        some r →
      g.realValues ≠ f.realValues →
      ∃ best ∈ r.suggestions.head?, f.confidence ≤ best.confidence := by
  intro hall
  have hmem : Json.int 42 ∈ Orders.references := List.mem_cons_self
  obtain ⟨f, hf, hname, hconfidence, hvalues⟩ := Orders.exists_field hmem
  obtain ⟨s, hs, -, hless⟩ := Orders.exists_found hmem
  have hscored : Yields (some (Orders.shop (.int 42)))
      (unresolved .put [] (Orders.purchases (.int 42)) Orders.options) fun fields =>
        ∀ f ∈ fields, f.IsScored := yields_isScored
  obtain ⟨fields, hfields, hscored⟩ := hscored []
  rw [Orders.fields, hfields, Option.getD_some] at hf
  obtain ⟨g, r, hr, hg, hguards⟩ := exists_isGuarded (hscored f hf) (some "orders") []
  have hfound : Orders.found (.int 42) = r.suggestions := by
    rw [hname] at hr
    exact Orders.found_eq hr
  rw [← hfound] at hguards
  obtain ⟨hnone, hreplaced⟩ := Orders.number_gives_way hname hvalues hguards
  have hsome : f.realValues ≠ [] := by
    rintro hempty
    simp [hempty] at hvalues
  have hchanged : g.realValues ≠ f.realValues := by
    intro hsame
    refine hnone ⟨.str Orders.customer, ?_, by decide +kernel⟩
    rw [← hsame, hreplaced]
    exact List.mem_singleton_self _
  obtain ⟨best, hbest, hle⟩ := hall _ _ _ _ _ [] [] (some "orders") fields f g r hfields hf hsome
    hg hr hchanged
  rw [← hfound, hs] at hbest
  obtain rfl : s = best := by simpa using hbest
  rw [hless, hconfidence] at hle
  exact absurd hle (by decide +kernel)

end Forecast
end EndpointPayload
