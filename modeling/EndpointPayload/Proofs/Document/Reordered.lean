import EndpointPayload.Proofs.Document.Statistics
import EndpointPayload.Proofs.Json.Same
import EndpointPayload.Proofs.Text.Repetitions

/-!
# Samples in another order

A sample may come in any order.  The walks then meet the same values at each path, in another order,
and what is counted, collected or compared over them does not depend on it: types, frequencies,
lengths, ranges, repetitions, and the texts of the listed values.  Fields are sorted by frequency
and path alone, so their order stays as well.  Only the examples are the first ones that the walk
meets: how many they are does not change, nor, where there is room for all, which.
-/

namespace EndpointPayload

namespace Json

/-- What is right below a proper value is proper. -/
theorem IsBelow.isProper
    {path next : String}
    {v w : Json}
    (h : IsBelow path v next w)
    (hv : v.IsProper) :
    w.IsProper := by
  cases h with
  | field _ hfield => exact (isProper_obj_iff.mp hv).2 _ hfield
  | item hitem => exact isProper_arr_iff.mp hv _ hitem

theorem Leads.isProper
    {n : Nat}
    {path last : String}
    {v w : Json}
    (h : Leads n path v last w)
    (hv : v.IsProper) :
    w.IsProper := by
  induction h with
  | here => exact hv
  | step hbelow _ ih => exact ih (hbelow.isProper hv)

end Json

namespace Document

variable {docs others : List Document} {path : String} {v : Json}

theorem isProper_of_mem_valuesAt
    (hproper : ∀ d ∈ docs, (Json.obj d).IsProper)
    (hv : v ∈ valuesAt path docs) :
    v.IsProper := by
  obtain ⟨d, hd, f, hf, n, -, hleads⟩ := mem_valuesAt_iff.mp hv
  exact hleads.isProper ((Json.isProper_obj_iff.mp (hproper d hd)).2 f hf)

section Order

variable (h : docs.Perm others)
include h

theorem valuesAt_perm : (valuesAt path docs).Perm (valuesAt path others) :=
  (h.flatMap fun _ _ => .refl _).filterMap _

theorem paths_eq_of_perm : paths docs = paths others :=
  Text.sorted_eq_of_mem_iff fun _ => ((h.flatMap fun _ _ => .refl _).map _).mem_iff

theorem types_fieldAt_of_perm : (fieldAt docs path).types = (fieldAt others path).types :=
  Text.sorted_eq_of_mem_iff fun _ => ((valuesAt_perm h).map _).mem_iff

theorem frequency_fieldAt_of_perm :
    (fieldAt docs path).frequency = (fieldAt others path).frequency := by
  simp only [fieldAt, h.countP_eq, h.length_eq]

/-- Both samples have the fields of the same paths in the same order. -/
theorem exists_schema_eq_map :
    ∃ order : List String,
      schema docs = order.map (fieldAt docs) ∧ schema others = order.map (fieldAt others) := by
  refine ⟨(paths docs).mergeSort fun p q =>
    Decimal.descending (fieldAt docs p).frequency (fieldAt docs q).frequency, ?_, ?_⟩
  · rw [schema_eq]
    refine (List.map_mergeSort fun _ _ _ _ => ?_).symm
    rfl
  · rw [schema_eq, ← paths_eq_of_perm h]
    refine (List.map_mergeSort fun p _ q _ => ?_).symm
    rw [frequency_fieldAt_of_perm h, frequency_fieldAt_of_perm h]

end Order

end Document

namespace FieldStatistics

open Document (schema valuesAt fieldAt valuesAt_perm)

/-- What the statistics of a path say of the same values in two orders.  Of the values listed and
of the examples only the order may differ, and where there are more leaves than examples, the choice
of these. -/
structure AgreesOn (values : List Json) (f g : FieldStatistics) : Prop where
  name_eq : f.name = g.name
  type_eq : f.type = g.type
  frequency_eq : f.frequency = g.frequency
  isRequired_eq : f.isRequired = g.isRequired
  minLength_eq : f.minLength = g.minLength
  maxLength_eq : f.maxLength = g.maxLength
  /-- The ranges are equal as numbers, to which the sign of a zero does not matter. -/
  minValue_eq : Option.Rel (fun x y => (x == y) = true) f.minValue g.minValue
  maxValue_eq : Option.Rel (fun x y => (x == y) = true) f.maxValue g.maxValue
  isUnique_eq : f.isUnique = g.isUnique
  relation_eq : f.relation = g.relation
  possibleValues_perm :
    Option.Rel (fun vs ws => (vs.map Json.text).Perm (ws.map Json.text))
      f.possibleValues g.possibleValues
  length_examples : f.examples.length = g.examples.length
  exists_example : (leavesOf values).eraseDups.length ≤ 3 →
    ∀ v ∈ f.examples, ∃ w ∈ g.examples, (v == w) = true

section Values

variable {values others : List Json} {numbers numbers' : List Float}

theorem rel_of_isBest
    {better : Float → Float → Prop}
    {best best' : Option Float}
    (hnone : best = none ↔ numbers = [])
    (hnone' : best' = none ↔ numbers' = [])
    (hbest : ∀ x, best = some x → IsBest better numbers x)
    (hbest' : ∀ x, best' = some x → IsBest better numbers' x)
    (h : numbers.Perm numbers')
    (hbeq : ∀ x ∈ numbers, ∀ y ∈ numbers, ¬ better x y → ¬ better y x → (x == y) = true) :
    Option.Rel (fun x y => (x == y) = true) best best' := by
  cases best with
  | none =>
      have hnil : numbers' = [] := List.perm_nil.mp ((hnone.mp rfl) ▸ h.symm)
      rw [hnone'.mpr hnil]
      exact .none
  | some x =>
      cases best' with
      | none =>
          have hnil : numbers = [] := List.perm_nil.mp ((hnone'.mp rfl) ▸ h)
          exact absurd (hnone.mpr hnil) (by simp)
      | some y =>
          have hx := hbest x rfl
          have hy := hbest' y rfl
          have hmem := h.mem_iff.mpr hy.mem
          refine .some (hbeq x hx.mem y hmem ?_ (hx.not_better y hmem))
          exact hy.not_better x (h.mem_iff.mp hx.mem)

theorem beq_of_mem_numbers
    (hproper : ∀ v ∈ values, v.IsProper)
    {x y : Float}
    (hx : x ∈ (values.filter fun v => !v.isNull).filterMap Json.number?)
    (hy : y ∈ (values.filter fun v => !v.isNull).filterMap Json.number?)
    (hxy : ¬ x < y)
    (hyx : ¬ y < x) :
    (x == y) = true := by
  obtain ⟨v, hv, hvx⟩ := mem_numbers_iff.mp hx
  obtain ⟨w, hw, hwy⟩ := mem_numbers_iff.mp hy
  exact Decimal.beq_of_not_lt ((hproper v hv).isNaN_number hvx) ((hproper w hw).isNaN_number hwy)
    hxy hyx

theorem rel_minValue
    (h : values.Perm others)
    (hproper : ∀ v ∈ values, v.IsProper)
    (f g : SchemaField)
    (existing : List String) :
    Option.Rel (fun x y => (x == y) = true)
      (ofValues f values existing).minValue (ofValues g others existing).minValue :=
  rel_of_isBest least?_eq_none_iff least?_eq_none_iff (fun _ => isBest_of_least?)
    (fun _ => isBest_of_least?) ((h.filter _).filterMap _)
    fun _ hx _ hy hxy hyx => beq_of_mem_numbers hproper hx hy hxy hyx

theorem rel_maxValue
    (h : values.Perm others)
    (hproper : ∀ v ∈ values, v.IsProper)
    (f g : SchemaField)
    (existing : List String) :
    Option.Rel (fun x y => (x == y) = true)
      (ofValues f values existing).maxValue (ofValues g others existing).maxValue :=
  rel_of_isBest greatest?_eq_none_iff greatest?_eq_none_iff (fun _ => isBest_of_greatest?)
    (fun _ => isBest_of_greatest?) ((h.filter _).filterMap _)
    fun _ hx _ hy hxy hyx => beq_of_mem_numbers hproper hx hy hyx hxy

theorem leavesOf_perm (h : values.Perm others) : (leavesOf values).Perm (leavesOf others) :=
  h.filter _

/-- Leaves in another order have as many texts. -/
theorem length_distinctByText_of_perm
    (h : values.Perm others) :
    (distinctByText (leavesOf values)).length = (distinctByText (leavesOf others)).length := by
  rw [(listsOnce_distinctByText _).length_eq, (listsOnce_distinctByText _).length_eq,
    List.toFinset_eq_of_perm _ _ ((leavesOf_perm h).map _)]

theorem isUnique_of_perm
    (h : values.Perm others)
    (f g : SchemaField)
    (existing : List String) :
    (ofValues f values existing).isUnique = (ofValues g others existing).isUnique := by
  simp only [ofValues, filter_isLeaf_present, (leavesOf_perm h).isEmpty_eq,
    (leavesOf_perm h).length_eq, length_distinctByText_of_perm h]

/-- The listed values have the same texts. -/
theorem rel_possibleValues
    (h : values.Perm others)
    (f g : SchemaField)
    (existing : List String) :
    Option.Rel (fun vs ws => (vs.map Json.text).Perm (ws.map Json.text))
      (ofValues f values existing).possibleValues
      (ofValues g others existing).possibleValues := by
  have hlists := listsOnce_distinctByText (leavesOf values)
  have hlists' := listsOnce_distinctByText (leavesOf others)
  have htexts : ((distinctByText (leavesOf values)).map Json.text).Perm
      ((distinctByText (leavesOf others)).map Json.text) := by
    refine (List.perm_ext_iff_of_nodup hlists.nodup hlists'.nodup).mpr fun s => ?_
    rw [hlists.mem_texts, hlists'.mem_texts, ((leavesOf_perm h).map _).mem_iff]
  simp only [ofValues, filter_isLeaf_present, (leavesOf_perm h).isEmpty_eq,
    length_distinctByText_of_perm h]
  split
  · exact .none
  · exact .some htexts

/-- The lengths that are compared are those of the same texts. -/
theorem lengths_eq_of_perm
    (h : values.Perm others)
    (f g : SchemaField)
    (existing : List String) :
    (ofValues f values existing).minLength = (ofValues g others existing).minLength ∧
      (ofValues f values existing).maxLength = (ofValues g others existing).maxLength := by
  have hlengths := hasLengths_ofValues f values existing
  have hlengths' := hasLengths_ofValues g others existing
  have hset : {k | ∃ s, Json.str s ∈ values ∧ s.length = k} =
      {k | ∃ s, Json.str s ∈ others ∧ s.length = k} := by
    simp only [h.mem_iff]
  refine ⟨Option.ext fun n => ?_, Option.ext fun n => ?_⟩
  · rw [hlengths.minLength_eq_some_iff, hlengths'.minLength_eq_some_iff, hset]
  · rw [hlengths.maxLength_eq_some_iff, hlengths'.maxLength_eq_some_iff, hset]

end Values

section Examples

variable {values others : List Json}

theorem length_eraseDups_leaves
    (h : values.Perm others)
    (hproper : ∀ v ∈ values, v.IsProper) :
    (leavesOf values).eraseDups.length = (leavesOf others).eraseDups.length := by
  have hleaf : ∀ v ∈ leavesOf values, v.IsProper := fun v hv => hproper v (List.mem_filter.mp hv).1
  refine length_eraseDups_of_perm (leavesOf_perm h) (fun v hv => (hleaf v hv).same_self)
    (fun v hv w hw => ?_) fun _ _ _ => Json.same_trans
  exact Json.same_symm (hleaf v hv).isKeyed (hleaf w hw).isKeyed

/-- Where there is room for all leaves, each example of the one order has an equal one of the
other. -/
theorem exists_example_of_perm
    (h : values.Perm others)
    (hproper : ∀ v ∈ values, v.IsProper)
    (hroom : (leavesOf values).eraseDups.length ≤ Document.maxExamples)
    {v : Json}
    (hv : v ∈ (leavesOf values).eraseDups.take Document.maxExamples) :
    ∃ w ∈ (leavesOf others).eraseDups.take Document.maxExamples, (v == w) = true := by
  have hkept : Represents (leavesOf others).eraseDups (leavesOf others) :=
    represents_eraseDups fun w hw =>
      (hproper w (h.mem_iff.mpr (List.mem_filter.mp hw).1)).same_self
  rw [List.take_of_length_le (length_eraseDups_leaves h hproper ▸ hroom)]
  refine hkept.exists_beq v ((leavesOf_perm h).mem_iff.mp ?_)
  exact (eraseDups_sublist _).mem (List.mem_of_mem_take hv)

end Examples

variable {docs others : List Document}

/-- The statistics of a path over the same documents in two orders. -/
theorem agreesOn_ofValues
    (h : docs.Perm others)
    (hproper : ∀ d ∈ docs, (Json.obj d).IsProper)
    (path : String)
    (existing : List String) :
    AgreesOn (valuesAt path docs)
      (ofValues (fieldAt docs path) (valuesAt path docs) existing)
      (ofValues (fieldAt others path) (valuesAt path others) existing) := by
  have hvalues : (valuesAt path docs).Perm (valuesAt path others) := valuesAt_perm h
  have hproperValues : ∀ v ∈ valuesAt path docs, v.IsProper :=
    fun v => Document.isProper_of_mem_valuesAt hproper
  have htypes : (fieldAt docs path).types = (fieldAt others path).types :=
    Document.types_fieldAt_of_perm h
  have hfrequency : (fieldAt docs path).frequency = (fieldAt others path).frequency :=
    Document.frequency_fieldAt_of_perm h
  obtain ⟨hmin, hmax⟩ :=
    lengths_eq_of_perm hvalues (fieldAt docs path) (fieldAt others path) existing
  exact {
    name_eq := rfl
    type_eq := by simp only [ofValues, htypes]
    frequency_eq := hfrequency
    isRequired_eq := by simp only [ofValues, hfrequency]
    minLength_eq := hmin
    maxLength_eq := hmax
    minValue_eq := rel_minValue hvalues hproperValues _ _ existing
    maxValue_eq := rel_maxValue hvalues hproperValues _ _ existing
    isUnique_eq := isUnique_of_perm hvalues _ _ existing
    relation_eq := rfl
    possibleValues_perm := rel_possibleValues hvalues _ _ existing
    length_examples := by
      change ((leavesOf (valuesAt path docs)).eraseDups.take _).length =
        ((leavesOf (valuesAt path others)).eraseDups.take _).length
      rw [List.length_take, List.length_take, length_eraseDups_leaves hvalues hproperValues]
    exists_example := fun hroom _ hv => exists_example_of_perm hvalues hproperValues hroom hv }

/-- For all documents and every order of them, the schema has the same names, types and frequencies
in the same order, and the statistics agree field by field. -/
theorem agreesOn_describe
    (h : docs.Perm others)
    (hproper : ∀ d ∈ docs, (Json.obj d).IsProper)
    (existing : List String) :
    ((schema docs).map fun f => (f.name, f.types, f.frequency)) =
        ((schema others).map fun f => (f.name, f.types, f.frequency)) ∧
      List.Forall₂ (fun f g => AgreesOn (valuesAt f.name docs) f g)
        (describe docs existing) (describe others existing) := by
  obtain ⟨order, hdocs, hothers⟩ := Document.exists_schema_eq_map h
  constructor
  · rw [hdocs, hothers, List.map_map, List.map_map]
    refine List.map_congr_left fun path _ => ?_
    simp only [Function.comp_apply, Document.types_fieldAt_of_perm h,
      Document.frequency_fieldAt_of_perm h]
    rfl
  · rw [describe_eq, describe_eq, hdocs, hothers, List.map_map, List.map_map,
      List.forall₂_map_left_iff, List.forall₂_map_right_iff, List.forall₂_same]
    exact fun path _ => agreesOn_ofValues h hproper path existing

/-- Two readings of a level, both zero but for the sign, and one of them with its station. -/
def readings : List Document :=
  [[("level", .float 0.0), ("station", .obj [("name", .str "north")])], [("level", .float (-0.0))]]

theorem isProper_readings : ∀ d ∈ readings, (Json.obj d).IsProper := by
  have hlevel : ∀ x ∈ [(0.0 : Float), -0.0], (Json.float x).IsProper := by
    intro x hx
    refine (Json.isProper_iff_of_isScalar (v := .float x) trivial).mpr ?_
    revert x
    exact (by decide +kernel : ∀ x ∈ [(0.0 : Float), -0.0], x.isNaN = false)
  have hname : (Json.str "north").IsProper :=
    (Json.isProper_iff_of_isScalar (v := .str "north") trivial).mpr trivial
  simp only [readings, List.forall_mem_cons, Json.isProper_obj_iff]
  simp [hlevel, hname]

/-- The readings in the other order: the field of the level agrees. -/
theorem agreesOn_readings :
    readings.Perm readings.reverse ∧ (∀ d ∈ readings, (Json.obj d).IsProper) ∧
      ((schema readings).map fun f => (f.name, f.types, f.frequency)) =
        ((schema readings.reverse).map fun f => (f.name, f.types, f.frequency)) ∧
      List.Forall₂ (fun f g => AgreesOn (valuesAt f.name readings) f g)
        (describe readings ["stations"]) (describe readings.reverse ["stations"]) := by
  have hperm : readings.Perm readings.reverse := (List.reverse_perm readings).symm
  exact ⟨hperm, isProper_readings, agreesOn_describe hperm isProper_readings ["stations"]⟩

end FieldStatistics

end EndpointPayload
