import EndpointPayload.Proofs.Document.Labels
import EndpointPayload.Proofs.Document.Schema

/-!
# What the statistics of a field say

The walk that gathers values comes to the same paths as the walk of the schema.  So each described
field has values at its path, and its statistics are those of these values: the labels of the values
other than null, the least and the greatest of lengths and numbers, whether leaves repeat, and the
leaves themselves if they are few.  Leaves count as the same if their texts are.
-/

namespace EndpointPayload

section Best

variable {α : Type} {better : α → α → Prop} {items : List α} {best : α}

/-- One of some items, with no better one among them. -/
structure IsBest (better : α → α → Prop) (items : List α) (best : α) : Prop where
  mem : best ∈ items
  not_better : ∀ y ∈ items, ¬ better y best

/-- Of one more item and the best one so far, the better one is the best. -/
theorem IsBest.concat [DecidableRel better]
    (htrans : ∀ a b c, better a b → better b c → better a c)
    (hirrefl : ∀ a, ¬ better a a)
    (h : IsBest better items best)
    (x : α) :
    IsBest better (items ++ [x]) (if better x best then x else best) := by
  by_cases hx : better x best
  · rw [if_pos hx]
    refine ⟨by simp, fun y hy => ?_⟩
    rcases List.mem_append.mp hy with hold | hnew
    · exact fun hyx => h.not_better y hold (htrans y x best hyx hx)
    · rw [List.mem_singleton.mp hnew]
      exact hirrefl x
  · rw [if_neg hx]
    refine ⟨List.mem_append_left _ h.mem, fun y hy => ?_⟩
    rcases List.mem_append.mp hy with hold | hnew
    · exact h.not_better y hold
    · rw [List.mem_singleton.mp hnew]
      exact hx

theorem IsBest.foldl [DecidableRel better]
    (htrans : ∀ a b c, better a b → better b c → better a c)
    (hirrefl : ∀ a, ¬ better a a) :
    ∀ {items : List α} {best : α} (more : List α), IsBest better items best →
      IsBest better (items ++ more)
        (more.foldl (fun best x => if better x best then x else best) best)
  | items, best, [], h => by simpa using h
  | items, best, x :: more, h => by
      simpa using IsBest.foldl htrans hirrefl more (h.concat htrans hirrefl x)

/-- A run that starts with one item and goes through others ends with the best of them all. -/
theorem isBest_foldl
    (better : α → α → Prop)
    [DecidableRel better]
    (htrans : ∀ a b c, better a b → better b c → better a c)
    (hirrefl : ∀ a, ¬ better a a)
    (x : α)
    (rest : List α) :
    IsBest better (x :: rest)
      (rest.foldl (fun best y => if better y best then y else best) x) := by
  have hfirst : IsBest better [x] x := by
    refine ⟨List.mem_singleton_self x, fun y hy => ?_⟩
    rw [List.mem_singleton.mp hy]
    exact hirrefl x
  exact hfirst.foldl htrans hirrefl rest

end Best

namespace FieldStatistics

open Document (visits valuesAt fieldAt schema valuesByPath mem_valuesAt_iff)

section Numbers

variable {numbers : List Float} {x : Float}

theorem least?_eq_none_iff : least? numbers = none ↔ numbers = [] := by
  cases numbers <;> simp [least?]

theorem greatest?_eq_none_iff : greatest? numbers = none ↔ numbers = [] := by
  cases numbers <;> simp [greatest?]

theorem isBest_of_least? (h : least? numbers = some x) : IsBest (· < ·) numbers x := by
  cases numbers with
  | nil => cases h
  | cons y rest =>
      cases h
      exact isBest_foldl (· < ·) (fun _ _ _ => Decimal.lt_trans) Decimal.lt_irrefl y rest

theorem isBest_of_greatest? (h : greatest? numbers = some x) : IsBest (· > ·) numbers x := by
  cases numbers with
  | nil => cases h
  | cons y rest =>
      cases h
      exact isBest_foldl (· > ·) (fun _ _ _ hab hbc => Decimal.lt_trans hbc hab)
        Decimal.lt_irrefl y rest

end Numbers

section Distinct

variable {leaves listed : List Json}

/-- Each text of some leaves once, by the first leaf that has it and in the order of these. -/
structure ListsOnce (leaves listed : List Json) : Prop where
  nodup : (listed.map Json.text).Nodup
  mem_texts : ∀ s, s ∈ listed.map Json.text ↔ s ∈ leaves.map Json.text
  sublist : listed.Sublist leaves
  first : ∀ v ∈ listed, leaves.find? (fun w => w.text = v.text) = some v

theorem listsOnce_nil : ListsOnce [] [] where
  nodup := List.nodup_nil
  mem_texts _ := Iff.rfl
  sublist := List.Sublist.refl []
  first _ hv := absurd hv List.not_mem_nil

/-- One more leaf is listed if no listed one has its text. -/
theorem ListsOnce.concat (h : ListsOnce leaves listed) (v : Json) :
    ListsOnce (leaves ++ [v])
      (if listed.any fun k => k.text = v.text then listed else listed ++ [v]) := by
  have hkeep : ∀ w ∈ listed, (leaves ++ [v]).find? (fun u => u.text = w.text) = some w := by
    intro w hw
    rw [List.find?_append, h.first w hw, Option.some_or]
  have hany : (listed.any fun k => k.text = v.text) = true ↔ v.text ∈ listed.map Json.text := by
    simp
  by_cases hlisted : (listed.any fun k => k.text = v.text) = true
  · rw [if_pos hlisted]
    refine ⟨h.nodup, fun s => ?_, h.sublist.trans (List.sublist_append_left _ _), hkeep⟩
    have hold : v.text ∈ leaves.map Json.text := (h.mem_texts _).mp (hany.mp hlisted)
    rw [h.mem_texts, List.map_append, List.mem_append, List.map_singleton, List.mem_singleton]
    refine ⟨.inl, ?_⟩
    rintro (hs | rfl)
    · exact hs
    · exact hold
  · rw [if_neg hlisted]
    have hnew : v.text ∉ listed.map Json.text := fun hmem => hlisted (hany.mpr hmem)
    refine ⟨?_, fun s => ?_, h.sublist.append_right [v], fun w hw => ?_⟩
    · rw [List.map_append, List.map_singleton, ← List.concat_eq_append]
      exact h.nodup.concat hnew
    · simp only [List.map_append, List.mem_append, h.mem_texts]
    · rcases List.mem_append.mp hw with hold | hlast
      · exact hkeep w hold
      · obtain rfl : w = v := List.mem_singleton.mp hlast
        have hnone : leaves.find? (fun u => u.text = w.text) = none := by
          rw [List.find?_eq_none]
          intro u hu htext
          refine hnew ((h.mem_texts _).mpr ?_)
          exact List.mem_map.mpr ⟨u, hu, of_decide_eq_true htext⟩
        rw [List.find?_append, hnone, Option.none_or]
        simp

theorem listsOnce_distinctByText (leaves : List Json) :
    ListsOnce leaves (distinctByText leaves) := by
  induction leaves using List.reverseRecOn with
  | nil => exact listsOnce_nil
  | append_singleton before v ih =>
      rw [distinctByText, List.foldl_concat]
      exact ih.concat v

/-- As many leaves are listed as there are texts. -/
theorem ListsOnce.length_eq (h : ListsOnce leaves listed) :
    listed.length = (leaves.map Json.text).toFinset.card := by
  have hset : (listed.map Json.text).toFinset = (leaves.map Json.text).toFinset := by
    ext s
    rw [List.mem_toFinset, List.mem_toFinset, h.mem_texts]
  rw [← hset, List.toFinset_card_of_nodup h.nodup, List.length_map]

/-- All leaves are listed if and only if no text repeats. -/
theorem ListsOnce.length_eq_iff (h : ListsOnce leaves listed) :
    listed.length = leaves.length ↔ (leaves.map Json.text).Nodup := by
  constructor
  · intro hlength
    rw [← h.sublist.eq_of_length hlength]
    exact h.nodup
  · intro hnodup
    rw [h.length_eq, List.toFinset_card_of_nodup hnodup, List.length_map]

theorem one_le_card_texts_iff : 1 ≤ (leaves.map Json.text).toFinset.card ↔ leaves ≠ [] := by
  rw [Nat.one_le_iff_ne_zero, Ne, Finset.card_eq_zero]
  simp

end Distinct

section Types

variable {values : List Json}

/-- The types without null are those of the values other than null. -/
theorem filter_sorted_typeName :
    (Text.sorted (values.map Json.typeName)).filter (· ≠ "null") =
      Text.sorted ((values.filter fun v => !v.isNull).map Json.typeName) := by
  refine Text.eq_of_pairwise_lt ((Text.pairwise_lt_sorted _).filter _)
    (Text.pairwise_lt_sorted _) fun s => ?_
  rw [List.mem_filter, Text.mem_sorted, Text.mem_sorted, List.mem_map, List.mem_map]
  constructor
  · rintro ⟨⟨v, hv, rfl⟩, hlabel⟩
    refine ⟨v, List.mem_filter.mpr ⟨hv, ?_⟩, rfl⟩
    simpa [Json.typeName_eq_null_iff] using hlabel
  · rintro ⟨v, hv, rfl⟩
    obtain ⟨hmem, hnull⟩ := List.mem_filter.mp hv
    refine ⟨⟨v, hmem, rfl⟩, ?_⟩
    simpa [Json.typeName_eq_null_iff] using hnull

/-- Labels with bars between them are the label of null only if it is the only one. -/
theorem eq_of_intercalate_eq_null
    {labels : List String}
    (hne : labels ≠ [])
    (h : "|".intercalate labels = "null") :
    labels = ["null"] := by
  match labels, hne with
  | [label], _ =>
      rw [String.intercalate_singleton] at h
      rw [h]
  | label :: next :: rest, _ =>
      have hbar : '|' ∈ ("|".intercalate (label :: next :: rest)).toList := by
        rw [String.intercalate_cons_cons]
        simp
      rw [h] at hbar
      exact absurd hbar (by decide)

/-- The types of some values without null are none if and only if all values are null. -/
theorem filter_types_eq_nil_iff :
    (Text.sorted (values.map Json.typeName)).filter (· ≠ "null") = [] ↔
      ∀ v ∈ values, v.isNull = true := by
  simp [List.filter_eq_nil_iff, Json.typeName_eq_null_iff]

theorem joined_eq_null_iff
    {labels : List String}
    (hnull : "null" ∉ labels) :
    (if labels.isEmpty then "null" else "|".intercalate labels) = "null" ↔ labels = [] := by
  constructor
  · intro h
    by_contra hne
    rw [if_neg (by simpa using hne)] at h
    exact hnull (by simp [eq_of_intercalate_eq_null hne h])
  · rintro rfl
    rfl

end Types

/-- The leaves among some values, null aside. -/
def leavesOf (values : List Json) : List Json := values.filter fun v => !v.isNull && v.isLeaf

/-- What the type and the frequency of a field have to say about the values at its path. -/
structure HasTypesOf (values : List Json) (f : FieldStatistics) : Prop where
  type_eq_null_iff : f.type = "null" ↔ ∀ v ∈ values, v.isNull = true
  frequency_eq_zero_iff : f.frequency = 0.0 ↔ ∀ v ∈ values, v.isNull = true
  type_eq : (∃ v ∈ values, v.isNull = false) →
    f.type = "|".intercalate (Text.sorted ((values.filter fun v => !v.isNull).map Json.typeName))

/-- The least and the greatest length are those of the texts among the values. -/
structure HasLengthsOf (values : List Json) (f : FieldStatistics) : Prop where
  minLength_eq_some_iff : ∀ n,
    f.minLength = some n ↔ IsLeast {k | ∃ s, .str s ∈ values ∧ s.length = k} n
  minLength_eq_none_iff : f.minLength = none ↔ ∀ s, .str s ∉ values
  maxLength_eq_some_iff : ∀ n,
    f.maxLength = some n ↔ IsGreatest {k | ∃ s, .str s ∈ values ∧ s.length = k} n
  maxLength_eq_none_iff : f.maxLength = none ↔ ∀ s, .str s ∉ values

/-- The least and the greatest value are those of the numbers among the values, which are never NaN
in a document. -/
structure HasNumbersOf (values : List Json) (f : FieldStatistics) : Prop where
  minValue_eq_some : ∀ x, f.minValue = some x →
    (∃ v ∈ values, v.number? = some x) ∧
      ∀ v ∈ values, ∀ y, v.number? = some y → x.isNaN = false → y.isNaN = false → x ≤ y
  minValue_eq_none_iff : f.minValue = none ↔ ∀ v ∈ values, v.number? = none
  maxValue_eq_some : ∀ x, f.maxValue = some x →
    (∃ v ∈ values, v.number? = some x) ∧
      ∀ v ∈ values, ∀ y, v.number? = some y → x.isNaN = false → y.isNaN = false → y ≤ x
  maxValue_eq_none_iff : f.maxValue = none ↔ ∀ v ∈ values, v.number? = none

/-- Whether the leaves repeat, and which they are if there are few, with their texts for their
identity. -/
structure HasLeavesOf (values : List Json) (f : FieldStatistics) : Prop where
  isUnique_eq_none_iff : f.isUnique = none ↔ leavesOf values = []
  isUnique_eq_some : ∀ b, f.isUnique = some b →
    (b = true ↔ ((leavesOf values).map Json.text).Nodup)
  isSome_possibleValues_iff : f.possibleValues.isSome = true ↔
    ((leavesOf values).map Json.text).toFinset.card ∈ Set.Icc 1 10
  possibleValues_eq_some : ∀ listed, f.possibleValues = some listed →
    ListsOnce (leavesOf values) listed

/-- What the statistics of a field have to say about the values at its path. -/
structure Summarizes (values : List Json) (f : FieldStatistics) : Prop extends
  HasTypesOf values f, HasLengthsOf values f, HasNumbersOf values f, HasLeavesOf values f

section Lengths

variable {values : List Json}

/-- The lengths that are compared are those of the texts among the values. -/
theorem mem_lengths_iff {n : Nat} :
    n ∈ (values.filter fun v => !v.isNull).filterMap
        (fun v => v.str?.map fun s => s.toList.length) ↔
      ∃ s, Json.str s ∈ values ∧ s.length = n := by
  rw [List.mem_filterMap]
  constructor
  · rintro ⟨v, hv, hlength⟩
    cases v with
    | str s =>
        rw [Json.str?, Option.map_some, Option.some.injEq, String.length_toList] at hlength
        exact ⟨s, (List.mem_filter.mp hv).1, hlength⟩
    | _ => simp [Json.str?] at hlength
  · rintro ⟨s, hs, rfl⟩
    exact ⟨.str s, List.mem_filter.mpr ⟨hs, rfl⟩, by simp [Json.str?, String.length_toList]⟩

/-- There is nothing to compare if and only if there is no text among the values. -/
theorem lengths_eq_nil_iff :
    (values.filter fun v => !v.isNull).filterMap (fun v => v.str?.map fun s => s.toList.length) =
        [] ↔
      ∀ s, Json.str s ∉ values := by
  rw [List.eq_nil_iff_forall_not_mem]
  simp only [mem_lengths_iff]
  constructor
  · intro h s hs
    exact h s.length ⟨s, hs, rfl⟩
  · rintro h n ⟨s, hs, -⟩
    exact h s hs

theorem hasLengths_ofValues (field : SchemaField) (values : List Json) (existing : List String) :
    HasLengthsOf values (ofValues field values existing) where
  minLength_eq_some_iff n := by
    simp only [ofValues, List.min?_eq_some_iff, mem_lengths_iff]
    rfl
  minLength_eq_none_iff := by
    rw [← lengths_eq_nil_iff]
    exact List.min?_eq_none_iff
  maxLength_eq_some_iff n := by
    simp only [ofValues, List.max?_eq_some_iff, mem_lengths_iff]
    rfl
  maxLength_eq_none_iff := by
    rw [← lengths_eq_nil_iff]
    exact List.max?_eq_none_iff

end Lengths

section Values

variable {values : List Json}

/-- The numbers that are compared are those among the values. -/
theorem mem_numbers_iff {x : Float} :
    x ∈ (values.filter fun v => !v.isNull).filterMap Json.number? ↔
      ∃ v ∈ values, v.number? = some x := by
  rw [List.mem_filterMap]
  constructor
  · rintro ⟨v, hv, hnumber⟩
    exact ⟨v, (List.mem_filter.mp hv).1, hnumber⟩
  · rintro ⟨v, hv, hnumber⟩
    refine ⟨v, List.mem_filter.mpr ⟨hv, ?_⟩, hnumber⟩
    cases v with
    | null => cases hnumber
    | _ => rfl

theorem numbers_eq_nil_iff :
    (values.filter fun v => !v.isNull).filterMap Json.number? = [] ↔
      ∀ v ∈ values, v.number? = none := by
  rw [List.eq_nil_iff_forall_not_mem]
  simp only [mem_numbers_iff]
  constructor
  · intro h v hv
    rw [Option.eq_none_iff_forall_ne_some]
    exact fun x hx => h x ⟨v, hv, hx⟩
  · rintro h x ⟨v, hv, hx⟩
    rw [h v hv] at hx
    cases hx

theorem hasNumbers_ofValues (field : SchemaField) (values : List Json) (existing : List String) :
    HasNumbersOf values (ofValues field values existing) where
  minValue_eq_some x h := by
    have hbest := isBest_of_least? h
    refine ⟨mem_numbers_iff.mp hbest.mem, fun v hv y hy hx hy' => ?_⟩
    exact Decimal.le_of_not_lt hy' hx (hbest.not_better y (mem_numbers_iff.mpr ⟨v, hv, hy⟩))
  minValue_eq_none_iff := by
    rw [← numbers_eq_nil_iff]
    exact least?_eq_none_iff
  maxValue_eq_some x h := by
    have hbest := isBest_of_greatest? h
    refine ⟨mem_numbers_iff.mp hbest.mem, fun v hv y hy hx hy' => ?_⟩
    exact Decimal.le_of_not_lt hx hy' (hbest.not_better y (mem_numbers_iff.mpr ⟨v, hv, hy⟩))
  maxValue_eq_none_iff := by
    rw [← numbers_eq_nil_iff]
    exact greatest?_eq_none_iff

end Values

section Leaves

variable {values : List Json}

theorem filter_isLeaf_present :
    (values.filter fun v => !v.isNull).filter Json.isLeaf = leavesOf values := by
  rw [List.filter_filter, leavesOf]
  simp only [Bool.and_comm]

theorem hasLeaves_ofValues (field : SchemaField) (values : List Json) (existing : List String) :
    HasLeavesOf values (ofValues field values existing) where
  isUnique_eq_none_iff := by
    simp only [ofValues, filter_isLeaf_present]
    split
    case isTrue hnone => exact iff_of_true rfl (List.isEmpty_iff.mp hnone)
    case isFalse hsome => exact iff_of_false (by simp) (hsome ∘ List.isEmpty_iff.mpr)
  isUnique_eq_some b h := by
    simp only [ofValues, filter_isLeaf_present] at h
    split at h
    · cases h
    · cases h
      rw [decide_eq_true_iff]
      exact (listsOnce_distinctByText _).length_eq_iff
  isSome_possibleValues_iff := by
    simp only [ofValues, filter_isLeaf_present]
    rw [Set.mem_Icc, one_le_card_texts_iff, ← (listsOnce_distinctByText _).length_eq]
    split
    case isTrue hnone =>
        rw [Bool.or_eq_true, List.isEmpty_iff, decide_eq_true_iff] at hnone
        refine iff_of_false (by simp) fun h => ?_
        exact hnone.elim h.1 (Nat.not_lt.mpr h.2)
    case isFalse hsome =>
        rw [Bool.or_eq_true, List.isEmpty_iff, decide_eq_true_iff, not_or, Nat.not_lt] at hsome
        exact iff_of_true rfl hsome
  possibleValues_eq_some listed h := by
    simp only [ofValues, filter_isLeaf_present] at h
    split at h
    · cases h
    · cases h
      exact listsOnce_distinctByText _

end Leaves

section Paths

variable {path : String} {docs : List Document}

/-- A path has frequency zero if and only if all its values are null. -/
theorem frequency_fieldAt_eq_zero_iff (hlength : docs.length < 2 ^ 64) :
    (fieldAt docs path).frequency = 0.0 ↔ ∀ v ∈ valuesAt path docs, v.isNull = true := by
  constructor
  · intro hzero v hv
    obtain ⟨d, hd, hvisit⟩ := Document.mem_valuesAt.mp hv
    rw [← Bool.not_eq_false]
    intro hnull
    have hpos := Document.frequency_pos hlength hd hvisit hnull
    rw [hzero] at hpos
    exact Decimal.lt_irrefl _ hpos
  · intro hnull
    have hnone : docs.countP (Document.isPresentAt path) = 0 := by
      rw [List.countP_eq_zero]
      intro d hd hpresent
      obtain ⟨v, hvisit, hv⟩ := Document.isPresentAt_iff.mp hpresent
      rw [hnull v (Document.mem_valuesAt.mpr ⟨d, hd, hvisit⟩)] at hv
      cases hv
    simp only [fieldAt, hnone]
    exact Decimal.zero_share (by omega) (by omega)

theorem hasTypes_ofValues
    (hlength : docs.length < 2 ^ 64)
    (path : String)
    (existing : List String) :
    HasTypesOf (valuesAt path docs)
      (ofValues (fieldAt docs path) (valuesAt path docs) existing) where
  type_eq_null_iff := by
    rw [← filter_types_eq_nil_iff]
    exact joined_eq_null_iff (by simp)
  frequency_eq_zero_iff := frequency_fieldAt_eq_zero_iff hlength
  type_eq := by
    rintro ⟨v, hv, hnull⟩
    have hne : (Text.sorted ((valuesAt path docs).map Json.typeName)).filter (· ≠ "null") ≠ [] := by
      rw [Ne, filter_types_eq_nil_iff]
      intro hall
      rw [hall v hv] at hnull
      cases hnull
    rw [← filter_sorted_typeName]
    exact if_neg fun hempty => hne (List.isEmpty_iff.mp hempty)

/-- The statistics of a path over its values. -/
theorem summarizes_ofValues
    (hlength : docs.length < 2 ^ 64)
    (path : String)
    (existing : List String) :
    Summarizes (valuesAt path docs)
      (ofValues (fieldAt docs path) (valuesAt path docs) existing) where
  toHasTypesOf := hasTypes_ofValues hlength path existing
  toHasLengthsOf := hasLengths_ofValues _ _ existing
  toHasNumbersOf := hasNumbers_ofValues _ _ existing
  toHasLeavesOf := hasLeaves_ofValues _ _ existing

end Paths

/-- What the description of some documents has to say. -/
structure IsDescriptionOf (docs : List Document) (fields : List FieldStatistics) : Prop where
  /-- Both walks come to the same paths. -/
  mem_paths : ∀ path,
    path ∈ (valuesByPath docs).rows.map Prod.fst ↔ path ∈ (schema docs).map SchemaField.name
  names_eq : fields.map name = (schema docs).map SchemaField.name
  /-- The values gathered at a path are those that the documents reach, in the order of the walk. -/
  values_eq : ∀ f ∈ fields, (valuesByPath docs).get? f.name = some (valuesAt f.name docs)
  mem_values : ∀ path v, v ∈ valuesAt path docs ↔ ∃ d ∈ docs, d.Reaches path v
  summarizes : ∀ f ∈ fields, Summarizes (valuesAt f.name docs) f

/-- A path has values if and only if the schema has a field for it. -/
theorem isSome_get?_valuesByPath_iff
    {docs : List Document}
    {path : String} :
    ((valuesByPath docs).get? path).isSome = true ↔
      path ∈ (schema docs).map SchemaField.name := by
  rw [Document.mem_names_schema_iff, ← Document.mem_paths_iff_reaches, Document.mem_paths_iff,
    Document.get?_valuesByPath]
  split
  case isTrue hnone => simp [hnone]
  case isFalse hsome => simp [hsome]

/-- For all documents, the statistics describe the values at the paths of the schema. -/
theorem isDescriptionOf_describe
    (docs : List Document)
    (existing : List String)
    (hlength : docs.length < 2 ^ 64) :
    IsDescriptionOf docs (describe docs existing) where
  mem_paths path := by rw [Table.mem_keys, isSome_get?_valuesByPath_iff]
  names_eq := by
    rw [describe_eq, List.map_map]
    rfl
  values_eq f hf := by
    obtain ⟨p, hp, rfl⟩ := mem_describe.mp hf
    change (valuesByPath docs).get? p = some (valuesAt p docs)
    rw [Document.get?_valuesByPath, if_neg (Document.mem_paths_iff.mp hp)]
  mem_values _ _ := mem_valuesAt_iff
  summarizes f hf := by
    obtain ⟨p, -, rfl⟩ := mem_describe.mp hf
    exact summarizes_ofValues hlength p existing

/-- Two documents with a path inside an array, a null and a wrapper. -/
def stocked : List Document :=
  [[("lines", .arr [.obj [("sku", .str "A1")], .obj [("sku", .str "A1")], .null])],
    [("lines", .null), ("at", .obj [("$date", .int 0)])]]

theorem valuesAt_stocked : valuesAt "lines[].sku" stocked = [.str "A1", .str "A1"] := by cbv

/-- Two equal texts inside an array: the least length is theirs, and they are not unique. -/
theorem isDescriptionOf_stocked :
    stocked.length < 2 ^ 64 ∧
      IsDescriptionOf stocked (describe stocked ["lines"]) ∧
        ∃ f ∈ describe stocked ["lines"],
          f.name = "lines[].sku" ∧ f.minLength = some 2 ∧ f.isUnique = some false := by
  have hlength : stocked.length < 2 ^ 64 := by decide
  have h := isDescriptionOf_describe stocked ["lines"] hlength
  have hpath : "lines[].sku" ∈ (describe stocked ["lines"]).map name := by
    rw [h.names_eq, ← h.mem_paths]
    decide +kernel
  obtain ⟨f, hf, hname⟩ := List.mem_map.mp hpath
  have hvalues := h.summarizes f hf
  rw [hname, valuesAt_stocked] at hvalues
  refine ⟨hlength, h, f, hf, hname, (hvalues.minLength_eq_some_iff 2).mpr ?_, ?_⟩
  · refine ⟨⟨"A1", by simp, rfl⟩, ?_⟩
    rintro k ⟨s, hs, rfl⟩
    obtain rfl : s = "A1" := by simpa using hs
    decide
  · cases hunique : f.isUnique with
    | none =>
        have hleaves := hvalues.isUnique_eq_none_iff.mp hunique
        exact absurd hleaves (by simp [leavesOf, Json.isNull, Json.isLeaf])
    | some b =>
        cases b with
        | false => rfl
        | true =>
            have hnodup := (hvalues.isUnique_eq_some true hunique).mp rfl
            exact absurd hnodup (by decide +kernel)

end FieldStatistics
end EndpointPayload
