import EndpointPayload.Document.Schema
import EndpointPayload.Document.Statistics
import EndpointPayload.Proofs.Document.TopLevel
import EndpointPayload.Store.Suggestion

/-!
# Relations and the collections searched for them

The relation of a field names the first collection of the store that is called like the thing the
field refers to.  For its ids the usual names of references go first: a field that is one of them
is searched in the collections of its row, and only where the row has none by the thing.  So the
target of a relation is searched unless a row says otherwise.
-/

namespace EndpointPayload

namespace Reference

variable {a b c name field target : String} {existing : List String}

theorem sameName_iff : sameName a b = true ↔ Text.lower a = Text.lower b := decide_eq_true_iff

theorem sameName_congr (h : sameName a b = true) : sameName a c = sameName b c := by
  rw [sameName, sameName, sameName_iff.1 h]

/-- Whether a collection is called like a thing, in the plural or in the singular. -/
def isCollectionOf (stem collection : String) : Bool :=
  sameName collection (Inflection.plural (Inflection.singular stem)) ||
    sameName collection (Inflection.singular stem)

/-- The first collection of a thing is the first one of its name. -/
theorem find?_sameName
    {stem : String}
    (hfirst : existing.find? (isCollectionOf stem) = some target)
    (h : sameName target c = true) :
    existing.find? (fun e => sameName e c) = some target := by
  obtain ⟨htarget, front, back, rfl, hfront⟩ := List.find?_eq_some_iff_append.mp hfirst
  refine List.find?_eq_some_iff_append.mpr ⟨h, front, back, rfl, fun e he => ?_⟩
  rw [Bool.not_eq_true', Bool.eq_false_iff]
  intro hsame
  have hlike : sameName e target = true := by
    rw [sameName_iff, sameName_iff.1 hsame, sameName_iff.1 h]
  have hother := hfront e he
  rw [isCollectionOf, sameName_congr hlike, sameName_congr hlike, ← isCollectionOf,
    htarget] at hother
  cases hother

theorem exists_collectionNames
    {stem : String}
    (h : isCollectionOf stem target = true) :
    ∃ c ∈ collectionNames stem, sameName target c = true := by
  have hboth : Inflection.plural (Inflection.singular stem) ∈ collectionNames stem ∧
      Inflection.singular stem ∈ collectionNames stem := by
    rw [collectionNames]
    split <;> simp
  rcases Bool.or_eq_true_iff.mp h with hplural | hsingular
  · exact ⟨_, hboth.1, hplural⟩
  · exact ⟨_, hboth.2, hsingular⟩

/-- A field is searched in a collection, if a row of the usual names does not say otherwise. -/
def IsListed (name target : String) : Prop :=
  ∀ row ∈ knownFields, row.1 = name → row.2 ≠ [] → ∃ c ∈ row.2, sameName target c = true

theorem nodup_knownFields : (knownFields.map Prod.fst).Nodup := by decide

/-- The row of a usual name is the only one. -/
theorem find?_knownFields_iff
    {row : String × List String} :
    knownFields.find? (fun k => k.1 = name) = some row ↔ row ∈ knownFields ∧ row.1 = name := by
  constructor
  · intro h
    exact ⟨List.mem_of_find?_eq_some h, by simpa using List.find?_some h⟩
  · rintro ⟨hrow, rfl⟩
    cases h : knownFields.find? (fun k => k.1 = row.1) with
    | none =>
        simpa using List.find?_eq_none.mp h row hrow
    | some found =>
        have hsame : found.1 = row.1 := by simpa using List.find?_some h
        rw [List.inj_on_of_nodup_map nodup_knownFields (List.mem_of_find?_eq_some h) hrow hsame]

theorem candidates_of_row
    {row : String × List String}
    (hrow : row ∈ knownFields)
    (hname : row.1 = lastKey field)
    (hne : row.2 ≠ []) :
    candidates field = row.2 := by
  rw [candidates, find?_knownFields_iff.2 ⟨hrow, hname⟩]
  obtain ⟨key, names⟩ := row
  cases names with
  | nil =>
      exact absurd rfl hne
  | cons c cs =>
      rfl

theorem candidates_of_stem
    (h : ∀ row ∈ knownFields, row.1 = lastKey field → row.2 = []) :
    candidates field = ((stem? (lastKey field)).map collectionNames).getD [] := by
  rw [candidates]
  cases hfind : knownFields.find? (fun k => k.1 = lastKey field) with
  | none =>
      rfl
  | some row =>
      obtain ⟨hrow, hname⟩ := find?_knownFields_iff.1 hfind
      obtain ⟨key, names⟩ := row
      obtain rfl : names = [] := h (key, names) hrow hname
      rfl

/-- A name with brackets at its end refers to nothing. -/
theorem candidates_eq_nil_of_bracket
    (h : (lastKey field).toList.getLast? = some ']') :
    candidates field = [] := by
  have hrow : ∀ row ∈ knownFields, row.1.toList.getLast? ≠ some ']' := by decide
  have hending : ∀ e ∈ endings, e.toList.getLast? ≠ some ']' ∧ e.toList ≠ [] := by decide
  have hstem : stem? (lastKey field) = none := by
    refine List.findSome?_eq_none_iff.mpr fun e he => ?_
    rw [stemBefore?, if_neg]
    intro hsuffix
    obtain ⟨front, hfront⟩ := List.isSuffixOf_iff_suffix.mp hsuffix
    rw [← hfront, List.getLast?_append_of_ne_nil _ (hending e he).2] at h
    exact (hending e he).1 h
  rw [candidates_of_stem fun row hmem hname => absurd (hname ▸ h) (hrow row hmem), hstem]
  rfl

end Reference

namespace Relation

open Reference

variable {field target : String} {existing : List String}

/-- A name changes by the brackets at its end alone. -/
theorem fieldName_eq_or (field : String) :
    fieldName field = lastKey field ∨ ['[', ']'] <:+ (lastKey field).toList := by
  rw [fieldName]
  generalize hreverse : (lastKey field).toList.reverse = cs
  rw [dropBrackets.eq_def]
  split
  · rename_i rest
    refine Or.inr ⟨rest.reverse, ?_⟩
    rw [← List.reverse_reverse (lastKey field).toList, hreverse]
    simp
  · left
    rw [← hreverse, List.reverse_reverse, String.ofList_toList]

theorem lastKey_of_isTopLevelName
    (h : SchemaField.isTopLevelName field = true) :
    lastKey field = field := by
  rw [lastKey, Text.split_of_not_mem (SchemaField.point_not_mem h)]
  rfl

/-- The keys of the document itself are no paths. -/
theorem fieldName_of_isTopLevelName
    (h : SchemaField.isTopLevelName field = true) :
    fieldName field = lastKey field := by
  rcases fieldName_eq_or field with heq | ⟨front, hfront⟩
  · exact heq
  · rw [lastKey_of_isTopLevelName h] at hfront
    have hnot := SchemaField.not_isTopLevelName_of_brackets (String.ofList front)
    have hname : String.ofList front ++ "[]" = field := by
      have hbrackets : "[]".toList = ['[', ']'] := by decide
      rw [← String.toList_inj, String.toList_append, String.toList_ofList, hbrackets, hfront]
    rw [hname, h] at hnot
    cases hnot

theorem ofField?_of_find?
    (stem : String)
    (hid : (fieldName field = "_id" || !Text.occursIn "id" (Text.lower (fieldName field))) = false)
    (hstem : stem? (fieldName field) = some stem)
    (hfind : existing.find? (isCollectionOf stem) = some target) :
    ofField? field existing = some ⟨some target, 0.8⟩ := by
  have hnamed : (existing.find? fun c =>
      sameName c (Inflection.plural (Inflection.singular stem)) ||
        sameName c (Inflection.singular stem)) = some target := hfind
  simp only [ofField?, hid, hstem, hnamed]
  rfl

/-- A relation whose target is in the store. -/
theorem exists_of_ofField?
    (h : ofField? field existing = some ⟨some target, 0.8⟩) :
    ∃ stem, stem? (fieldName field) = some stem ∧
      existing.find? (isCollectionOf stem) = some target := by
  have hdifferent : (0.4 : Float) ≠ 0.8 := by decide
  rw [ofField?] at h
  dsimp only at h
  split at h
  · cases h
  split at h
  · cases h
  · rename_i stem hstem
    split at h
    · rename_i found hfound
      cases h
      exact ⟨stem, hstem, hfound⟩
    · injection h with h
      injection h with _ h
      exact absurd h hdifferent

end Relation

namespace Resolution

open Reference

variable {field target : String} {existing : List String}

theorem mem_searched :
    target ∈ searched field existing ↔
      ∃ c ∈ candidates field, existing.find? (fun e => sameName e c) = some target := by
  rw [searched, List.mem_eraseDups, List.mem_filterMap]

/-- The target of a relation is searched, if it is like some candidate. -/
theorem mem_searched_of_first
    {stem : String}
    (hfirst : existing.find? (isCollectionOf stem) = some target) :
    target ∈ searched field existing ↔ ∃ c ∈ candidates field, sameName target c = true := by
  rw [mem_searched]
  constructor
  · rintro ⟨c, hc, hfind⟩
    exact ⟨c, hc, by simpa using List.find?_some hfind⟩
  · rintro ⟨c, hc, hsame⟩
    exact ⟨c, hc, find?_sameName hfirst hsame⟩

theorem exists_candidate_iff
    {stem : String}
    (hstem : stem? (lastKey field) = some stem)
    (hlike : isCollectionOf stem target = true) :
    (∃ c ∈ candidates field, sameName target c = true) ↔ IsListed (lastKey field) target := by
  by_cases hrow : ∃ row ∈ knownFields, row.1 = lastKey field ∧ row.2 ≠ []
  · obtain ⟨row, hmem, hname, hne⟩ := hrow
    rw [candidates_of_row hmem hname hne]
    constructor
    · intro h other hother hsame hsome
      have hfind := find?_knownFields_iff.2 ⟨hmem, hname⟩
      rw [find?_knownFields_iff.2 ⟨hother, hsame⟩] at hfind
      rwa [Option.some.inj hfind]
    · intro h
      exact h row hmem hname hne
  · have hnone : ∀ row ∈ knownFields, row.1 = lastKey field → row.2 = [] := by
      intro row hmem hname
      by_contra hne
      exact hrow ⟨row, hmem, hname, hne⟩
    constructor
    · intro _ row hmem hname hne
      exact absurd (hnone row hmem hname) hne
    · intro _
      rw [candidates_of_stem hnone, hstem, Option.map_some, Option.getD_some]
      exact exists_collectionNames hlike

/-- A relation to a collection of the store is searched for ids there, if its name has no brackets
at its end and its row of the usual names, where there is one, lists the collection.  Keys of the
document itself have no such brackets. -/
theorem mem_searched_iff
    (h : Relation.ofField? field existing = some ⟨some target, 0.8⟩) :
    (target ∈ searched field existing ↔
      Relation.fieldName field = lastKey field ∧ IsListed (lastKey field) target) ∧
    (SchemaField.isTopLevelName field = true →
      Relation.fieldName field = lastKey field ∧ lastKey field = field) := by
  refine ⟨?_, fun htop =>
    ⟨Relation.fieldName_of_isTopLevelName htop, Relation.lastKey_of_isTopLevelName htop⟩⟩
  obtain ⟨stem, hstem, hfirst⟩ := Relation.exists_of_ofField? h
  rw [mem_searched_of_first hfirst]
  by_cases hname : Relation.fieldName field = lastKey field
  · rw [exists_candidate_iff (hname ▸ hstem) (List.find?_some hfirst)]
    simp [hname]
  · have hbracket : (lastKey field).toList.getLast? = some ']' := by
      obtain ⟨front, hfront⟩ := (Relation.fieldName_eq_or field).resolve_left hname
      rw [← hfront]
      simp
    simp [candidates_eq_nil_of_bracket hbracket, hname]

/-- A shop, by its plural. -/
theorem mem_searched_shop :
    Relation.ofField? "shopId" ["carts", "shops"] = some ⟨some "shops", 0.8⟩ ∧
      "shops" ∈ searched "shopId" ["carts", "shops"] := by
  have hrelation : Relation.ofField? "shopId" ["carts", "shops"] = some ⟨some "shops", 0.8⟩ :=
    Relation.ofField?_of_find? "shop" (by decide +kernel) (by decide +kernel) (by decide +kernel)
  refine ⟨hrelation, (mem_searched_iff hrelation).1.mpr ⟨by decide +kernel, ?_⟩⟩
  have hrow : ∀ row ∈ knownFields, row.1 ≠ lastKey "shopId" := by decide +kernel
  exact fun row hmem hname _ => absurd hname (hrow row hmem)

/-- The row of `orderId` lists the plural alone. -/
theorem not_forall_mem_searched :
    ¬ ∀ (field : String) (existing : List String) (target : String),
      SchemaField.isTopLevelName field = true →
        Relation.ofField? field existing = some ⟨some target, 0.8⟩ →
          target ∈ searched field existing := by
  intro hall
  have hrelation : Relation.ofField? "orderId" ["order"] = some ⟨some "order", 0.8⟩ :=
    Relation.ofField?_of_find? "order" (by decide +kernel) (by decide +kernel) (by decide +kernel)
  have hsearched : searched "orderId" ["order"] = [] := by decide +kernel
  have hmem := hall "orderId" ["order"] "order" (by decide +kernel) hrelation
  rw [hsearched] at hmem
  cases hmem

end Resolution

end EndpointPayload
