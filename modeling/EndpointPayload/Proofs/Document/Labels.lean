import EndpointPayload.Document.Value
import Mathlib.Tactic

/-!
# Labels of types

An object is labelled by its wrapper: `Json.typeName_obj_cases` lists the wrappers with labels of
their own.  No label has a bar in it, and only null is labelled as null.
-/

namespace EndpointPayload

namespace Json

variable {key : String} {fields : List (String × Json)} {v w : Json}

theorem eq_of_tagOf? (h : tagOf? fields = some key) : ∃ w, fields = [(key, w)] := by
  unfold tagOf? at h
  split at h
  · split at h
    · cases h
      exact ⟨_, rfl⟩
    · cases h
  · cases h

/-- The key of a wrapper starts with a dollar sign. -/
theorem startsWith_of_tagOf? (h : tagOf? fields = some key) : key.startsWith "$" = true := by
  obtain ⟨w, rfl⟩ := eq_of_tagOf? h
  by_contra hkey
  rw [tagOf?, if_neg hkey] at h
  cases h

theorem tagOf?_singleton (h : key.startsWith "$" = true) : tagOf? [(key, w)] = some key := by
  simp only [tagOf?, h, if_true]

/-- What the label of an object says about its fields. -/
theorem typeName_obj_cases (fields : List (String × Json)) :
    (∃ w, fields = [("$oid", w)] ∧ (obj fields).typeName = "ObjectId") ∨
      (∃ w, fields = [("$date", w)] ∧ (obj fields).typeName = "Date") ∨
      (∃ w, fields = [("$numberDecimal", w)] ∧ (obj fields).typeName = "number") ∨
      (∃ w, fields = [("$numberLong", w)] ∧ (obj fields).typeName = "number") ∨
      ((∀ key ∈ ["$oid", "$date", "$numberDecimal", "$numberLong"], ∀ w, fields ≠ [(key, w)]) ∧
        (obj fields).typeName = "object") := by
  simp only [typeName]
  split
  · rename_i htag
    obtain ⟨w, hw⟩ := eq_of_tagOf? htag
    exact .inl ⟨w, hw, rfl⟩
  · rename_i htag
    obtain ⟨w, hw⟩ := eq_of_tagOf? htag
    exact .inr (.inl ⟨w, hw, rfl⟩)
  · rename_i htag
    obtain ⟨w, hw⟩ := eq_of_tagOf? htag
    exact .inr (.inr (.inl ⟨w, hw, rfl⟩))
  · rename_i htag
    obtain ⟨w, hw⟩ := eq_of_tagOf? htag
    exact .inr (.inr (.inr (.inl ⟨w, hw, rfl⟩)))
  · rename_i hoid hdate hdecimal hlong
    refine .inr (.inr (.inr (.inr ⟨?_, rfl⟩)))
    rintro key hkey w rfl
    simp only [List.mem_cons, List.not_mem_nil, or_false] at hkey
    rcases hkey with rfl | rfl | rfl | rfl
    · exact hoid (tagOf?_singleton (by decide +kernel))
    · exact hdate (tagOf?_singleton (by decide +kernel))
    · exact hdecimal (tagOf?_singleton (by decide +kernel))
    · exact hlong (tagOf?_singleton (by decide +kernel))

/-- The labels that an object can have. -/
theorem typeName_obj_mem (fields : List (String × Json)) :
    (obj fields).typeName ∈ ["ObjectId", "Date", "number", "object"] := by
  rcases typeName_obj_cases fields with ⟨w, -, h⟩ | ⟨w, -, h⟩ | ⟨w, -, h⟩ | ⟨w, -, h⟩ | ⟨-, h⟩
  all_goals simp [h]

/-- No label has a bar in it. -/
theorem bar_not_mem_typeName (v : Json) : '|' ∉ v.typeName.toList := by
  cases v with
  | obj fields =>
      have hlabels : ∀ label ∈ ["ObjectId", "Date", "number", "object"], '|' ∉ label.toList := by
        decide
      exact hlabels _ (typeName_obj_mem fields)
  | _ => simp [typeName]

/-- Only arrays are labelled as arrays. -/
theorem eq_arr_of_typeName (h : v.typeName = "array") : ∃ items, v = .arr items := by
  cases v with
  | arr items => exact ⟨items, rfl⟩
  | obj fields =>
      have hmem := typeName_obj_mem fields
      rw [h] at hmem
      exact absurd hmem (by decide)
  | _ => simp [typeName] at h

theorem typeName_eq_null_iff : v.typeName = "null" ↔ v.isNull = true := by
  cases v with
  | obj fields =>
      refine iff_of_false (fun h => ?_) (by simp [isNull])
      have hmem := typeName_obj_mem fields
      rw [h] at hmem
      exact absurd hmem (by decide)
  | _ => simp [typeName, isNull]

/-- The digits of an object id are 24 hexadecimal digits. -/
theorem isObjectId_of_objectId? {s : String} (h : v.objectId? = some s) : isObjectId s = true := by
  unfold objectId? at h
  split at h
  · split at h
    · cases h
      assumption
    · cases h
  · split at h
    · split at h
      · cases h
        assumption
      · cases h
    · cases h
  · cases h

end Json
end EndpointPayload
