import EndpointPayload.Collection.Inflection
import Mathlib.Data.List.Basic
import Mathlib.Tactic

/-!
# Plurals of plurals

A plural is its own plural.  What has a plural for its singular is that plural with one more `s`,
for the other endings leave a `y` or an `f`.
-/

namespace EndpointPayload
namespace Inflection

variable {word : List Char} {name segment : String}

theorem isPluralChars_iff :
    isPluralChars word = true ↔ ∃ c stem, word = stem ++ [c, 's'] := by
  rw [isPluralChars]
  constructor
  · intro h
    split at h
    · rename_i c stem hword
      exact ⟨c, stem.reverse, by simpa using congrArg List.reverse hword⟩
    · cases h
  · rintro ⟨c, stem, rfl⟩
    rw [List.reverse_append]
    rfl

theorem singularChars_append
    (h : isPluralChars word = true) :
    singularChars (word ++ ['s']) = word := by
  obtain ⟨c, stem, rfl⟩ := isPluralChars_iff.1 h
  simp [singularChars]

/-- Only one more `s` makes a singular that ends in `s`. -/
theorem eq_append_of_singularChars
    (h : isPluralChars (singularChars word) = true) :
    word = singularChars word ++ ['s'] := by
  obtain ⟨c, stem, hstem⟩ := isPluralChars_iff.1 h
  have hreverse : (singularChars word).reverse = 's' :: c :: stem.reverse := by
    rw [hstem, List.reverse_append]
    rfl
  rw [hstem]
  rw [singularChars] at hreverse
  split at hreverse
  · simp at hreverse
  · simp at hreverse
  · rename_i last front hword
    rw [List.reverse_reverse] at hreverse
    rw [hreverse] at hword
    simpa using congrArg List.reverse hword
  · rename_i hother
    exact absurd hreverse (hother c stem.reverse)

/-- Plurals that are singulars of something are so of one word. -/
theorem singular_eq_iff
    (h : isPlural name = true) :
    singular segment = name ↔ segment = name ++ "s" := by
  have hs : "s".toList = ['s'] := by decide
  rw [isPlural] at h
  constructor
  · rintro rfl
    rw [singular, String.toList_ofList] at h
    apply String.toList_inj.mp
    rw [String.toList_append, singular, String.toList_ofList, hs]
    exact eq_append_of_singularChars h
  · rintro rfl
    rw [singular, String.toList_append, hs, singularChars_append h, String.ofList_toList]

theorem isPlural_append (h : isPlural name = true) : isPlural (name ++ "s") = true := by
  have hs : "s".toList = ['s'] := by decide
  obtain ⟨c, stem, hstem⟩ := isPluralChars_iff.1 h
  rw [isPlural, String.toList_append, hs, hstem, isPluralChars_iff]
  exact ⟨'s', stem ++ [c], by simp⟩

theorem plural_eq_self (h : isPlural name = true) : plural name = name := by
  rw [isPlural] at h
  rw [plural, pluralChars, if_pos h, String.ofList_toList]

end Inflection
end EndpointPayload
