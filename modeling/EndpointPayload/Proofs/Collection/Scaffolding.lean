import EndpointPayload.Proofs.Collection.Strategies
import EndpointPayload.Proofs.Text.Basic
import Mathlib.Logic.Relation
import Mathlib.Tactic

/-!
# Segments that name no resource

The strategies see a path through its significant segments alone, which are the segments that are
not ignored: the resource is the first of them that is no parameter, parameters and segments about
accounts are always significant, and a word about accounts stands inside one of them, since no
ignored segment has such a word in it and no word goes over a slash.  So a slash or an ignored
segment more between two segments changes no guess, and neither do any number of them.
-/

namespace EndpointPayload

namespace Text

/-- Lower case keeps slashes and makes none. -/
theorem toLower_eq_slash_iff (c : Char) : c.toLower = '/' ↔ c = '/' := by
  by_cases hupper : c.val ≥ 'A'.val ∧ c.val ≤ 'Z'.val
  · have hcode : c.val ≥ 65 ∧ c.val ≤ 90 := hupper
    rw [Char.toLower, dif_pos hupper, ← Char.val_inj, ← Char.val_inj]
    change c.val + 32 = 47 ↔ c.val = 47
    grind
  · rw [Char.toLower, dif_neg hupper]

theorem split_lower (s : String) : split '/' (lower s) = (split '/' s).map lower := by
  rw [split, split, lower, String.toList_map, splitChars_map toLower_eq_slash_iff, List.map_map,
    List.map_map]
  exact List.map_congr_left fun piece _ => String.toList_inj.mp (by simp [lower])

/-- A word without a slash occurs in a path exactly if it occurs in a piece of the path. -/
theorem occursIn_iff_mem_split
    {word : String}
    (hword : '/' ∉ word.toList)
    (path : String) :
    occursIn word path = true ↔ ∃ piece ∈ split '/' path, occursIn word piece = true := by
  rw [occursIn_iff, infix_iff_mem_splitChars hword, split]
  simp only [List.mem_map, exists_exists_and_eq_and, occursIn_iff, String.toList_ofList]

end Text

namespace Naming

/-- A segment that never names a resource, in any letter case. -/
def IsIgnored (segment : String) : Prop := Text.lower segment ∈ ignoredSegments

instance (segment : String) : Decidable (IsIgnored segment) :=
  inferInstanceAs (Decidable (Text.lower segment ∈ ignoredSegments))

/-- One slash or one ignored segment more, between two segments of a path or behind the last one. -/
inductive Inserts : String → String → Prop where
  /-- A slash next to a slash. -/
  | slash (front back : String) : Inserts (front ++ "/" ++ back) (front ++ "//" ++ back)
  /-- A segment and a slash behind a slash. -/
  | segment
      (front segment back : String)
      (h : IsIgnored segment) :
      Inserts (front ++ "/" ++ back) (front ++ "/" ++ segment ++ "/" ++ back)
  /-- A segment between two slashes. -/
  | between
      (front segment back : String)
      (h : IsIgnored segment) :
      Inserts (front ++ "//" ++ back) (front ++ "/" ++ segment ++ "/" ++ back)
  /-- A slash and a segment at the end. -/
  | last
      (path segment : String)
      (h : IsIgnored segment) :
      Inserts path (path ++ "/" ++ segment)

/-- The segments of a path that are not ignored. -/
def significant (path : String) : List String :=
  (segments path).filter fun s => ¬ IsIgnored s

@[simp]
theorem mem_ignoredSegments_iff (segment : String) :
    Text.lower segment ∈ ignoredSegments ↔ IsIgnored segment :=
  Iff.rfl

section Significant

variable {path word segment : String}

theorem segments_append (front back : String) :
    segments (front ++ "/" ++ back) = segments front ++ segments back := by
  rw [segments, Text.split_slash_append, List.filter_append]
  rfl

theorem significant_append (front back : String) :
    significant (front ++ "/" ++ back) = significant front ++ significant back := by
  rw [significant, segments_append, List.filter_append]
  rfl

theorem segments_lower (path : String) :
    segments (Text.lower path) = (segments path).map Text.lower := by
  have hempty : ∀ s : String, Text.lower s = "" ↔ s = "" := by
    intro s
    rw [← String.toList_inj, ← String.toList_inj, Text.lower, String.toList_map]
    simp
  rw [segments, Text.split_lower, List.filter_map, segments]
  congr 1
  refine List.filter_congr fun s _ => ?_
  simp [hempty]

/-- An ignored segment has no slash, so it is the only segment of itself. -/
theorem IsIgnored.significant_eq (h : IsIgnored segment) : significant segment = [] := by
  have hslash : '/' ∉ segment.toList := by
    have hall : ∀ s ∈ ignoredSegments, '/' ∉ s.toList := by decide
    intro hmem
    refine hall _ h ?_
    rw [Text.lower, String.toList_map]
    exact List.mem_map.mpr ⟨'/', hmem, rfl⟩
  rw [significant, segments, Text.split_of_not_mem hslash, List.filter_filter]
  simp [h]

theorem significant_empty : significant "" = [] := by
  decide

/-- An insertion keeps the significant segments. -/
theorem Inserts.significant_eq
    {longer : String}
    (h : Inserts path longer) :
    significant longer = significant path := by
  have hslashes : ∀ front back : String,
      significant (front ++ "//" ++ back) = significant front ++ significant back := by
    intro front back
    have hpieces : front ++ "//" ++ back = front ++ "/" ++ "" ++ "/" ++ back := by
      apply String.toList_inj.mp
      simp
    rw [hpieces, significant_append, significant_append, significant_empty, List.append_nil]
  cases h with
  | slash front back => rw [hslashes, significant_append]
  | segment front segment back h =>
      rw [significant_append, significant_append, significant_append, h.significant_eq,
        List.append_nil]
  | between front segment back h =>
      rw [hslashes, significant_append, significant_append, h.significant_eq, List.append_nil]
  | last path segment h => rw [significant_append, h.significant_eq, List.append_nil]

/-- Any number of insertions does. -/
theorem significant_of_inserts
    {longer : String}
    (h : Relation.ReflTransGen Inserts path longer) :
    significant longer = significant path := by
  induction h with
  | refl => rfl
  | tail _ hstep ih => exact hstep.significant_eq.trans ih

end Significant

section Strategies

variable {path word segment : String}

theorem resource?_eq (path : String) :
    resource? path = (significant path).find? fun s => !isParameter s := by
  rw [resource?, significant, List.find?_filter]
  congr 1
  funext s
  simp [Bool.and_comm]

/-- A parameter is not ignored. -/
theorem not_isIgnored_of_isParameter (h : isParameter segment = true) : ¬ IsIgnored segment := by
  intro hignored
  have hall : ∀ s ∈ ignoredSegments, isParameter s = false := by decide
  have hletter := hall _ hignored
  rw [isParameter] at h
  split at h
  · rename_i c rest hchars
    rw [isParameter, Text.lower, String.toList_map, hchars] at hletter
    simp only [Bool.or_eq_true, decide_eq_true_eq] at h
    rcases h with (rfl | rfl) | rfl
    · cases hletter
    · cases hletter
    · cases hletter
  · cases h

theorem hasIdParameter_eq (path : String) :
    hasIdParameter path =
      (significant path).any fun s => isParameter s && Text.occursIn "id" (Text.lower s) := by
  rw [hasIdParameter, significant, List.any_filter]
  congr 1
  funext s
  by_cases h : isParameter s = true
  · simp [not_isIgnored_of_isParameter h]
  · simp [h]

/-- The first segment about accounts is the first such significant one. -/
theorem specialGuess?_eq (path : String) :
    specialGuess? path = (significant path).findSome? fun s =>
      (specialSegments.find? fun p => p.1 = Text.lower s).map fun p =>
        Guess.make p.2 0.8 ("'" ++ Text.lower s ++ "' routes belong to " ++ p.2) := by
  have hall : ∀ s ∈ ignoredSegments, specialSegments.find? (fun p => p.1 = s) = none := by
    decide
  rw [specialGuess?, segments_lower, List.findSome?_map, significant]
  induction segments path with
  | nil => rfl
  | cons s rest ih =>
      by_cases h : IsIgnored s
      · have hnone := hall _ h
        rw [List.filter_cons_of_neg (by simpa using h), List.findSome?_cons]
        simpa [hnone] using ih
      · rw [List.filter_cons_of_pos (by simpa using h), List.findSome?_cons, List.findSome?_cons,
          ih]
        rfl

/-- The words that are looked for anywhere in a path. -/
def pathWords : List String := accountWords ++ ["password"]

/-- Such a word has no slash and is in no ignored segment, so it stands in a significant one. -/
theorem occursIn_lower_iff
    (h : word ∈ pathWords)
    (path : String) :
    Text.occursIn word (Text.lower path) = true ↔
      ∃ s ∈ significant path, Text.occursIn word (Text.lower s) = true := by
  have hall : ∀ w ∈ pathWords,
      '/' ∉ w.toList ∧ Text.occursIn w (Text.lower "") = false ∧
        ∀ s ∈ ignoredSegments, Text.occursIn w s = false := by
    decide +kernel
  obtain ⟨hslash, hempty, hignored⟩ := hall word h
  rw [Text.occursIn_iff_mem_split hslash, Text.split_lower]
  simp only [significant, segments, List.mem_filter, decide_eq_true_eq, List.mem_map,
    exists_exists_and_eq_and]
  constructor
  · rintro ⟨s, hs, hword⟩
    refine ⟨s, ⟨⟨hs, ?_⟩, ?_⟩, hword⟩
    · rintro rfl
      rw [hempty] at hword
      cases hword
    · intro hs
      rw [hignored _ hs] at hword
      cases hword
  · rintro ⟨s, ⟨⟨hs, -⟩, -⟩, hword⟩
    exact ⟨s, hs, hword⟩

/-- The strategies see the significant segments of a path and nothing else of it. -/
theorem guesses_of_significant
    (r : Route)
    (h : significant path = significant r.path) :
    guesses { r with path := path } = guesses r := by
  have hresource : resource? path = resource? r.path := by
    rw [resource?_eq, resource?_eq, h]
  have hid : hasIdParameter path = hasIdParameter r.path := by
    rw [hasIdParameter_eq, hasIdParameter_eq, h]
  have hspecial : specialGuess? path = specialGuess? r.path := by
    rw [specialGuess?_eq, specialGuess?_eq, h]
  have hword : ∀ w ∈ pathWords,
      Text.occursIn w (Text.lower path) = Text.occursIn w (Text.lower r.path) := by
    intro w hw
    rw [Bool.eq_iff_iff, occursIn_lower_iff hw, occursIn_lower_iff hw, h]
  have hpath : byPath? { r with path := path } = byPath? r := by
    simp only [byPath?, hresource]
  have hverb : byVerb? { r with path := path } = byVerb? r := by
    simp only [byVerb?, hresource, hid]
  have haccount : byAccountWords? { r with path := path } = byAccountWords? r := by
    have hany : (accountWords.any fun w => Text.occursIn w (Text.lower path)) =
        accountWords.any fun w => Text.occursIn w (Text.lower r.path) := by
      rw [Bool.eq_iff_iff, List.any_eq_true, List.any_eq_true]
      refine exists_congr fun w => and_congr_right fun hw => ?_
      rw [hword w (List.mem_append_left _ hw)]
    simp only [byAccountWords?_eq, hspecial, hany, hword "password" (by decide)]
  rw [guesses, guesses, hpath, haccount, hverb]

end Strategies

/-- For every route, any number of slashes and ignored segments put between the segments of its path
change nothing of what is guessed: the suggestions with their names, order, confidences,
alternatives and reasons, and the best guess, stay the same. -/
theorem suggestions_of_inserts
    (r : Route)
    {path : String}
    (h : Relation.ReflTransGen Inserts r.path path) :
    suggestions { r with path := path } = suggestions r ∧
      best { r with path := path } = best r := by
  have hguesses := guesses_of_significant r (significant_of_inserts h)
  have hsuggestions : suggestions { r with path := path } = suggestions r := by
    rw [suggestions, suggestions, hguesses]
  exact ⟨hsuggestions, by rw [best, best, hsuggestions]⟩

/-- One product, by its id. -/
def productById : Route where
  verb := .get
  path := "/products/:id"
  filePath := "/app/routes/index.js"
  line := 1
  handler := "h"
  middlewares := []
  routerPrefix := none
  controllerFile := none
  controllerFunction := none
  inlineSpan := none

/-- The product under `/API/v1`, with a slash too many and an ignored segment before the id. -/
theorem suggestions_of_inserts_product :
    Relation.ReflTransGen Inserts productById.path "/API//v1/products/admin/:id" ∧
      suggestions { productById with path := "/API//v1/products/admin/:id" } =
        suggestions productById ∧
      best { productById with path := "/API//v1/products/admin/:id" } = best productById := by
  have hignored : ∀ s ∈ ["admin", "v1", "API"], IsIgnored s := by decide +kernel
  have hadmin : Inserts productById.path "/products/admin/:id" :=
    .segment "/products" "admin" ":id" (hignored _ (by simp))
  have hversion : Inserts "/products/admin/:id" "/v1/products/admin/:id" :=
    .segment "" "v1" "products/admin/:id" (hignored _ (by simp))
  have hslash : Inserts "/v1/products/admin/:id" "//v1/products/admin/:id" :=
    .slash "" "v1/products/admin/:id"
  have happlication : Inserts "//v1/products/admin/:id" "/API//v1/products/admin/:id" :=
    .segment "" "API" "/v1/products/admin/:id" (hignored _ (by simp))
  have h := (((Relation.ReflTransGen.single hadmin).tail hversion).tail hslash).tail happlication
  exact ⟨h, suggestions_of_inserts productById h⟩

end Naming
end EndpointPayload
