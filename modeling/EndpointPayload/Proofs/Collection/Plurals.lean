import EndpointPayload.Proofs.Collection.Inflection

/-!
# Plurals read back

A word that is no plural gets its plural by its last letter, and a plural gets its singular by its
last three.  The two tables are not inverse to each other: `movie` has the plural of `movy`, and the
endings `y` and `f` alone have plurals that no stem stands in front of.

**Input.**  Any word.

**Results.**
* `pluralizes_pluralChars` and `singularizes_singularChars`: the two tables as relations.
* `pluralChars_singularChars`: the plural of the singular of a plural is that plural.
* `singularChars_pluralChars_iff`: the words that come back from their plural.
* `number_laws`: the laws together.
-/

namespace EndpointPayload
namespace Inflection

variable {word stem many : List Char}

/-! ## The two tables -/

/-- A word that is no plural, with the plural that its last letter gives. -/
inductive Pluralizes : List Char → List Char → Prop
  | y
      (stem : List Char) :
      Pluralizes (stem ++ ['y']) (stem ++ ['i', 'e', 's'])
  | f
      (stem : List Char) :
      Pluralizes (stem ++ ['f']) (stem ++ ['v', 'e', 's'])
  | other
      {stem : List Char}
      {last : Char}
      (hy : last ≠ 'y')
      (hf : last ≠ 'f') :
      Pluralizes (stem ++ [last]) (stem ++ [last, 's'])

/-- A word in front of its last `s` that has no singular of its own: it does not end in `ie` or `ve`
behind another letter. -/
structure IsPlain (word : List Char) : Prop where
  ne_nil : word ≠ []
  not_ie : ∀ stem, stem ≠ [] → word ≠ stem ++ ['i', 'e']
  not_ve : ∀ stem, stem ≠ [] → word ≠ stem ++ ['v', 'e']

/-- A plural with the singular that its last letters give. -/
inductive Singularizes : List Char → List Char → Prop
  | ies
      {stem : List Char}
      (hstem : stem ≠ []) :
      Singularizes (stem ++ ['i', 'e', 's']) (stem ++ ['y'])
  | ves
      {stem : List Char}
      (hstem : stem ≠ []) :
      Singularizes (stem ++ ['v', 'e', 's']) (stem ++ ['f'])
  | plain
      {word : List Char}
      (hplain : IsPlain word) :
      Singularizes (word ++ ['s']) word

theorem pluralizes_pluralChars
    (hne : word ≠ [])
    (h : isPluralChars word = false) :
    Pluralizes word (pluralChars word) := by
  obtain ⟨stem, last, rfl⟩ := (List.eq_nil_or_concat' word).resolve_left hne
  rw [pluralChars, if_neg (by simp [h]), List.reverse_append]
  by_cases hy : last = 'y'
  · subst hy
    simpa using Pluralizes.y stem
  by_cases hf : last = 'f'
  · subst hf
    simpa using Pluralizes.f stem
  · have hother : Pluralizes (stem ++ [last]) (stem ++ [last, 's']) := .other hy hf
    simpa [hy, hf] using hother

/-- The table gives one plural. -/
theorem Pluralizes.pluralChars_eq
    (h : Pluralizes word many)
    (hword : isPluralChars word = false) :
    pluralChars word = many := by
  rw [pluralChars, if_neg (by simp [hword])]
  cases h with
  | y stem => simp
  | f stem => simp
  | other hy hf => simp

theorem Pluralizes.isPluralChars_eq (h : Pluralizes word many) : isPluralChars many = true := by
  rw [isPluralChars_iff]
  cases h with
  | y stem => exact ⟨'e', stem ++ ['i'], by simp⟩
  | f stem => exact ⟨'e', stem ++ ['v'], by simp⟩
  | @other stem last hy hf => exact ⟨last, stem, rfl⟩

theorem isPluralChars_concat {last : Char} (h : last ≠ 's') :
    isPluralChars (stem ++ [last]) = false := by
  rw [Bool.eq_false_iff, Ne, isPluralChars_iff]
  rintro ⟨c, front, hfront⟩
  have hlast := congrArg List.getLast? hfront
  simp [h] at hlast

/-- What stands in front of a last `s` is plain, unless one of the longer endings fits. -/
theorem isPlain_reverse
    {c : Char}
    (hie : ∀ d front, c :: stem ≠ 'e' :: 'i' :: d :: front)
    (hve : ∀ d front, c :: stem ≠ 'e' :: 'v' :: d :: front) :
    IsPlain (c :: stem).reverse where
  ne_nil := by simp
  not_ie front hfront h := by
    obtain ⟨back, d, rfl⟩ := (List.eq_nil_or_concat' front).resolve_left hfront
    exact hie d back.reverse (by simpa using congrArg List.reverse h)
  not_ve front hfront h := by
    obtain ⟨back, d, rfl⟩ := (List.eq_nil_or_concat' front).resolve_left hfront
    exact hve d back.reverse (by simpa using congrArg List.reverse h)

theorem singularizes_singularChars
    (h : isPluralChars word = true) :
    Singularizes word (singularChars word) := by
  obtain ⟨last, front, hlast⟩ := isPluralChars_iff.1 h
  rw [singularChars]
  split
  · rename_i c stem hword
    have hies : word = (c :: stem).reverse ++ ['i', 'e', 's'] := by
      simpa using congrArg List.reverse hword
    have hne : (c :: stem).reverse ≠ [] := by simp
    simpa [hies] using Singularizes.ies hne
  · rename_i _ c stem hword
    have hves : word = (c :: stem).reverse ++ ['v', 'e', 's'] := by
      simpa using congrArg List.reverse hword
    have hne : (c :: stem).reverse ≠ [] := by simp
    simpa [hves] using Singularizes.ves hne
  · rename_i c stem hie hve hword
    have hs : word = (c :: stem).reverse ++ ['s'] := by
      simpa using congrArg List.reverse hword
    rw [hs]
    refine .plain (isPlain_reverse (fun d front hfront => ?_) fun d front hfront => ?_)
    · obtain ⟨hc, hstem⟩ := List.cons.inj hfront
      exact hie d front hc hstem
    · obtain ⟨hc, hstem⟩ := List.cons.inj hfront
      exact hve d front hc hstem
  · rename_i hnone
    exact absurd (by simp [hlast]) (hnone last front.reverse)

/-! ## Back and forth -/

theorem singularChars_ies (hstem : stem ≠ []) :
    singularChars (stem ++ ['i', 'e', 's']) = stem ++ ['y'] := by
  obtain ⟨front, last, rfl⟩ := (List.eq_nil_or_concat' stem).resolve_left hstem
  simp [singularChars]

theorem singularChars_ves (hstem : stem ≠ []) :
    singularChars (stem ++ ['v', 'e', 's']) = stem ++ ['f'] := by
  obtain ⟨front, last, rfl⟩ := (List.eq_nil_or_concat' stem).resolve_left hstem
  simp [singularChars]

theorem IsPlain.isPluralChars_append (h : IsPlain word) : isPluralChars (word ++ ['s']) = true := by
  obtain ⟨front, last, rfl⟩ := (List.eq_nil_or_concat' word).resolve_left h.ne_nil
  exact isPluralChars_iff.2 ⟨last, front, by simp⟩

theorem IsPlain.singularChars_append (h : IsPlain word) : singularChars (word ++ ['s']) = word := by
  have hsingular := singularizes_singularChars h.isPluralChars_append
  generalize singularChars (word ++ ['s']) = singular at hsingular
  generalize hw : word ++ ['s'] = whole at hsingular
  cases hsingular with
  | @ies stem hstem =>
      have hie : word = stem ++ ['i', 'e'] :=
        (List.append_left_inj ['s']).mp (by simpa using hw)
      exact absurd hie (h.not_ie stem hstem)
  | @ves stem hstem =>
      have hve : word = stem ++ ['v', 'e'] :=
        (List.append_left_inj ['s']).mp (by simpa using hw)
      exact absurd hve (h.not_ve stem hstem)
  | plain => exact (List.append_cancel_right hw).symm

/-- Only `ie` and `ve` keep a word from being plain. -/
theorem isPlain_concat
    {last : Char}
    (hlast : last ≠ 'e') :
    IsPlain (stem ++ [last]) where
  ne_nil := by simp
  not_ie front _ h := by
    have hends := congrArg List.getLast? h
    simp [hlast] at hends
  not_ve front _ h := by
    have hends := congrArg List.getLast? h
    simp [hlast] at hends

/-- A plural that is nothing but a plain word and an `s` is the plural of that word. -/
theorem Pluralizes.pluralChars_of_isPlain
    {singular : List Char}
    (h : Pluralizes word (singular ++ ['s']))
    (hword : isPluralChars word = false)
    (hplain : IsPlain singular) :
    pluralChars singular = singular ++ ['s'] := by
  generalize hwhole : singular ++ ['s'] = whole at h
  cases h with
  | y stem =>
      have hsingular : singular = stem ++ ['i', 'e'] :=
        (List.append_left_inj ['s']).mp (by simpa using hwhole)
      by_cases hstem : stem = []
      · rw [← hwhole, hsingular, hstem]
        rfl
      · exact absurd hsingular (hplain.not_ie stem hstem)
  | f stem =>
      have hsingular : singular = stem ++ ['v', 'e'] :=
        (List.append_left_inj ['s']).mp (by simpa using hwhole)
      by_cases hstem : stem = []
      · rw [← hwhole, hsingular, hstem]
        rfl
      · exact absurd hsingular (hplain.not_ve stem hstem)
  | @other stem last hy hf =>
      have hsingular : singular = stem ++ [last] :=
        (List.append_left_inj ['s']).mp (by simpa using hwhole)
      rw [hsingular, (Pluralizes.other hy hf).pluralChars_eq hword]

/-- The plural of the singular of a plural is that plural, whichever ending the singular lost. -/
theorem pluralChars_singularChars
    (hne : word ≠ [])
    (hword : isPluralChars word = false) :
    pluralChars (singularChars (pluralChars word)) = pluralChars word := by
  have hplural := pluralizes_pluralChars hne hword
  have hsingular := singularizes_singularChars hplural.isPluralChars_eq
  generalize pluralChars word = many at hplural hsingular
  generalize singularChars many = singular at hsingular
  cases hsingular with
  | @ies stem => exact (Pluralizes.y stem).pluralChars_eq (isPluralChars_concat (by decide))
  | @ves stem => exact (Pluralizes.f stem).pluralChars_eq (isPluralChars_concat (by decide))
  | plain hplain => exact hplural.pluralChars_of_isPlain hword hplain

/-- The words that come back from their plural: the plain ones but `y` and `f`. -/
theorem singularChars_pluralChars_iff
    (hne : word ≠ [])
    (hword : isPluralChars word = false) :
    singularChars (pluralChars word) = word ↔ IsPlain word ∧ word ≠ ['y'] ∧ word ≠ ['f'] := by
  have hplural := pluralizes_pluralChars hne hword
  constructor
  · intro hback
    refine ⟨?_, ?_, ?_⟩
    · have hsingular := singularizes_singularChars hplural.isPluralChars_eq
      rw [hback] at hsingular
      generalize pluralChars word = many at hsingular
      cases hsingular with
      | ies => exact isPlain_concat (by decide)
      | ves => exact isPlain_concat (by decide)
      | plain hplain => exact hplain
    · rintro rfl
      exact absurd hback (by decide)
    · rintro rfl
      exact absurd hback (by decide)
  · rintro ⟨hplain, hy, hf⟩
    generalize pluralChars word = many at hplural
    cases hplural with
    | y stem => exact singularChars_ies fun hstem => hy (by rw [hstem]; rfl)
    | f stem => exact singularChars_ves fun hstem => hf (by rw [hstem]; rfl)
    | other => simpa using hplain.singularChars_append

/-! ## The laws -/

theorem isPlural_plural {w : String} (hne : w ≠ "") : isPlural (plural w) = true := by
  by_cases h : isPlural w = true
  · rw [plural_eq_self h, h]
  · have hchars : w.toList ≠ [] := fun hnil => hne (String.toList_eq_nil_iff.mp hnil)
    rw [isPlural, plural, String.toList_ofList]
    exact (pluralizes_pluralChars hchars (by simpa [isPlural] using h)).isPluralChars_eq

theorem plural_plural (w : String) : plural (plural w) = plural w := by
  by_cases hne : w = ""
  · rw [hne]
    decide
  · exact plural_eq_self (isPlural_plural hne)

theorem plural_singular_plural
    {w : String}
    (h : isPlural w = false) :
    plural (singular (plural w)) = plural w := by
  by_cases hne : w = ""
  · rw [hne]
    decide
  · have hchars : w.toList ≠ [] := fun hnil => hne (String.toList_eq_nil_iff.mp hnil)
    simp only [plural, singular, String.toList_ofList]
    rw [pluralChars_singularChars hchars h]

/-- A text ends as its characters do. -/
theorem eq_append_iff
    {w ending : String} :
    (∃ stem, stem ≠ "" ∧ w = stem ++ ending) ↔
      ∃ stem, stem ≠ [] ∧ w.toList = stem ++ ending.toList := by
  constructor
  · rintro ⟨stem, hstem, rfl⟩
    exact ⟨stem.toList, fun h => hstem (String.toList_eq_nil_iff.mp h), String.toList_append⟩
  · rintro ⟨stem, hstem, hw⟩
    refine ⟨String.ofList stem, fun h => hstem (by simpa using congrArg String.toList h), ?_⟩
    rw [← String.toList_inj, hw, String.toList_append, String.toList_ofList]

theorem isPlain_toList_iff
    {w : String}
    (hne : w ≠ "") :
    IsPlain w.toList ↔
      ¬ (∃ stem, stem ≠ "" ∧ w = stem ++ "ie") ∧ ¬ ∃ stem, stem ≠ "" ∧ w = stem ++ "ve" := by
  rw [eq_append_iff, eq_append_iff]
  constructor
  · intro h
    constructor
    · rintro ⟨stem, hstem, hw⟩
      exact h.not_ie stem hstem hw
    · rintro ⟨stem, hstem, hw⟩
      exact h.not_ve stem hstem hw
  · rintro ⟨hie, hve⟩
    exact ⟨fun hnil => hne (String.toList_eq_nil_iff.mp hnil),
      fun stem hstem hw => hie ⟨stem, hstem, hw⟩, fun stem hstem hw => hve ⟨stem, hstem, hw⟩⟩

/-- The words that are not the singular of their plural. -/
theorem singular_plural_ne_iff
    {w : String}
    (hne : w ≠ "")
    (h : isPlural w = false) :
    singular (plural w) ≠ w ↔
      w = "y" ∨ w = "f" ∨ (∃ stem, stem ≠ "" ∧ w = stem ++ "ie") ∨
        ∃ stem, stem ≠ "" ∧ w = stem ++ "ve" := by
  have hchars : w.toList ≠ [] := fun hnil => hne (String.toList_eq_nil_iff.mp hnil)
  have hy : w.toList = ['y'] ↔ w = "y" :=
    (String.toList_inj : w.toList = "y".toList ↔ w = "y")
  have hf : w.toList = ['f'] ↔ w = "f" :=
    (String.toList_inj : w.toList = "f".toList ↔ w = "f")
  rw [Ne, ← String.toList_inj, singular, plural, String.toList_ofList, String.toList_ofList,
    singularChars_pluralChars_iff hchars h, isPlain_toList_iff hne, Ne, hy, Ne, hf]
  simp only [not_and_or, not_not]
  rw [or_comm, or_assoc]

/-- Laws of number.  A plural is its own plural, and every word but the blank one has a plural that
is one.  The singular of a word's plural has that same plural.  A word comes back from its plural
unless it is `y` or `f` or ends in `ie` or `ve` behind another letter: these, and no others, do
not. -/
theorem number_laws :
    (∀ w, plural (plural w) = plural w) ∧
    (∀ w, w ≠ "" → isPlural (plural w) = true) ∧
    (∀ w, isPlural w = false → plural (singular (plural w)) = plural w) ∧
    (∀ w, w ≠ "" → isPlural w = false → w ≠ "y" → w ≠ "f" →
      (¬ ∃ stem, w = stem ++ "ie") → (¬ ∃ stem, w = stem ++ "ve") → singular (plural w) = w) ∧
    ∀ w, w ≠ "" → isPlural w = false →
      (singular (plural w) ≠ w ↔
        w = "y" ∨ w = "f" ∨ (∃ stem, stem ≠ "" ∧ w = stem ++ "ie") ∨
          ∃ stem, stem ≠ "" ∧ w = stem ++ "ve") := by
  refine ⟨plural_plural, fun w => isPlural_plural, fun w => plural_singular_plural, ?_,
    fun w => singular_plural_ne_iff⟩
  intro w hne h hy hf hie hve
  by_contra hback
  rcases (singular_plural_ne_iff hne h).mp hback with rfl | rfl | ⟨stem, -, hw⟩ | ⟨stem, -, hw⟩
  · exact hy rfl
  · exact hf rfl
  · exact hie ⟨stem, hw⟩
  · exact hve ⟨stem, hw⟩

/-- A word that comes back, and one that does not but has the plural of its other singular. -/
theorem number_laws_category_and_movie :
    isPlural (plural "category") = true ∧
      singular (plural "category") = "category" ∧
      plural (singular (plural "movie")) = plural "movie" ∧
      singular (plural "movie") ≠ "movie" := by
  obtain ⟨-, hplural, hthere, hback, hexceptions⟩ := number_laws
  refine ⟨hplural "category" (by decide), ?_, hthere "movie" (by decide), ?_⟩
  · refine hback "category" (by decide) (by decide) (by decide) (by decide) ?_ ?_
    · rintro ⟨stem, hstem⟩
      have hlast := congrArg (fun s => s.toList.getLast?) hstem
      simp at hlast
    · rintro ⟨stem, hstem⟩
      have hlast := congrArg (fun s => s.toList.getLast?) hstem
      simp at hlast
  · exact (hexceptions "movie" (by decide) (by decide)).mpr
      (.inr (.inr (.inl ⟨"mov", by decide, by decide⟩)))

end Inflection
end EndpointPayload
