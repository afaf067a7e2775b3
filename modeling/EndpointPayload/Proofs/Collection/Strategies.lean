import EndpointPayload.Collection.Naming
import EndpointPayload.Proofs.Collection.Guess
import EndpointPayload.Proofs.Collection.Inflection

/-!
# What the strategies say

Each strategy for the collection of a route, by what it can answer: the names of its guess and how
sure it is of them.  Only the guess by the path has alternatives.  With the collection of a segment
about accounts it shares its name in one way alone, when the resource is that collection with one
more `s`, and then it is the less sure one.
-/

namespace EndpointPayload
namespace Naming

variable {r : Route} {g k : Guess} {segment c n : String}

/-- The collection of the first segment that speaks of accounts. -/
def specialCollection? (path : String) : Option String :=
  (segments (Text.lower path)).findSome? fun s =>
    (specialSegments.find? fun p => p.1 = s).map Prod.snd

def isCommon (segment : String) : Bool :=
  commonResources.contains (Text.lower segment) ||
    commonResources.contains (Inflection.plural (Text.lower segment))

/-- How sure a path is of its resource. -/
def pathConfidence (isCommon isPlural isStandard : Bool) : Float :=
  let confidence : Float := if isCommon then 0.5 + 0.3 else 0.5
  let confidence := if isPlural then confidence + 0.2 else confidence
  Guess.clamp (if isStandard then confidence + 0.1 else confidence)

theorem exists_of_byPath?
    (h : byPath? r = some g) :
    ∃ segment, resource? r.path = some segment ∧ g.name = Inflection.singular segment ∧
      g.confidence = pathConfidence (isCommon segment) (Inflection.isPlural segment)
        r.verb.isStandard ∧
      ∀ n, n ∈ g.names ↔ n = Inflection.singular segment ∨ n = segment ∨
        n = Inflection.plural (Inflection.singular segment) := by
  obtain ⟨segment, hsegment, rfl⟩ := Option.map_eq_some_iff.mp h
  refine ⟨segment, hsegment, rfl, rfl, fun n => ?_⟩
  rw [Guess.mem_names_withAlternatives, Guess.names_make]
  simp

theorem exists_byPath?
    (h : resource? r.path = some segment) :
    ∃ g, byPath? r = some g := by
  rw [byPath?, h]
  exact ⟨_, rfl⟩

theorem exists_of_byVerb?
    (h : byVerb? r = some g) :
    g.names = [g.name] ∧ ∃ segment, resource? r.path = some segment ∧
      g.name = Inflection.plural (Inflection.singular segment) ∧
      (g.confidence = Guess.clamp 0.3 ∨ g.confidence = Guess.clamp (0.3 + 0.2)) := by
  obtain ⟨segment, hsegment, rfl⟩ := Option.map_eq_some_iff.mp h
  dsimp only
  split <;> simp [hsegment, Guess.names, Guess.make]

theorem exists_byVerb?
    (h : resource? r.path = some segment) :
    ∃ g, byVerb? r = some g := by
  rw [byVerb?, h]
  exact ⟨_, rfl⟩

theorem exists_of_byFile?
    {path : String}
    (h : byFile? path = some g) :
    g.names = [g.name] ∧ g.confidence = Guess.clamp 0.4 := by
  rw [byFile?] at h
  split at h
  · cases h
  · dsimp only at h
    split at h
    · cases h
      exact ⟨rfl, rfl⟩
    · obtain ⟨d, -, rfl⟩ := Option.map_eq_some_iff.mp h
      exact ⟨rfl, rfl⟩

theorem mem_of_specialCollection?
    {path : String}
    (h : specialCollection? path = some c) :
    c ∈ specialSegments.map Prod.snd := by
  obtain ⟨s, -, hs⟩ := List.exists_of_findSome?_eq_some h
  obtain ⟨p, hp, rfl⟩ := Option.map_eq_some_iff.mp hs
  exact List.mem_map_of_mem (List.mem_of_find?_eq_some hp)

/-- The collections of segments about accounts are plurals, and no such is common as a resource
with one more `s`. -/
theorem isPlural_of_special
    (h : c ∈ specialSegments.map Prod.snd) :
    Inflection.isPlural c = true ∧ isCommon (c ++ "s") = false := by
  have hall : ∀ c ∈ specialSegments.map Prod.snd,
      Inflection.isPlural c = true ∧ isCommon (c ++ "s") = false := by
    decide +kernel
  exact hall c h

/-- What the first segment that speaks of accounts says. -/
def specialGuess? (path : String) : Option Guess :=
  (segments (Text.lower path)).findSome? fun s =>
    (specialSegments.find? fun p => p.1 = s).map fun p =>
      Guess.make p.2 0.8 ("'" ++ s ++ "' routes belong to " ++ p.2)

theorem byAccountWords?_eq (r : Route) :
    byAccountWords? r =
      match specialGuess? r.path with
      | some g => some g
      | none =>
        if (accountWords.any fun w => Text.occursIn w (Text.lower r.path)) ||
            (r.verb = .post && Text.occursIn "password" (Text.lower r.path)) then
          some (Guess.make "users" 0.7 "authentication-related path")
        else none :=
  rfl

theorem map_name_specialGuess? (path : String) :
    (specialGuess? path).map Guess.name = specialCollection? path := by
  rw [specialGuess?, specialCollection?, List.map_findSome?]
  congr 1
  funext s
  simp [Option.map_map, Function.comp_def, Guess.make]

theorem exists_of_specialGuess?
    {path : String}
    (h : specialGuess? path = some g) :
    ∃ reason, g = Guess.make g.name 0.8 reason := by
  obtain ⟨s, -, hs⟩ := List.exists_of_findSome?_eq_some h
  obtain ⟨p, -, rfl⟩ := Option.map_eq_some_iff.mp hs
  exact ⟨_, rfl⟩

/-- A segment about accounts decides. -/
theorem byAccountWords?_of_special
    (h : specialCollection? r.path = some c) :
    ∃ reason, byAccountWords? r = some (Guess.make c 0.8 reason) := by
  rw [← map_name_specialGuess?] at h
  obtain ⟨g, hg, rfl⟩ := Option.map_eq_some_iff.mp h
  obtain ⟨reason, hreason⟩ := exists_of_specialGuess? hg
  exact ⟨reason, by rw [byAccountWords?_eq, hg, ← hreason]⟩

theorem exists_of_byAccountWords?
    (h : byAccountWords? r = some g) :
    g.names = [g.name] ∧
      (specialCollection? r.path = some g.name ∧ g.confidence = Guess.clamp 0.8 ∨
        g.name = "users" ∧ g.confidence = Guess.clamp 0.7) := by
  rw [byAccountWords?_eq] at h
  cases hspecial : specialGuess? r.path with
  | some k =>
      rw [hspecial] at h
      cases h
      obtain ⟨reason, hreason⟩ := exists_of_specialGuess? hspecial
      rw [← map_name_specialGuess?, hspecial, hreason]
      exact ⟨rfl, Or.inl ⟨rfl, rfl⟩⟩
  | none =>
      rw [hspecial] at h
      dsimp only at h
      split at h
      · cases h
        exact ⟨rfl, Or.inr ⟨rfl, rfl⟩⟩
      · cases h

section Confidence

/-- The path is no less sure than the verb and the file. -/
theorem descending_pathConfidence_verb
    (isCommon isPlural isStandard : Bool) :
    ∀ x ∈ [Guess.clamp 0.3, Guess.clamp (0.3 + 0.2), Guess.clamp 0.4],
      Decimal.descending (pathConfidence isCommon isPlural isStandard) x = true := by
  revert isCommon isPlural isStandard
  decide

theorem descending_pathConfidence_plural
    (isStandard : Bool) :
    Decimal.descending (pathConfidence false true isStandard) (Guess.clamp 0.7) = true ∧
      Decimal.descending (pathConfidence false true isStandard) (Guess.clamp 0.8) = false := by
  revert isStandard
  decide

/-- For the plural of a collection of accounts the path is less sure than the segment about
accounts, and no less sure than the words about them. -/
theorem descending_pathConfidence_special
    (h : c ∈ specialSegments.map Prod.snd)
    (isStandard : Bool) :
    let confidence :=
      pathConfidence (isCommon (c ++ "s")) (Inflection.isPlural (c ++ "s")) isStandard
    Decimal.descending confidence (Guess.clamp 0.7) = true ∧
      Decimal.descending confidence (Guess.clamp 0.8) = false := by
  obtain ⟨hplural, hcommon⟩ := isPlural_of_special h
  rw [hcommon, Inflection.isPlural_append hplural]
  exact descending_pathConfidence_plural isStandard

theorem isNaN_pathConfidence
    (isCommon isPlural isStandard : Bool) :
    (pathConfidence isCommon isPlural isStandard).isNaN = false := by
  revert isCommon isPlural isStandard
  decide

end Confidence

section Guesses

theorem mem_guesses :
    g ∈ guesses r ↔
      byPath? r = some g ∨ byAccountWords? r = some g ∨ byVerb? r = some g ∨
        byFile? r.filePath = some g := by
  simp [guesses, List.mem_filterMap, eq_comm]

/-- Only the guess by the path has alternatives. -/
theorem eq_name_of_mem_names
    (hg : g ∈ guesses r)
    (hpath : byPath? r ≠ some g)
    (hn : n ∈ g.names) :
    n = g.name := by
  have hnames : g.names = [g.name] := by
    rcases mem_guesses.mp hg with h | h | h | h
    · exact absurd h hpath
    · exact (exists_of_byAccountWords? h).1
    · exact (exists_of_byVerb? h).1
    · exact (exists_of_byFile? h).1
  rwa [hnames, List.mem_singleton] at hn

theorem isNaN_confidence (hg : g ∈ guesses r) : g.confidence.isNaN = false := by
  rcases mem_guesses.mp hg with h | h | h | h
  · obtain ⟨segment, -, -, hconfidence, -⟩ := exists_of_byPath? h
    rw [hconfidence]
    exact isNaN_pathConfidence _ _ _
  · obtain ⟨-, ⟨-, hconfidence⟩ | ⟨-, hconfidence⟩⟩ := exists_of_byAccountWords? h
    · rw [hconfidence]
      decide
    · rw [hconfidence]
      decide
  · obtain ⟨-, -, -, -, hconfidence | hconfidence⟩ := exists_of_byVerb? h
    · rw [hconfidence]
      decide
    · rw [hconfidence]
      decide
  · rw [(exists_of_byFile? h).2]
    decide

/-- The collection of a segment about accounts takes the name of its plural from the path. -/
theorem exists_surer_of_special
    (hg : byPath? r = some g)
    (hsegment : resource? r.path = some (c ++ "s"))
    (hc : specialCollection? r.path = some c) :
    ∃ k ∈ guesses r, k.name = g.name ∧
      Decimal.descending g.confidence k.confidence = false := by
  have hspecial := mem_of_specialCollection? hc
  obtain ⟨segment, hfound, hname, hconfidence, -⟩ := exists_of_byPath? hg
  obtain rfl : c ++ "s" = segment := Option.some.inj (hsegment.symm.trans hfound)
  obtain ⟨reason, hk⟩ := byAccountWords?_of_special hc
  refine ⟨_, mem_guesses.mpr (Or.inr (Or.inl hk)), ?_, ?_⟩
  · rw [hname, (Inflection.singular_eq_iff (isPlural_of_special hspecial).1).mpr rfl]
    rfl
  · rw [hconfidence]
    exact (descending_pathConfidence_special hspecial _).2

/-- Nothing else does. -/
theorem exists_special_of_surer
    (hg : byPath? r = some g)
    (hsegment : resource? r.path = some segment)
    (hk : k ∈ guesses r)
    (hname : k.name = g.name)
    (hsurer : Decimal.descending g.confidence k.confidence = false) :
    ∃ c, specialCollection? r.path = some c ∧ segment = c ++ "s" := by
  obtain ⟨found, hfound, hsingular, hconfidence, -⟩ := exists_of_byPath? hg
  obtain rfl : segment = found := Option.some.inj (hsegment.symm.trans hfound)
  have hother : g ≠ k := Guess.ne_of_surer hsurer
  have hless : ∀ x ∈ [Guess.clamp 0.3, Guess.clamp (0.3 + 0.2), Guess.clamp 0.4],
      k.confidence ≠ x := by
    intro x hx heq
    rw [hconfidence, heq, descending_pathConfidence_verb _ _ _ x hx] at hsurer
    cases hsurer
  rw [hsingular] at hname
  rcases mem_guesses.mp hk with hpath | haccount | hverb | hfile
  · exact absurd (Option.some.inj (hg.symm.trans hpath)) hother
  · obtain ⟨-, ⟨hc, -⟩ | ⟨husers, hwords⟩⟩ := exists_of_byAccountWords? haccount
    · have hplural := (isPlural_of_special (mem_of_specialCollection? hc)).1
      exact ⟨k.name, hc, (Inflection.singular_eq_iff hplural).mp hname.symm⟩
    · -- for the plural of `users` the path is sure enough
      have hmem : "users" ∈ specialSegments.map Prod.snd := by decide
      rw [husers] at hname
      obtain rfl := (Inflection.singular_eq_iff (isPlural_of_special hmem).1).mp hname.symm
      rw [hconfidence, hwords, (descending_pathConfidence_special hmem _).1] at hsurer
      cases hsurer
  · obtain ⟨-, -, -, -, hverb | hverb⟩ := exists_of_byVerb? hverb
    · exact absurd hverb (hless _ (by simp))
    · exact absurd hverb (hless _ (by simp))
  · exact absurd (exists_of_byFile? hfile).2 (hless _ (by simp))

end Guesses

end Naming
end EndpointPayload
