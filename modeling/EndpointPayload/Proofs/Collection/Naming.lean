import EndpointPayload.Proofs.Collection.Strategies

/-!
# The names that reach the user

All names that the strategies find for a route are kept but one: a path with a segment about
accounts, and a resource that reads as the plural of the collection of that segment, as in
`/userss/login`.  The guess by the path then has the name of a surer one, goes for it, and takes
the resource as it is written with it.
-/

namespace EndpointPayload
namespace Naming

variable {r : Route} {g k : Guess} {segment n : String}

section Lost

theorem mem_of_mem_suggestions (h : g ∈ suggestions r) : g ∈ guesses r :=
  Guess.mem_ranked.mp ((Guess.firstOfEachName_sublist _).subset h)

theorem exists_suggestion
    (h : g ∈ guesses r) :
    ∃ k ∈ suggestions r, k.name = g.name := by
  have hname : g.name ∈ (suggestions r).map Guess.name :=
    Guess.mem_map_name_firstOfEachName.mpr (List.mem_map_of_mem (Guess.mem_ranked.mpr h))
  exact List.mem_map.mp hname

/-- A surer guess of the same name takes the place of a guess. -/
theorem not_mem_suggestions
    (hk : k ∈ guesses r)
    (hname : k.name = g.name)
    (hsurer : Decimal.descending g.confidence k.confidence = false) :
    g ∉ suggestions r := by
  intro hg
  obtain ⟨front, back, hsplit, hfront⟩ := Guess.mem_firstOfEachName_iff.mp hg
  have hranked := Guess.mem_ranked.mpr hk
  have hfalling := Guess.pairwise_ranked (guesses r)
  rw [hsplit] at hranked hfalling
  rcases List.mem_append.mp hranked with hmem | hmem
  · exact hfront (hname ▸ List.mem_map_of_mem hmem)
  rcases List.mem_cons.mp hmem with rfl | hback
  · exact Guess.ne_of_surer hsurer rfl
  · have hafter := (List.pairwise_cons.mp (List.pairwise_append.mp hfalling).2.1).1 k hback
    rw [hsurer] at hafter
    cases hafter

/-- Only a surer guess of the same name takes the place of the guess by the path. -/
theorem exists_surer_of_not_mem_suggestions
    (hg : byPath? r = some g)
    (h : g ∉ suggestions r) :
    ∃ k ∈ guesses r, k.name = g.name ∧
      Decimal.descending g.confidence k.confidence = false := by
  obtain ⟨rest, hguesses⟩ : ∃ rest, guesses r = g :: rest := by
    rw [guesses, hg]
    exact ⟨_, rfl⟩
  obtain ⟨front, back, hsplit, hsurer⟩ := Guess.exists_ranked_cons g rest
  have hname : g.name ∈ front.map Guess.name := by
    by_contra hfirst
    refine h (Guess.mem_firstOfEachName_iff.mpr ⟨front, back, ?_, hfirst⟩)
    rw [hguesses, hsplit]
  obtain ⟨k, hk, hkname⟩ := List.mem_map.mp hname
  refine ⟨k, ?_, hkname, hsurer k hk⟩
  rw [← Guess.mem_ranked, hguesses, hsplit]
  exact List.mem_append_left _ hk

/-- The guess by the path is lost to the collection of a segment about accounts, when the resource
is written as its plural. -/
theorem mem_suggestions_iff_of_byPath?
    (hg : byPath? r = some g)
    (hsegment : resource? r.path = some segment) :
    g ∈ suggestions r ↔ ¬ ∃ c, specialCollection? r.path = some c ∧ segment = c ++ "s" := by
  constructor
  · rintro hmem ⟨c, hc, rfl⟩
    obtain ⟨k, hk, hname, hsurer⟩ := exists_surer_of_special hg hsegment hc
    exact not_mem_suggestions hk hname hsurer hmem
  · intro hspecial
    by_contra hmem
    obtain ⟨k, hk, hname, hsurer⟩ := exists_surer_of_not_mem_suggestions hg hmem
    exact hspecial (exists_special_of_surer hg hsegment hk hname hsurer)

end Lost

/-- The resource of a path that is lost: it is the plural of the collection that a segment about
accounts speaks of, and no file is called so. -/
structure IsLost (r : Route) (n : String) : Prop where
  resource?_eq : resource? r.path = some n
  exists_special : ∃ c, specialCollection? r.path = some c ∧ n = c ++ "s"
  name_ne : ∀ g, byFile? r.filePath = some g → g.name ≠ n

section Kept

theorem exists_guess_of_suggestion
    (h : ∃ g ∈ suggestions r, n ∈ g.names) :
    (∃ g ∈ guesses r, n ∈ g.names) ∧ ¬ IsLost r n := by
  obtain ⟨g, hg, hn⟩ := h
  have hguess := mem_of_mem_suggestions hg
  refine ⟨⟨g, hguess, hn⟩, fun hlost => ?_⟩
  obtain ⟨c, hc, rfl⟩ := hlost.exists_special
  have hplural := (isPlural_of_special (mem_of_specialCollection? hc)).1
  have hne : c ≠ c ++ "s" := fun h => by simpa using congrArg String.length h
  by_cases hpath : byPath? r = some g
  · exact (mem_suggestions_iff_of_byPath? hpath hlost.resource?_eq).mp hg ⟨c, hc, rfl⟩
  obtain hname : c ++ "s" = g.name := eq_name_of_mem_names hguess hpath hn
  rcases mem_guesses.mp hguess with h | haccount | hverb | hfile
  · exact hpath h
  · obtain ⟨reason, hspecial⟩ := byAccountWords?_of_special hc
    obtain rfl := Option.some.inj (haccount.symm.trans hspecial)
    exact hne hname.symm
  · obtain ⟨-, segment, hsegment, hk, -⟩ := exists_of_byVerb? hverb
    obtain rfl := Option.some.inj (hsegment.symm.trans hlost.resource?_eq)
    rw [hk, (Inflection.singular_eq_iff hplural).mpr rfl,
      Inflection.plural_eq_self hplural] at hname
    exact hne hname.symm
  · exact hlost.name_ne g hfile hname.symm

theorem exists_suggestion_of_name
    (hg : g ∈ guesses r)
    (hn : n = g.name) :
    ∃ k ∈ suggestions r, n ∈ k.names := by
  obtain ⟨k, hk, hname⟩ := exists_suggestion hg
  exact ⟨k, hk, (Guess.mem_names k).mpr (Or.inl (hn.trans hname.symm))⟩

/-- Each name that is not lost is one of a suggestion. -/
theorem exists_suggestion_of_guess
    (h : ∃ g ∈ guesses r, n ∈ g.names)
    (hlost : ¬ IsLost r n) :
    ∃ g ∈ suggestions r, n ∈ g.names := by
  obtain ⟨g, hg, hn⟩ := h
  by_cases hpath : byPath? r = some g
  · obtain ⟨segment, hsegment, hname, -, hnames⟩ := exists_of_byPath? hpath
    rcases (hnames n).mp hn with hn | rfl | hn
    · exact exists_suggestion_of_name hg (hn.trans hname.symm)
    · by_cases hmem : g ∈ suggestions r
      · exact ⟨g, hmem, hn⟩
      · rw [mem_suggestions_iff_of_byPath? hpath hsegment, not_not] at hmem
        obtain ⟨k, hfile, hk⟩ : ∃ k, byFile? r.filePath = some k ∧ k.name = n := by
          by_contra hnone
          exact hlost ⟨hsegment, hmem, fun k hk hname => hnone ⟨k, hk, hname⟩⟩
        exact exists_suggestion_of_name
          (mem_guesses.mpr (Or.inr (Or.inr (Or.inr hfile)))) hk.symm
    · obtain ⟨k, hverb⟩ := exists_byVerb? hsegment
      obtain ⟨-, found, hfound, hk, -⟩ := exists_of_byVerb? hverb
      obtain rfl := Option.some.inj (hsegment.symm.trans hfound)
      exact exists_suggestion_of_name
        (mem_guesses.mpr (Or.inr (Or.inr (Or.inl hverb)))) (hn.trans hk.symm)
  · exact exists_suggestion_of_name hg (eq_name_of_mem_names hg hpath hn)

/-- All names that the strategies can say: three of the resource, the collection of the accounts
and the one of the file. -/
def possibleNames (r : Route) : List String :=
  (resource? r.path).toList.flatMap (fun s =>
    [Inflection.singular s, s, Inflection.plural (Inflection.singular s)]) ++
    (byAccountWords? r).toList.map Guess.name ++ (byFile? r.filePath).toList.map Guess.name

theorem length_possibleNames (r : Route) : (possibleNames r).length ≤ Guess.maxAlternatives := by
  simp only [possibleNames, Guess.maxAlternatives, List.length_append, List.length_map]
  have hresource : ((resource? r.path).toList.flatMap fun s =>
      [Inflection.singular s, s, Inflection.plural (Inflection.singular s)]).length ≤ 3 := by
    cases resource? r.path <;> simp
  have haccount : (byAccountWords? r).toList.length ≤ 1 := by
    cases byAccountWords? r <;> simp
  have hfile : (byFile? r.filePath).toList.length ≤ 1 := by
    cases byFile? r.filePath <;> simp
  omega

theorem mem_possibleNames
    (hg : g ∈ guesses r)
    (hn : n ∈ g.names) :
    n ∈ possibleNames r := by
  simp only [possibleNames, List.mem_append, List.mem_flatMap, List.mem_map, Option.mem_toList]
  by_cases hpath : byPath? r = some g
  · obtain ⟨segment, hsegment, -, -, hnames⟩ := exists_of_byPath? hpath
    exact Or.inl (Or.inl ⟨segment, hsegment, by simpa using (hnames n).mp hn⟩)
  obtain rfl := eq_name_of_mem_names hg hpath hn
  rcases mem_guesses.mp hg with h | haccount | hverb | hfile
  · exact absurd h hpath
  · exact Or.inl (Or.inr ⟨g, haccount, rfl⟩)
  · obtain ⟨-, segment, hsegment, hname, -⟩ := exists_of_byVerb? hverb
    exact Or.inl (Or.inl ⟨segment, hsegment, by simp [hname]⟩)
  · exact Or.inr ⟨g, hfile, rfl⟩

/-- The candidates are the names of the suggestions. -/
theorem mem_names_best
    (h : suggestions r ≠ []) :
    (best r).alternatives.length < Guess.maxAlternatives ∧
      ∀ n, n ∈ (best r).names ↔ ∃ g ∈ suggestions r, n ∈ g.names :=
  Guess.mem_names_combine h
    (fun _ hg _ hn => mem_possibleNames (mem_of_mem_suggestions hg) hn) (length_possibleNames r)

theorem guesses_ne_nil_iff (r : Route) : guesses r ≠ [] ↔ suggestions r ≠ [] := by
  constructor
  · intro h
    obtain ⟨g, hg⟩ := List.exists_mem_of_ne_nil _ h
    obtain ⟨k, hk, -⟩ := exists_suggestion hg
    exact List.ne_nil_of_mem hk
  · intro h
    obtain ⟨g, hg⟩ := List.exists_mem_of_ne_nil _ h
    exact List.ne_nil_of_mem (mem_of_mem_suggestions hg)

theorem pairwise_suggestions (r : Route) :
    (suggestions r).Pairwise fun a b => b.confidence ≤ a.confidence := by
  have hfalling := (Guess.pairwise_ranked (guesses r)).sublist
    (Guess.firstOfEachName_sublist (Guess.ranked (guesses r)))
  refine hfalling.imp_of_mem fun {a b} ha hb h => ?_
  exact Decimal.le_of_descending (isNaN_confidence (mem_of_mem_suggestions ha))
    (isNaN_confidence (mem_of_mem_suggestions hb)) h

/-- The candidates of a route are the names that its strategies find, each once and all but the
lost one, with the name of the surest guess in front.  Without any guess there is one name that
nothing speaks for. -/
theorem mem_names_best_iff (r : Route) :
    (suggestions r).Pairwise (fun a b => b.confidence ≤ a.confidence) ∧
      ((suggestions r).map Guess.name).Nodup ∧
      (best r).names.Nodup ∧
      ((∃ first rest, suggestions r = first :: rest ∧
          (best r).name = first.name ∧ (best r).confidence = first.confidence ∧
          (best r).alternatives.length < Guess.maxAlternatives ∧
          ∀ n, n ∈ (best r).names ↔ (∃ g ∈ guesses r, n ∈ g.names) ∧ ¬ IsLost r n) ∨
        guesses r = [] ∧ suggestions r = [] ∧
          (best r).names = ["unknown"] ∧ (best r).confidence = 0.0) := by
  refine ⟨pairwise_suggestions r, Guess.nodup_map_name_firstOfEachName _,
    Guess.nodup_names_combine _, ?_⟩
  cases hsuggestions : suggestions r with
  | nil =>
      have hguesses : guesses r = [] := by
        by_contra h
        exact (guesses_ne_nil_iff r).mp h hsuggestions
      have hbest : best r = Guess.unknown := by
        rw [best, hsuggestions]
        rfl
      have hzero : Guess.unknown.confidence = 0.0 := rfl
      rw [hbest]
      exact Or.inr ⟨hguesses, rfl, rfl, hzero⟩
  | cons first rest =>
      have hne : suggestions r ≠ [] := by
        rw [hsuggestions]
        exact List.cons_ne_nil first rest
      obtain ⟨hfits, hnames⟩ := mem_names_best hne
      have hbest : best r = Guess.combine (first :: rest) := by rw [best, hsuggestions]
      refine Or.inl ⟨first, rest, rfl, ?_, ?_, hfits, fun n => ?_⟩
      · rw [hbest]
        rfl
      · rw [hbest]
        rfl
      · rw [hnames n]
        exact ⟨exists_guess_of_suggestion, fun h => exists_suggestion_of_guess h.1 h.2⟩

end Kept

/-- What is lost is a name that some strategy finds. -/
theorem IsLost.exists_guess (h : IsLost r n) : ∃ g ∈ guesses r, n ∈ g.names := by
  obtain ⟨g, hg⟩ := exists_byPath? h.resource?_eq
  obtain ⟨segment, hsegment, -, -, hnames⟩ := exists_of_byPath? hg
  obtain rfl := Option.some.inj (hsegment.symm.trans h.resource?_eq)
  exact ⟨g, mem_guesses.mpr (Or.inl hg), (hnames segment).mpr (Or.inr (Or.inl rfl))⟩

theorem IsLost.not_mem_names_best (h : IsLost r n) : n ∉ (best r).names := by
  obtain ⟨g, hg, -⟩ := h.exists_guess
  have hne : suggestions r ≠ [] := (guesses_ne_nil_iff r).mp (List.ne_nil_of_mem hg)
  rw [(mem_names_best hne).2 n]
  exact fun hn => (exists_guess_of_suggestion hn).2 h

/-- Somebody logs in at a resource that reads as the plural of `users`. -/
def pluralLogin : Route where
  verb := .post
  path := "/userss/login"
  filePath := "app.js"
  line := 1
  handler := "h"
  middlewares := []
  routerPrefix := none
  controllerFile := none
  controllerFunction := none
  inlineSpan := none

theorem isLost_pluralLogin : IsLost pluralLogin "userss" := by
  have hfile : (byFile? pluralLogin.filePath).isNone = true := by decide +kernel
  refine ⟨by decide +kernel, ⟨"users", by decide +kernel, by decide +kernel⟩, ?_⟩
  intro g hg
  rw [hg] at hfile
  cases hfile

/-- One name is lost. -/
theorem not_forall_mem_names_best :
    ¬ ∀ (r : Route) (n : String), (∃ g ∈ guesses r, n ∈ g.names) → n ∈ (best r).names :=
  fun hall => isLost_pluralLogin.not_mem_names_best
    (hall pluralLogin "userss" isLost_pluralLogin.exists_guess)

end Naming
end EndpointPayload
