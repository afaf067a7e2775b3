import EndpointPayload.Proofs.Store.Sampler

/-!
# Stores that answer nothing

Every reading of a store starts with the names of its collections.  Where these cannot be had, no
collection is sampled, none is searched for ids, and the reading gives the same empty result as
without any store.
-/

namespace EndpointPayload

namespace Store

/-- Whatever was asked before, every query fails.  A ping may be answered, or else the store would
not be attached. -/
def IsDown (s : Store) : Prop :=
  ∀ log q, q ≠ .ping → ∃ e, s.answer log q = .error e

end Store

section Down

open Session

variable {store : Option Store}

/-- Without a store, or with one that is down, an attempt to ask fails. -/
theorem Session.not_grants_ask
    (hdown : ∀ s ∈ store, s.IsDown)
    {q : Query}
    (hq : q ≠ .ping) :
    Grants store (ask q) fun _ => False := by
  refine (grants_ask q).mono fun r hr => ?_
  obtain ⟨s, log, hs, hr⟩ := hr
  obtain ⟨e, he⟩ := hdown s hs log q hq
  rw [he] at hr
  cases hr

theorem Sampler.yields_collectionNames_nil (hdown : ∀ s ∈ store, s.IsDown) :
    Yields store collectionNames (· = []) := by
  have hfail : Grants store (ask .collectionNames) fun names => names = ([] : List String) :=
    (not_grants_ask hdown Query.noConfusion).mono fun _ h => h.elim
  refine Yields.bind (yields_orElse (P := (· = ([] : List String))) rfl hfail)
    fun names hnames => yields_pure ?_
  subst hnames
  simp

/-- No collection is searched for ids. -/
theorem Resolution.yields_suggestions_nil
    (hdown : ∀ s ∈ store, s.IsDown)
    (field : String)
    (source : Option String)
    (limit : Nat) :
    Yields store (ofField field source limit) fun r => r.suggestions = [] := by
  refine Yields.bind (Sampler.yields_collectionNames_nil hdown) fun existing hexisting => ?_
  subst hexisting
  have hsearched : searched field [] = [] := by simp [searched]
  simp only [hsearched, List.mapM_nil, pure_bind]
  exact yields_pure (by simp [ranked])

/-- No collection is sampled. -/
theorem CollectionSample.yields_none
    (hdown : ∀ s ∈ store, s.IsDown)
    (guess : Guess)
    (options : ForecastOptions) :
    Yields store (ofGuess guess options) (· = none) := by
  refine Yields.bind (Sampler.yields_collectionNames_nil hdown) fun existing hexisting => ?_
  subst hexisting
  have hmatching : matching? guess [] = Option.none := by simp [matching?, named?]
  rw [hmatching]
  exact yields_pure rfl

end Down

end EndpointPayload
