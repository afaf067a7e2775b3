import EndpointPayload.Proofs.Document.NewValues
import EndpointPayload.Proofs.Json.Same
import EndpointPayload.Proofs.Store.Outcome
import EndpointPayload.Store.Sampler

/-!
# Samplers over stores in memory

A store in memory answers every query with what its documents say, so an attempt that asks it ends
with a value: `Session.Gives` says so, with one rule for each way of building an attempt.  The query
for the values of a field leaves documents without it aside and drops nulls at the end; looking
through all documents drops them at once.  Both give the same values in the same order.
-/

namespace EndpointPayload

namespace Session

variable {α β : Type} {store : Option Store} {P : α → Prop} {Q : β → Prop}

/-- An attempt gives a value with a property; it neither fails nor stops, whatever was asked
before. -/
def Gives (store : Option Store) (attempt : Attempt α) (P : α → Prop) : Prop :=
  Yields store attempt.run fun r => ∃ a, r = .ok a ∧ P a

theorem gives_pure {a : α} (h : P a) : Gives store (pure a) P := yields_pure ⟨a, rfl, h⟩

theorem Gives.bind {attempt : Attempt α} {next : α → Attempt β}
    (h : Gives store attempt P)
    (hnext : ∀ a, P a → Gives store (next a) Q) :
    Gives store (attempt >>= next) Q := by
  rw [Gives, ExceptT.run_bind]
  refine Yields.bind h fun r hr => ?_
  obtain ⟨a, rfl, ha⟩ := hr
  exact hnext a ha

theorem Gives.mono {R : α → Prop} {attempt : Attempt α}
    (h : Gives store attempt P)
    (himp : ∀ a, P a → R a) :
    Gives store attempt R :=
  Yields.mono h fun _ hr => hr.imp fun a ha => ⟨ha.1, himp a ha.2⟩

theorem Gives.ite
    {c : Prop}
    [Decidable c]
    {yes no : Attempt α}
    (hyes : c → Gives store yes P)
    (hno : ¬ c → Gives store no P) :
    Gives store (if c then yes else no) P := by
  by_cases hc : c
  · rw [if_pos hc]
    exact hyes hc
  · rw [if_neg hc]
    exact hno hc

/-- An attempt that does not fail needs no value in place of a failure. -/
theorem Gives.orElse {attempt : Attempt α} (h : Gives store attempt P) (default : α) :
    Yields store (orElse default attempt) P := by
  refine Yields.bind h fun r hr => ?_
  obtain ⟨a, rfl, ha⟩ := hr
  exact yields_pure ha

/-- A session inside an attempt does not fail. -/
theorem Yields.gives {session : Session α} (h : Yields store session P) :
    Gives store (liftM session : Attempt α) P :=
  Yields.bind (Q := fun r : Except Failure α => ∃ a, r = .ok a ∧ P a) h fun _ ha =>
    yields_pure ⟨_, rfl, ha⟩

/-- An attempt that gets to a stop has no result. -/
theorem Gives.bind_stops {attempt : Attempt α} {next : α → Attempt β}
    (h : Gives store attempt P)
    (hnext : ∀ a, P a → Stops store (next a).run) :
    Stops store (attempt >>= next).run := by
  rw [ExceptT.run_bind]
  refine Yields.bind_stops h fun r hr => ?_
  obtain ⟨a, rfl, ha⟩ := hr
  exact hnext a ha

theorem Stops.bind_lift {session : Session α} (h : Stops store session) (next : α → Attempt β) :
    Stops store ((liftM session : Attempt α) >>= next).run := by
  rw [ExceptT.run_bind]
  exact (h.bind _).bind _

/-- A store in memory answers with what its documents say. -/
theorem gives_ask_store
    (m : MemoryStore)
    (keys : Nat → Nat)
    (draw : List Query → Nat)
    (q : Query) :
    Gives (some (m.store keys draw)) (ask q) (· = m.answer keys q) :=
  fun _ => ⟨_, rfl, _, rfl, rfl⟩

/-- Asked for all documents, it gives them in their order. -/
theorem gives_ask_all
    (m : MemoryStore)
    (keys : Nat → Nat)
    (draw : List Query → Nat)
    (collection : String)
    (skip limit : Nat) :
    Gives (some (m.store keys draw)) (ask (.find collection .all skip limit))
      (· = ((m.documents collection).drop skip).take limit) := by
  have hall : (m.documents collection).filter Filter.all.accepts = m.documents collection :=
    List.filter_eq_self.mpr fun _ _ => rfl
  refine (gives_ask_store m keys draw (.find collection .all skip limit)).mono ?_
  rintro _ rfl
  rw [MemoryStore.answer, hall]

end Session

namespace MemoryStore

variable {m : MemoryStore} {name : String} {names : List String}

/-- The names of the collections of the user, in order. -/
def liveNames (m : MemoryStore) : List String :=
  ((m.collections.map Prod.fst).filter fun n => !n.startsWith "system.").mergeSort
    fun a b => decide (a ≤ b)

theorem mem_liveNames :
    name ∈ m.liveNames ↔
      (∃ c ∈ m.collections, c.1 = name) ∧ name.startsWith "system." = false := by
  rw [liveNames, List.mem_mergeSort, List.mem_filter, List.mem_map]
  simp

theorem liveNames_eq
    (hkept : ((m.collections.map Prod.fst).filter fun n => !n.startsWith "system.") = names)
    (hsorted : names.Pairwise fun a b => decide (a ≤ b) = true) :
    m.liveNames = names := by
  rw [liveNames, hkept, List.mergeSort_of_pairwise hsorted]

end MemoryStore

namespace Document

variable {path : String} {d : Document}

/-- A document without a value other than null shows at most null. -/
theorem shownAt_of_not_present (h : (Filter.present path).accepts d = false) :
    (d.shownAt path).filter (fun v => !v.isNull) = [] := by
  rw [shownAt]
  cases hat : d.at? path with
  | none => rfl
  | some v =>
      rw [Filter.accepts, hat] at h
      cases v with
      | null => rfl
      | _ => cases h

/-- Leaving the other documents aside changes nothing but nulls. -/
theorem filter_flatMap_shownAt (path : String) (docs : List Document) :
    ((docs.filter (Filter.present path).accepts).flatMap (shownAt path)).filter
        (fun v => !v.isNull) =
      (docs.flatMap (shownAt path)).filter fun v => !v.isNull := by
  induction docs with
  | nil => rfl
  | cons d docs ih =>
      rw [List.flatMap_cons, List.filter_append, ← ih]
      cases h : (Filter.present path).accepts d with
      | true => rw [List.filter_cons_of_pos h, List.flatMap_cons, List.filter_append]
      | false =>
          rw [List.filter_cons_of_neg (by simp [h]), shownAt_of_not_present h, List.nil_append]

end Document

namespace Sampler

open Session Document

variable (m : MemoryStore) (keys : Nat → Nat) (draw : List Query → Nat)

theorem outcome_collectionNames (log : List Query) :
    outcome collectionNames (some (m.store keys draw)) log =
      (some m.liveNames, log ++ [.collectionNames]) := rfl

theorem yields_liveNames :
    Yields (some (m.store keys draw)) collectionNames (· = m.liveNames) :=
  fun log => ⟨_, congrArg Prod.fst (outcome_collectionNames m keys draw log), rfl⟩

/-- The values that a query for a field gives are those that all documents show, up to nulls. -/
theorem filter_distinct (docs : List Document) (field : String) :
    (MemoryStore.distinct (docs.filter (Filter.present field).accepts) field).filter
        (fun v => !v.isNull) =
      ((docs.flatMap (shownAt field)).filter fun v => !v.isNull).eraseDups := by
  have hkeep : ∀ v w : Json, (v == w) = true → (!v.isNull) = !w.isNull :=
    fun v w h => congrArg not (Json.isNull_eq_of_same h)
  rw [MemoryStore.distinct_eq, filter_eraseDups hkeep, filter_flatMap_shownAt]

/-- For every store in memory and every path, the query for up to five values of a field gives what
looking through all documents of the collection does. -/
theorem fieldValues_eq_sampledValues (collection field : String) :
    Yields (some (m.store keys draw)) (fieldValues collection field 5)
      (· = ForecastField.sampledValues (m.documents collection) field) := by
  let query : Query := .distinct collection field (.present field)
  refine Yields.bind ((gives_ask_store m keys draw query).orElse []) ?_
  rintro values rfl
  refine yields_pure ?_
  rw [ForecastField.sampledValues_eq]
  exact congrArg (List.take 5) (filter_distinct (m.documents collection) field)

end Sampler
end EndpointPayload
