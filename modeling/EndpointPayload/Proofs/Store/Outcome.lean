import EndpointPayload.Store.Basic
import Mathlib.Tactic

/-!
# Outcomes of sessions

`Session.Yields store session P` says that the session gives a value, and one with `P`, when it runs
against the store, whatever was asked before: a session that may stop does not yield anything.
`Session.Stops` says that it stops in each case, and `Session.YieldsUnless` puts the two together
with the condition that decides.  There is one rule for each way of building a session, so what a
session yields is read off its parts.  `Session.Grants` is the same for attempts, which may fail: it
speaks of the value only where there is one.
-/

namespace EndpointPayload
namespace Session

variable {α β : Type}

/-- The value and the log of a session that starts after some queries; without a value it stops. -/
def outcome (session : Session α) (store : Option Store) (log : List Query) :
    Option α × List Query :=
  (ReaderT.run session store).run.run log

/-- A session gives a value with a property, whatever was asked before. -/
def Yields (store : Option Store) (session : Session α) (P : α → Prop) : Prop :=
  ∀ log, ∃ a, (outcome session store log).1 = some a ∧ P a

/-- A session gives no value, whatever was asked before. -/
def Stops (store : Option Store) (session : Session α) : Prop :=
  ∀ log, (outcome session store log).1 = none

/-- A session stops under a condition, and else gives a value with a property. -/
structure YieldsUnless (store : Option Store) (session : Session α) (c : Prop) (P : α → Prop) :
    Prop where
  stops : c → Stops store session
  yields : ¬ c → Yields store session P

/-- An attempt gives a value with a property, or fails; it does not stop. -/
def Grants (store : Option Store) (attempt : Attempt α) (P : α → Prop) : Prop :=
  Yields store attempt.run fun r => ∀ a, r = .ok a → P a

section Rules

variable {store : Option Store} {P : α → Prop} {Q : β → Prop}

theorem outcome_bind (session : Session α) (next : α → Session β) (log : List Query) :
    outcome (session >>= next) store log =
      (match (outcome session store log).1 with
        | some a => outcome (next a) store
        | none => fun log => (none, log)) (outcome session store log).2 := rfl

theorem outcome_bind_of_some
    {session : Session α}
    {log : List Query}
    {a : α}
    (h : (outcome session store log).1 = some a)
    (next : α → Session β) :
    outcome (session >>= next) store log =
      outcome (next a) store (outcome session store log).2 := by
  rw [outcome_bind, h]

/-- What would come after a stop does not happen. -/
theorem outcome_bind_of_none
    {session : Session α}
    {log : List Query}
    (h : (outcome session store log).1 = none)
    (next : α → Session β) :
    (outcome (session >>= next) store log).1 = none := by
  rw [outcome_bind, h]

theorem run_eq_outcome (session : Session α) (store : Option Store) :
    Session.run session store = outcome session store [] := rfl

/-- What a session yields, its run gives. -/
theorem Yields.run {session : Session α} (h : Yields store session P) :
    ∃ a, (Session.run session store).1 = some a ∧ P a :=
  h []

/-- What a run gives, the session yields. -/
theorem Yields.of_run
    {session : Session α}
    (h : Yields store session P)
    {a : α}
    (ha : (Session.run session store).1 = some a) :
    P a := by
  obtain ⟨b, hb, hP⟩ := h.run
  rw [ha] at hb
  cases hb
  exact hP

theorem Stops.run {session : Session α} (h : Stops store session) :
    (Session.run session store).1 = none :=
  h []

theorem yields_pure {a : α} (h : P a) : Yields store (pure a) P :=
  fun _ => ⟨a, rfl, h⟩

theorem Yields.bind {session : Session α} {next : α → Session β}
    (h : Yields store session P)
    (hnext : ∀ a, P a → Yields store (next a) Q) :
    Yields store (session >>= next) Q := by
  intro log
  obtain ⟨a, ha, hP⟩ := h log
  rw [outcome_bind_of_some ha]
  exact hnext a hP _

theorem Yields.mono {R : α → Prop} {session : Session α}
    (h : Yields store session P)
    (himp : ∀ a, P a → R a) :
    Yields store session R :=
  fun log => (h log).imp fun a ha => ⟨ha.1, himp a ha.2⟩

theorem Yields.and
    {R : α → Prop}
    {session : Session α}
    (h : Yields store session P)
    (h' : Yields store session R) :
    Yields store session fun a => P a ∧ R a := by
  intro log
  obtain ⟨a, ha, hP⟩ := h log
  obtain ⟨b, hb, hR⟩ := h' log
  rw [ha] at hb
  cases hb
  exact ⟨a, ha, hP, hR⟩

/-- A session for each item of a list gives a value for each item. -/
theorem yields_mapM {R : α → β → Prop} {next : α → Session β} :
    ∀ xs : List α, (∀ x, x ∈ xs → Yields store (next x) (R x)) →
      Yields store (xs.mapM next) fun ys => List.Forall₂ R xs ys
  | [], _ => yields_pure .nil
  | x :: xs, h => by
      rw [List.mapM_cons]
      refine Yields.bind (h x (by simp)) fun y hy => ?_
      refine Yields.bind (yields_mapM xs fun z hz => h z (List.mem_cons_of_mem _ hz))
        fun ys hys => ?_
      exact yields_pure (.cons hy hys)

theorem yields_orElse {default : α} {attempt : Attempt α}
    (hdefault : P default)
    (h : Grants store attempt P) :
    Yields store (orElse default attempt) P := by
  refine Yields.bind h fun r hr => ?_
  cases r with
  | ok a => exact yields_pure (hr a rfl)
  | error e => exact yields_pure hdefault

theorem grants_pure {a : α} (h : P a) : Grants store (pure a) P := by
  refine yields_pure fun b hb => ?_
  cases hb
  exact h

theorem Grants.bind {attempt : Attempt α} {next : α → Attempt β}
    (h : Grants store attempt P)
    (hnext : ∀ a, P a → Grants store (next a) Q) :
    Grants store (attempt >>= next) Q := by
  rw [Grants, ExceptT.run_bind]
  refine Yields.bind h fun r hr => ?_
  cases r with
  | ok a => exact hnext a (hr a rfl)
  | error e => exact yields_pure fun b hb => by cases hb

theorem Grants.ite
    {c : Prop}
    [Decidable c]
    {yes no : Attempt α}
    (hyes : c → Grants store yes P)
    (hno : ¬ c → Grants store no P) :
    Grants store (if c then yes else no) P := by
  by_cases hc : c
  · rw [if_pos hc]
    exact hyes hc
  · rw [if_neg hc]
    exact hno hc

/-- A session inside an attempt. -/
theorem Yields.lift {session : Session α} (h : Yields store session P) :
    Grants store (liftM session : Attempt α) P := by
  refine Yields.bind (Q := fun r : Except Failure α => ∀ a, r = .ok a → P a) h fun a ha => ?_
  refine yields_pure fun b hb => ?_
  cases hb
  exact ha

theorem Grants.mono {R : α → Prop} {attempt : Attempt α}
    (h : Grants store attempt P)
    (himp : ∀ a, P a → R a) :
    Grants store attempt R :=
  Yields.mono h fun _ hr a ha => himp a (hr a ha)

/-- A query does not stop a session, and what it gives is an answer of the store. -/
theorem grants_ask (q : Query) :
    Grants store (ask q) fun r => ∃ s log, store = some s ∧ s.answer log q = .ok r := by
  cases store with
  | none =>
      exact fun log => ⟨.error .storeUnavailable, rfl, fun a ha => by cases ha⟩
  | some s =>
      exact fun log => ⟨s.answer log q, rfl, fun a ha => ⟨s, log, rfl, ha⟩⟩

theorem grants_ask_true (q : Query) : Grants store (ask q) fun _ => True :=
  (grants_ask q).mono fun _ _ => trivial

theorem yields_drawBelow {bound : Nat} (h : 0 < bound) :
    Yields store (drawBelow bound) (· < bound) := by
  intro log
  cases store with
  | none => exact ⟨0, rfl, h⟩
  | some s => exact ⟨_, rfl, Nat.mod_lt _ h⟩

end Rules

section Stops

variable {store : Option Store} {P : α → Prop} {Q : β → Prop} {c : Prop}

theorem Stops.bind {session : Session α} (h : Stops store session) (next : α → Session β) :
    Stops store (session >>= next) :=
  fun log => outcome_bind_of_none (h log) next

theorem Yields.bind_stops {session : Session α} {next : α → Session β}
    (h : Yields store session P)
    (hnext : ∀ a, P a → Stops store (next a)) :
    Stops store (session >>= next) := by
  intro log
  obtain ⟨a, ha, hP⟩ := h log
  rw [outcome_bind_of_some ha]
  exact hnext a hP _

theorem stops_orElse {attempt : Attempt α} (h : Stops store attempt.run) (default : α) :
    Stops store (orElse default attempt) :=
  Stops.bind h _

theorem yields_word {n : Nat} (h : n < 2 ^ 64) : Yields store (word n) (· = n) := by
  have hfits : n < UInt64.size := h
  rw [word, if_pos hfits]
  exact yields_pure rfl

theorem stops_word {n : Nat} (h : 2 ^ 64 ≤ n) : Stops store (word n) := by
  have hlarge : ¬ n < UInt64.size := Nat.not_lt.mpr h
  rw [word, if_neg hlarge]
  exact fun _ => rfl

theorem yields_difference {a b : Nat} (h : b ≤ a) : Yields store (difference a b) (· = a - b) := by
  rw [difference, if_pos h]
  exact yields_pure rfl

theorem YieldsUnless.mono {R : α → Prop} {session : Session α}
    (h : YieldsUnless store session c P)
    (himp : ∀ a, P a → R a) :
    YieldsUnless store session c R :=
  ⟨h.stops, fun hc => (h.yields hc).mono himp⟩

/-- Where it is known that a session does not stop, so is the value. -/
theorem Yields.bind_unless {session : Session α} {next : α → Session β}
    (h : Yields store session P)
    (hnext : ∀ a, P a → YieldsUnless store (next a) c Q) :
    YieldsUnless store (session >>= next) c Q :=
  ⟨fun hc => h.bind_stops fun a ha => (hnext a ha).stops hc,
    fun hc => h.bind fun a ha => (hnext a ha).yields hc⟩

theorem YieldsUnless.bind {session : Session α} {next : α → Session β}
    (h : YieldsUnless store session c P)
    (hnext : ∀ a, P a → Yields store (next a) Q) :
    YieldsUnless store (session >>= next) c Q :=
  ⟨fun hc => (h.stops hc).bind next, fun hc => (h.yields hc).bind hnext⟩

/-- A list of sessions stops where the first of them does that stops. -/
theorem stops_mapM {next : α → Session β} {stopsAt : α → Prop} :
    ∀ xs : List α, (∀ x ∈ xs, YieldsUnless store (next x) (stopsAt x) fun _ => True) →
      (∃ x ∈ xs, stopsAt x) → Stops store (xs.mapM next)
  | [], _, h => by simp at h
  | x :: xs, hnext, h => by
      rw [List.mapM_cons]
      by_cases hx : stopsAt x
      · exact ((hnext x List.mem_cons_self).stops hx).bind _
      · have hrest : ∃ y ∈ xs, stopsAt y := by
          obtain ⟨y, hy, hstops⟩ := h
          rcases List.mem_cons.mp hy with rfl | hy
          · exact absurd hstops hx
          · exact ⟨y, hy, hstops⟩
        refine ((hnext x List.mem_cons_self).yields hx).bind_stops fun y _ => ?_
        exact (stops_mapM xs (fun y hy => hnext y (List.mem_cons_of_mem _ hy)) hrest).bind _

theorem yieldsUnless_mapM
    {next : α → Session β}
    {stopsAt : α → Prop}
    {R : α → β → Prop}
    (xs : List α)
    (h : ∀ x ∈ xs, YieldsUnless store (next x) (stopsAt x) (R x)) :
    YieldsUnless store (xs.mapM next) (∃ x ∈ xs, stopsAt x) fun ys => List.Forall₂ R xs ys where
  stops := stops_mapM xs fun x hx => (h x hx).mono fun _ _ => trivial
  yields hnone := yields_mapM xs fun x hx => (h x hx).yields fun hstops => hnone ⟨x, hx, hstops⟩

end Stops

end Session
end EndpointPayload
