import EndpointPayload.Document.Value
import EndpointPayload.Failure

/-!
# Document stores

A store answers queries, and each answer may be a failure.  What it answers may depend on everything
that was asked before, so a `Store` stands for any peer at all: one that loses its documents between
two queries, or one that fails now and then.  A `Session` is a computation that asks the attached
store, if there is one, and keeps a log of what it asked.

A session computes sizes in words of 64 bits.  Where one does not fit the session stops, and what
follows it as well: a failing query has a value in its place, but a stop has none.
-/

namespace EndpointPayload

/-- Which documents a query is about; fields are paths of keys. -/
inductive Filter where
  | all
  /-- The field is there and is not null. -/
  | present (field : String)
  | equals (field : String) (value : Json)
  | oneOf (field : String) (values : List Json)

/-- Sizes of a collection. -/
structure CollectionStats where
  count : Nat
  averageSize : Option Float
  size : Option Nat

/-- What a store can be asked. -/
inductive Query where
  | ping
  | collectionNames
  | count (collection : String)
  | stats (collection : String)
  | find (collection : String) (filter : Filter) (skip limit : Nat)
  /-- Some documents at random. -/
  | sample (collection : String) (size : Nat)
  /-- The different values of a field; arrays stand for their items. -/
  | distinct (collection : String) (field : String) (filter : Filter)

/-- The type of the answers to a query. -/
def Query.Reply : Query → Type
  | ping => Unit
  | collectionNames => List String
  | count _ => Nat
  | stats _ => CollectionStats
  | find _ _ _ _ => List Document
  | sample _ _ => List Document
  | distinct _ _ _ => List Json

/-- A peer that answers queries, given those that it answered before. -/
structure Store where
  answer : List Query → (q : Query) → Except Failure q.Reply
  /-- A number drawn at random after some queries. -/
  draw : List Query → Nat

/-- A computation that may ask the attached store and keeps a log, and that may stop. -/
abbrev Session := ReaderT (Option Store) (OptionT (StateM (List Query)))

/-- A computation that a failing query ends. -/
abbrev Attempt := ExceptT Failure Session

namespace Session

/-- Asks the store.  Without a store the query fails and leaves no trace in the log. -/
def ask (q : Query) : Attempt q.Reply := do
  match ← (read : Session (Option Store)) with
  | none => throw .storeUnavailable
  | some store =>
    let log ← (get : Session (List Query))
    (set (log ++ [q]) : Session Unit)
    liftExcept (store.answer log q)
where
  /-- A known result as a computation. -/
  liftExcept {α : Type} (r : Except Failure α) : Attempt α := ExceptT.mk (pure r)

/-- The result of an attempt, or a value in place of a failure. -/
def orElse {α : Type} (default : α) (attempt : Attempt α) : Session α := do
  match ← attempt.run with
  | .ok a => pure a
  | .error _ => pure default

/-- A number below a bound, drawn at random. -/
def drawBelow (bound : Nat) : Session Nat := do
  match ← (read : Session (Option Store)) with
  | none => pure 0
  | some store => pure (store.draw (← get) % bound)

/-- Ends a session, and whatever would come after it, without a result. -/
def stop {α : Type} : Session α := fun _ => OptionT.fail

/-- A size, if it fits into a word. -/
def word (n : Nat) : Session Nat := if n < UInt64.size then pure n else stop

/-- A difference of sizes, if it is not negative. -/
def difference (a b : Nat) : Session Nat := if b ≤ a then pure (a - b) else stop

/-- The result of a session with a store, unless it stops, and the queries that it asked. -/
def run {α : Type} (session : Session α) (store : Option Store) : Option α × List Query :=
  (ReaderT.run session store).run.run []

end Session
end EndpointPayload
