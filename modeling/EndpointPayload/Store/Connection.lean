import EndpointPayload.Store.Basic
import EndpointPayload.Text.Quoted

/-!
# Connections

A connection is a handle on at most one live store.  A store is attached only if it answers a ping
in time; a ping that is not answered in time counts as a failure.
-/

namespace EndpointPayload

/-- A handle on the store at an address. -/
structure Connection where
  uri : String
  store : Option Store

namespace Connection

/-- The address used where none is given. -/
def defaultUri : String := "mongodb://localhost:27017"

def isAvailable (c : Connection) : Bool := c.store.isSome

/-- Attaches a store that answers, and else leaves nothing attached; gives the queries asked. -/
def attach (c : Connection) (store : Store) : Connection × List Query :=
  let (reply, log) := Session.run (Session.ask .ping).run (some store)
  match reply with
  | some (.ok _) => ({ c with store := some store }, log)
  | _ => ({ c with store := none }, log)

def disconnect (c : Connection) : Connection := { c with store := none }

/-- The connection in words. -/
def describe (c : Connection) : String :=
  "Connection \x7b uri: " ++ Text.quoted c.uri ++ ", available: " ++
    (if c.isAvailable then "true" else "false") ++ " \x7d"

end Connection
end EndpointPayload
