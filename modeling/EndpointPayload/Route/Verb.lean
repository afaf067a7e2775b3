import EndpointPayload.Failure

/-!
# HTTP verbs

The verbs that a registration can use.  Their names are read in any letter case.
-/

namespace EndpointPayload

inductive Verb where
  | get
  | post
  | put
  | delete
  | patch
  | head
  | options
  deriving DecidableEq, Repr

namespace Verb

def all : List Verb := [get, post, put, delete, patch, head, options]

def name : Verb → String
  | get => "GET"
  | post => "POST"
  | put => "PUT"
  | delete => "DELETE"
  | patch => "PATCH"
  | head => "HEAD"
  | options => "OPTIONS"

/-- The verb of a name in any letter case. -/
def ofName? (s : String) : Option Verb :=
  all.find? fun v => v.name = s.map Char.toUpper

/-- The verb of a name, or why there is none. -/
def read (s : String) : Except Failure Verb :=
  match ofName? s with
  | some v => .ok v
  | none => .error (.invalidRoute ("unknown HTTP method '" ++ s ++ "'"))

/-- Every verb but `HEAD` and `OPTIONS`. -/
def isStandard : Verb → Bool
  | head | options => false
  | _ => true

/-- Whether a request with the verb makes a new resource. -/
def isCreate : Verb → Bool
  | post => true
  | _ => false

theorem ofName?_name (v : Verb) : ofName? v.name = some v := by
  cases v <;> decide +kernel

end Verb
end EndpointPayload
