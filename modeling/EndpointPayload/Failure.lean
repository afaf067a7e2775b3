/-!
# Failures

What can go wrong, as causes; `Failure.message` has their wording.
-/

namespace EndpointPayload

/-- Why an operation failed. -/
inductive Failure where
  /-- A file could not be read. -/
  | io
  /-- A text is no JSON, or JSON of another shape. -/
  | json
  | unsupportedLanguage (path : String)
  | syntaxError (path : String) (line : Nat)
  | invalidRoute (reason : String)
  | store (reason : String)
  | storeUnavailable
  | completion (reason : String)
  | config (reason : String)
  deriving DecidableEq, Repr

namespace Failure

def message : Failure → String
  | io => "I/O error"
  | json => "JSON error"
  | unsupportedLanguage path => "unsupported source language: " ++ path
  | syntaxError path line => "syntax error in " ++ path ++ " at line " ++ toString line
  | invalidRoute reason => "invalid route: " ++ reason
  | store reason => "data store error: " ++ reason
  | storeUnavailable => "data store unavailable"
  | completion reason => "completion error: " ++ reason
  | config reason => "invalid configuration: " ++ reason

end Failure
end EndpointPayload
