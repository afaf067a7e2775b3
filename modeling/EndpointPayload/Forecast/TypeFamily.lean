import EndpointPayload.Text.Blank
import EndpointPayload.Text.Split

/-!
# Families of types

Names of types that mean the same belong to one family.  Object ids and dates travel as texts, so a
declared text agrees with both.
-/

namespace EndpointPayload
namespace TypeFamily

/-- The family of a type's name. -/
def of (type : String) : String :=
  let t := Text.lower (Text.trim type)
  if ["int", "integer", "float", "double", "decimal", "long"].contains t then "number"
  else if t = "bool" then "boolean"
  else if ["datetime", "timestamp"].contains t then "date"
  else if ["id", "objectid", "object_id", "reference"].contains t then "objectid"
  else if t = "list" then "array"
  else t

/-- Whether a declared type agrees with one of the observed ones, which bars separate. -/
def agree (declared observed : String) : Bool :=
  let d := of declared
  (Text.split '|' observed).any fun t =>
    of t = d || (d = "string" && (of t = "objectid" || of t = "date"))

end TypeFamily
end EndpointPayload
