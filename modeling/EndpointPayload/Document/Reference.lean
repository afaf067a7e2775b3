import EndpointPayload.Collection.Inflection
import EndpointPayload.Text.Split

/-!
# Names of references

A field refers to another collection when its name says so: by an ending after the name of the
thing, or as one of the usual names.
-/

namespace EndpointPayload
namespace Reference

/-- Endings of references. -/
def endings : List String := ["_id", "_ref", "Id", "ID", "Ref", "Ids", "IDs"]

/-- Usual names of references, with the collections they point at. -/
def knownFields : List (String × List String) := [
  ("userId", ["users", "user", "accounts", "profiles"]),
  ("user", ["users", "user", "accounts"]),
  ("authorId", ["users", "authors"]),
  ("author", ["users", "authors"]),
  ("ownerId", ["users", "owners"]),
  ("owner", ["users", "owners"]),
  ("createdBy", ["users"]),
  ("updatedBy", ["users"]),
  ("customerId", ["customers", "users"]),
  ("productId", ["products", "items"]),
  ("orderId", ["orders"]),
  ("categoryId", ["categories"]),
  ("postId", ["posts", "articles"]),
  ("commentId", ["comments"]),
  ("companyId", ["companies", "organizations"]),
  ("organizationId", ["organizations", "orgs"]),
  ("orgId", ["organizations", "orgs"]),
  ("teamId", ["teams"]),
  ("projectId", ["projects"]),
  ("parentId", [])]

/-- The part of a path after its last point. -/
def lastKey (path : String) : String := (Text.split '.' path).getLastD path

/-- The name before an ending, without dashes before that; none if nothing is left. -/
def stemBefore? (field ending : String) : Option String :=
  if ending.toList.isSuffixOf field.toList then
    let front := field.toList.take (field.toList.length - ending.toList.length)
    let stem := (front.reverse.dropWhile fun c => c = '_' || c = '-').reverse
    if stem.isEmpty then none else some (String.ofList stem)
  else none

/-- The name of the thing that a field refers to. -/
def stem? (field : String) : Option String := endings.findSome? (stemBefore? field)

/-- The names that the collection of a thing may have, the likeliest first. -/
def collectionNames (stem : String) : List String :=
  let singular := Inflection.singular stem
  let plural := Inflection.plural singular
  let lower := Text.lower plural
  if lower = plural || lower = singular then [plural, singular] else [plural, singular, lower]

/-- The collections that a field may point at, the likeliest first. -/
def candidates (field : String) : List String :=
  let name := lastKey field
  match knownFields.find? fun k => k.1 = name with
  | some (_, c :: cs) => c :: cs
  | _ => ((stem? name).map collectionNames).getD []

/-- Whether two names are equal, the case of ASCII letters aside. -/
def sameName (a b : String) : Bool := Text.lower a = Text.lower b

end Reference
end EndpointPayload
