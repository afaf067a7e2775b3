import EndpointPayload.Collection.Guess
import EndpointPayload.Collection.Inflection
import EndpointPayload.Files.Path
import EndpointPayload.Route.Basic
import EndpointPayload.Text.Split

/-!
# Which collection a route works on

Four strategies look at a route: the first segment of its path that names a resource, segments that
speak of accounts, the verb with that resource, and the name of the file.
-/

namespace EndpointPayload
namespace Naming

/-- Segments that never name a resource. -/
def ignoredSegments : List String :=
  ["api", "v1", "v2", "v3", "admin", "public", "private", "endpoints"]

/-- File names that say nothing about the resource. -/
def genericFileNames : List String := ["index", "routes", "router", "app", "server", "api"]

/-- Directories that say nothing about the resource. -/
def genericDirectories : List String :=
  ["src", "lib", "app", "controllers", "controller", "handlers"]

/-- What a file name may have behind the resource. -/
def fileNameEndings : List String := ["routes", "route", "router", "controller", "ctrl", "handler"]

def commonResources : List String := [
  "users", "products", "orders", "posts", "comments", "categories", "items", "customers",
  "accounts", "articles", "reviews", "carts", "payments", "invoices", "messages", "notifications",
  "tasks", "projects", "events", "files", "images", "tags", "teams", "companies", "employees",
  "books", "courses", "students", "transactions"]

/-- Segments about accounts and sessions, with their collection. -/
def specialSegments : List (String × String) := [
  ("login", "users"), ("signup", "users"), ("register", "users"), ("auth", "users"),
  ("me", "users"), ("account", "users"), ("password", "users"), ("verify", "users"),
  ("logout", "sessions"), ("session", "sessions"), ("sessions", "sessions"),
  ("token", "sessions"), ("refresh", "sessions"), ("profile", "profiles")]

def accountWords : List String := ["auth", "login", "signup", "signin", "register", "logout"]

/-- The segments of a path. -/
def segments (path : String) : List String := (Text.split '/' path).filter fun s => s ≠ ""

/-- Whether a segment stands for any text. -/
def isParameter (segment : String) : Bool :=
  match segment.toList with
  | c :: _ => c = ':' || c = '*' || c = '\x7b'
  | [] => false

/-- The first segment that names a resource. -/
def resource? (path : String) : Option String :=
  (segments path).find? fun s => !isParameter s && !ignoredSegments.contains (Text.lower s)

/-- Whether a parameter of the path speaks of an id. -/
def hasIdParameter (path : String) : Bool :=
  (segments path).any fun s => isParameter s && Text.occursIn "id" (Text.lower s)

/-- By the resource in the path. -/
def byPath? (r : Route) : Option Guess :=
  (resource? r.path).map fun segment =>
    let lower := Text.lower segment
    let name := Inflection.singular segment
    let isCommon :=
      commonResources.contains lower || commonResources.contains (Inflection.plural lower)
    let isPlural := Inflection.isPlural segment
    let confidence : Float := if isCommon then 0.5 + 0.3 else 0.5
    let confidence := if isPlural then confidence + 0.2 else confidence
    let confidence := if r.verb.isStandard then confidence + 0.1 else confidence
    let reasons := ["path segment '" ++ segment ++ "'"] ++
      (if isCommon then ["common resource name"] else []) ++
      (if isPlural then ["plural segment"] else [])
    (Guess.make name confidence (", ".intercalate reasons)).withAlternatives
      [segment, Inflection.plural name]

/-- By segments that speak of accounts. -/
def byAccountWords? (r : Route) : Option Guess :=
  let lower := Text.lower r.path
  let special := (segments lower).findSome? fun s =>
    (specialSegments.find? fun p => p.1 = s).map fun p =>
      Guess.make p.2 0.8 ("'" ++ s ++ "' routes belong to " ++ p.2)
  match special with
  | some g => some g
  | none =>
    if (accountWords.any fun w => Text.occursIn w lower) ||
        (r.verb = .post && Text.occursIn "password" lower) then
      some (Guess.make "users" 0.7 "authentication-related path")
    else none

/-- By the verb and the resource. -/
def byVerb? (r : Route) : Option Guess :=
  (resource? r.path).map fun segment =>
    let name := Inflection.plural (Inflection.singular segment)
    let onSegment := r.verb.name ++ " on '" ++ segment ++ "'"
    let plain := Guess.make name 0.3 onSegment
    let byId := Guess.make name (0.3 + 0.2) (onSegment ++ ", single-document access by id")
    let creating := Guess.make name (0.3 + 0.2) (onSegment ++ ", creates into a collection")
    match r.verb, hasIdParameter r.path with
    | .get, true | .put, true | .patch, true | .delete, true => byId
    | .post, false => creating
    | _, _ => plain

/-- The name without the first ending it has, and without dashes before that. -/
def withoutEnding (stem : String) : String :=
  let lower := (Text.lower stem).toList
  match fileNameEndings.find? fun e => e.length < lower.length && e.toList.isSuffixOf lower with
  | some e =>
    let front := stem.toList.take (lower.length - e.length)
    String.ofList (front.reverse.dropWhile fun c => c = '-' || c = '_').reverse
  | none => stem

/-- The nearest of the last three components that names a directory of its own. -/
def ownDirectory? (path : String) : Option String :=
  let nearest := ((Path.components path).reverse.take 3).filterMap fun c =>
    match c with
    | .name n => some n
    | _ => none
  nearest.find? fun n =>
    !(genericFileNames ++ genericDirectories ++ ignoredSegments).contains (Text.lower n)

/-- By the name of the file, or of a directory when the file's name says nothing. -/
def byFile? (path : String) : Option Guess :=
  match Path.fileName? path with
  | none => none
  | some name =>
    let own := withoutEnding ((Text.split '.' name).headD "")
    if own ≠ "" && !genericFileNames.contains (Text.lower own) then
      some (Guess.make own 0.4 ("declared in '" ++ path ++ "'"))
    else
      ((Path.parent? path).bind ownDirectory?).map fun d =>
        Guess.make d 0.4 ("declared under directory '" ++ d ++ "'")

/-- What each strategy says. -/
def guesses (r : Route) : List Guess :=
  [byPath? r, byAccountWords? r, byVerb? r, byFile? r.filePath].filterMap id

/-- The guesses by falling confidence, one of each name. -/
def suggestions (r : Route) : List Guess := Guess.firstOfEachName (Guess.ranked (guesses r))

/-- The best guess, with the names of the others as alternatives. -/
def best (r : Route) : Guess := Guess.combine (suggestions r)

end Naming
end EndpointPayload
