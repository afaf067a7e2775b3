import EndpointPayload.Files.System
import EndpointPayload.Json.Basic

/-!
# Listed files

A file system made from a list of files.  As JSON the list is an object from paths to texts; null
stands for a directory.
-/

namespace EndpointPayload
namespace FileSystem

/-- The names on the way to a path that has no parent steps. -/
def namesOf (path : String) : List String :=
  (Path.pieces path).filter fun n => n ≠ "" && n ≠ "."

/-- The file system that holds some entries below a directory, and nothing else. -/
def ofEntries (here : List String) (entries : List (String × Entry)) : FileSystem :=
  let empty := Entry.write (.directory []) here (.directory [])
  ⟨entries.foldl (fun tree (path, e) => Entry.write e (here ++ namesOf path) tree) empty, here⟩

/-- What a listing says about one path. -/
def entryOf (v : Json) : Entry :=
  match v with
  | .null => .directory []
  | v => .file v.str?

/-- The file system of a listing. -/
def ofJson (here : String) (listing : Json) : FileSystem :=
  let files := (listing.fields?).getD []
  ofEntries (namesOf here) (files.map fun (path, v) => (path, entryOf v))

end FileSystem
end EndpointPayload
