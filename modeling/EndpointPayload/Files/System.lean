import EndpointPayload.Files.Path

/-!
# Files

A file system is a tree of directories and files, seen from a working directory.  Files hold text,
or bytes that are no text.  Finding a path follows its components one by one, so a parent step out
of something that is no directory finds nothing.
-/

namespace EndpointPayload

/-- A file, whose content may be no text, or a directory. -/
inductive Entry where
  | file (text : Option String)
  | directory (entries : List (String × Entry))

namespace Entry

/-- The entry of a name in a list of entries. -/
def child? (name : String) : List (String × Entry) → Option Entry
  | [] => none
  | (n, e) :: rest => if n = name then some e else child? name rest

/-- The entry at a list of names. -/
def at? : Entry → List String → Option Entry
  | e, [] => some e
  | file _, _ :: _ => none
  | directory es, n :: ns =>
    match child? n es with
    | some e => at? e ns
    | none => none

def isDirectory : Entry → Bool
  | directory _ => true
  | file _ => false

/-- Puts an entry at a name. -/
def put (name : String) (e : Entry) : List (String × Entry) → List (String × Entry)
  | [] => [(name, e)]
  | (n, f) :: rest => if n = name then (n, e) :: rest else (n, f) :: put name e rest

/-- Puts an entry at a list of names, making the directories on the way. -/
def write (leaf : Entry) : List String → Entry → Entry
  | [], _ => leaf
  | n :: ns, e =>
    let es :=
      match e with
      | directory es => es
      | file _ => []
    directory (put n (write leaf ns ((child? n es).getD (directory []))) es)

/-- Removes what is at a list of names. -/
def remove : List String → Entry → Entry
  | [], e => e
  | _, file t => file t
  | [n], directory es => directory (es.filter fun p => p.1 ≠ n)
  | n :: ns, directory es =>
    match child? n es with
    | some e => directory (put n (remove ns e) es)
    | none => directory es

end Entry

/-- A tree of files and the directory that relative paths start from. -/
structure FileSystem where
  tree : Entry
  here : List String

namespace FileSystem

/-- Follows components from a list of names, given innermost first. -/
def follow (tree : Entry) : List String → List Component → Option (List String)
  | names, [] => if (tree.at? names.reverse).isSome then some names else none
  | names, c :: cs =>
    match tree.at? names.reverse with
    | some (.directory es) =>
      match c with
      | .root => follow tree [] cs
      | .current => follow tree names cs
      | .parent => follow tree (names.drop 1) cs
      | .name n => if (Entry.child? n es).isSome then follow tree (n :: names) cs else none
    | _ => none

/-- Whether a path can only mean a directory. -/
def meansDirectory (path : String) : Bool := path.endsWith "/" || path.endsWith "/."

/-- The names that lead from the root to what a path finds. -/
def locate? (fs : FileSystem) (path : String) : Option (List String) :=
  if path = "" then none
  else
    match follow fs.tree fs.here.reverse (Path.components path) with
    | none => none
    | some names =>
      match fs.tree.at? names.reverse with
      | some (.file _) => if meansDirectory path then none else some names.reverse
      | _ => some names.reverse

def find? (fs : FileSystem) (path : String) : Option Entry :=
  (fs.locate? path).bind fs.tree.at?

def isFile (fs : FileSystem) (path : String) : Bool :=
  match fs.find? path with
  | some (.file _) => true
  | _ => false

/-- The text of a file; none where there is no file or its content is no text. -/
def readText? (fs : FileSystem) (path : String) : Option String :=
  match fs.find? path with
  | some (.file text) => text
  | _ => none

/-- The absolute path of what a path finds. -/
def canonical? (fs : FileSystem) (path : String) : Option String :=
  (fs.locate? path).map fun names => "/" ++ "/".intercalate names

end FileSystem
end EndpointPayload
