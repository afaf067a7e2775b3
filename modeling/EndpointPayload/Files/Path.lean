import EndpointPayload.Text.Split

/-!
# Paths

A path is kept as its text; `Path.components` reads it.  A blank component or a dot after the first
does not count.  `Path.normalize` collapses dots and parent steps by the text alone.
-/

namespace EndpointPayload

/-- One step of a path. -/
inductive Component where
  | root
  | current
  | parent
  | name (s : String)
  deriving DecidableEq, Repr

namespace Component

def text : Component → String
  | root => "/"
  | current => "."
  | parent => ".."
  | name s => s

/-- The order of components: the root, a dot, a parent step, then names by their characters. -/
def rank : Component → Nat
  | root => 0
  | current => 1
  | parent => 2
  | name _ => 3

def before : Component → Component → Bool
  | name a, name b => a < b
  | a, b => a.rank < b.rank

end Component

namespace Path

/-- The pieces of a text between slashes. -/
def pieces (s : String) : List String := Text.split '/' s

/-- The component that a piece names; a blank or a dot names none. -/
def component? (piece : String) : Option Component :=
  if piece = "" || piece = "." then none
  else if piece = ".." then some .parent
  else some (.name piece)

def isAbsolute (s : String) : Bool := s.startsWith "/"

/-- The components of a path. -/
def components (s : String) : List Component :=
  let rest := (pieces s).filterMap component?
  if isAbsolute s then .root :: rest
  else if (pieces s).head? = some "." then .current :: rest
  else rest

/-- The text of a list of components. -/
def ofComponents : List Component → String
  | .root :: rest => "/" ++ "/".intercalate (rest.map Component.text)
  | cs => "/".intercalate (cs.map Component.text)

/-- Takes one more component onto a normal path, innermost first. -/
def step : List Component → Component → List Component
  | done, .current => done
  | .name _ :: done, .parent => done
  | done, .parent => .parent :: done
  | _, .root => [.root]
  | done, .name s => .name s :: done

/-- The components of a path with dots and parent steps collapsed. -/
def normalComponents (s : String) : List Component :=
  ((components s).foldl step []).reverse

/-- The path with dots and parent steps collapsed. -/
def normalize (s : String) : String := ofComponents (normalComponents s)

/-- A path read from inside another; an absolute path stands for itself. -/
def join (base s : String) : String :=
  if isAbsolute s then s
  else if base = "" || base.endsWith "/" then base ++ s
  else base ++ "/" ++ s

/-- Drops pieces that name nothing, last piece first; the first piece of a path always stays. -/
def dropVoid : List String → List String
  | p :: q :: rest => if component? p = none then dropVoid (q :: rest) else p :: q :: rest
  | ps => ps

/-- The path without its last component, its text otherwise as it is; none for the root and the
empty path. -/
def parent? (s : String) : Option String :=
  match dropVoid (pieces s).reverse with
  | [] => none
  | [p] => if p = "" then none else some ""
  | _ :: rest =>
    let kept := dropVoid rest
    some (if kept = [""] then "/" else "/".intercalate kept.reverse)

/-- The last component, if it is a name. -/
def fileName? (s : String) : Option String :=
  match (components s).getLast? with
  | some (.name n) => some n
  | _ => none

/-- A file name at its last point: the part before and the part after it; a leading point does not
count. -/
def splitName (n : String) : String × Option String :=
  let cs := n.toList.reverse
  let after := cs.takeWhile (· ≠ '.')
  match cs.drop after.length with
  | [] => (n, none)
  | _ :: before =>
    if before.isEmpty then (n, none)
    else (String.ofList before.reverse, some (String.ofList after.reverse))

def extension? (s : String) : Option String := (fileName? s).bind fun n => (splitName n).2

def stem? (s : String) : Option String := (fileName? s).map fun n => (splitName n).1

/-- Order of component lists, first difference first. -/
def componentsBefore : List Component → List Component → Bool
  | [], [] => false
  | [], _ :: _ => true
  | _ :: _, [] => false
  | a :: as, b :: bs => if a = b then componentsBefore as bs else a.before b

/-- The order in which paths are listed. -/
def before (a b : String) : Bool := componentsBefore (components a) (components b)

/-- Whether two texts are the same path, component by component. -/
def same (a b : String) : Bool := components a = components b

end Path
end EndpointPayload
