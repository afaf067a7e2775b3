/-!
# Documents of a settings file

A document is a list of named values and then sections, each with the path of its header.  A section
may be the next element of a list.  `Document.isConsistent` says that no header defines what another
one has defined; the sections after an element of a list belong to that element.
-/

namespace EndpointPayload
namespace Toml

inductive Value where
  | text (s : String)
  | whole (n : Int)
  | decimal (x : Float)
  | truth (b : Bool)
  /-- A date, a time or both. -/
  | moment
  | list (items : List Value)
  /-- Named values; an open table comes from dotted keys and may take more of them. -/
  | table (isOpen : Bool) (entries : List (String × Value))

abbrev Entries := List (String × Value)

namespace Entries

/-- The value of a name. -/
def find? (name : String) : Entries → Option Value
  | [] => none
  | (n, v) :: rest => if n = name then some v else find? name rest

/-- Replaces the first value of a name. -/
def replace (name : String) (v : Value) : Entries → Entries
  | [] => []
  | (n, w) :: rest => if n = name then (n, v) :: rest else (n, w) :: replace name v rest

/-- Adds a value under a dotted key.  All parts but the last name open tables. -/
def add? : List String → Value → Entries → Option Entries
  | [], _, _ => none
  | [k], v, es => some (es ++ [(k, v)])
  | k :: ks, v, es =>
    match find? k es with
    | none => (add? ks v []).map fun inner => es ++ [(k, .table true inner)]
    | some (.table true inner) =>
      (add? ks v inner).map fun inner => replace k (.table true inner) es
    | some _ => none

end Entries

structure Section where
  path : List String
  isElement : Bool
  entries : Entries

structure Document where
  entries : Entries
  sections : List Section

/-- A path with the number of the list element at each of its names, last name first. -/
abbrev Scope := List (String × Nat)

/-- What the headers so far have defined. -/
structure Headers where
  tables : List Scope
  implied : List Scope
  elements : List Scope

namespace Headers

/-- The scope of one more name under a scope: the latest element, where the name is a list. -/
def enter (h : Headers) (outer : Scope) (name : String) : Scope :=
  (name, h.elements.count ((name, 0) :: outer)) :: outer

/-- The scopes of a path, whole path first. -/
def scopes (h : Headers) (path : List String) : List Scope :=
  path.foldl (fun done name => h.enter (done.head?.getD []) name :: done) []

/-- The name of a scope, whichever element it is in. -/
def named (s : Scope) : Scope :=
  match s with
  | [] => []
  | (name, _) :: outer => (name, 0) :: outer

/-- Takes one more header. -/
def define? (h : Headers) (s : Section) : Option Headers :=
  match (h.scopes s.path).map named with
  | [] => some h
  | whole :: outer =>
    let implied := outer ++ h.implied
    if h.tables.contains whole then none
    else if s.isElement then
      if h.implied.contains whole && !h.elements.contains whole then none
      else some { h with implied, elements := whole :: h.elements }
    else if h.elements.contains whole then none
    else some { h with implied, tables := whole :: h.tables }

end Headers

/-- Whether no header defines what another one has defined. -/
def Document.isConsistent (d : Document) : Bool :=
  (d.sections.foldlM Headers.define? ⟨[], [], []⟩).isSome

end Toml
end EndpointPayload
