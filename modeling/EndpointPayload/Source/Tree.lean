import EndpointPayload.Source.Kind

/-!
# Script trees

A node carries its kind, the role it plays in its parent, its text, its first and last line, and
its children in source order.  `Tree.preorder` lists a tree by recursion.  `Cursor` is a place in a
tree that can step to the first child, the next sibling and the parent; `Cursor.walk` visits a tree
by such steps alone.
-/

namespace EndpointPayload
namespace Source

/-- What a node says about itself, its children apart. -/
structure Label where
  kind : Kind
  role : Role
  text : String
  startLine : Nat
  endLine : Nat
  deriving DecidableEq, Repr

/-- A node of a script with its children in source order. -/
inductive Tree where
  | node (label : Label) (children : List Tree)

namespace Tree

def label : Tree → Label
  | node l _ => l

def children : Tree → List Tree
  | node _ cs => cs

def kind (t : Tree) : Kind := t.label.kind

def text (t : Tree) : String := t.label.text

def startLine (t : Tree) : Nat := t.label.startLine

def endLine (t : Tree) : Nat := t.label.endLine

/-- The same node in another role. -/
def withRole (r : Role) : Tree → Tree
  | node l cs => node { l with role := r } cs

/-- The first child in the given role. -/
def child? (t : Tree) (r : Role) : Option Tree :=
  t.children.find? fun c => c.label.role = r

/-- The first child of the given kind. -/
def childOfKind? (t : Tree) (k : Kind) : Option Tree :=
  t.children.find? fun c => c.kind = k

mutual

/-- Number of nodes. -/
def size : Tree → Nat
  | node _ cs => sizeList cs + 1

def sizeList : List Tree → Nat
  | [] => 0
  | t :: ts => size t + sizeList ts

end

mutual

/-- Every node of the tree, a node before its children and children from left to right. -/
def preorder : Tree → List Tree
  | node l cs => node l cs :: preorderList cs

def preorderList : List Tree → List Tree
  | [] => []
  | t :: ts => preorder t ++ preorderList ts

end

theorem size_eq (t : Tree) : t.size = sizeList t.children + 1 := by
  cases t with
  | node l cs => simp [size, children]

end Tree

/-- A level above a place: the parent, and the siblings still to the right. -/
structure Level where
  parent : Tree
  later : List Tree

/-- A place in a tree, with the levels above it, innermost first. -/
structure Cursor where
  focus : Tree
  above : List Level

namespace Cursor

/-- The place at the top of a tree. -/
def ofTree (t : Tree) : Cursor := ⟨t, []⟩

/-- The enclosing nodes, innermost first. -/
def ancestors (c : Cursor) : List Tree := c.above.map Level.parent

def firstChild? (c : Cursor) : Option Cursor :=
  match c.focus.children with
  | [] => none
  | t :: ts => some ⟨t, ⟨c.focus, ts⟩ :: c.above⟩

def nextSibling? (c : Cursor) : Option Cursor :=
  match c.above with
  | [] => none
  | l :: ls =>
    match l.later with
    | [] => none
    | t :: ts => some ⟨t, ⟨l.parent, ts⟩ :: ls⟩

def parent? (c : Cursor) : Option Cursor :=
  match c.above with
  | [] => none
  | l :: ls => some ⟨l.parent, ls⟩

/-- Number of nodes to the right of the levels above a place. -/
def pending : List Level → Nat
  | [] => 0
  | l :: ls => Tree.sizeList l.later + pending ls

/-- Number of nodes that a walk from this place still visits. -/
def remaining (c : Cursor) : Nat := c.focus.size + pending c.above

/-- Climbs until a sibling to the right is found. -/
def climb : List Level → Option Cursor
  | [] => none
  | ⟨_, []⟩ :: ls => climb ls
  | ⟨p, t :: ts⟩ :: ls => some ⟨t, ⟨p, ts⟩ :: ls⟩

/-- The next place of a walk: down if possible, else along, else up and along. -/
def next? (c : Cursor) : Option Cursor :=
  match c.firstChild? with
  | some d => some d
  | none => climb c.above

theorem remaining_climb {ls : List Level} {d : Cursor} (h : climb ls = some d) :
    remaining d = pending ls := by
  induction ls with
  | nil => simp [climb] at h
  | cons l ls ih =>
      obtain ⟨p, later⟩ := l
      cases later with
      | nil =>
          simp only [climb] at h
          simp [pending, Tree.sizeList, ih h]
      | cons t ts =>
          simp only [climb, Option.some.injEq] at h
          subst h
          simp [remaining, pending, Tree.sizeList]
          omega

theorem remaining_next {c d : Cursor} (h : c.next? = some d) : d.remaining < c.remaining := by
  obtain ⟨⟨l, cs⟩, ls⟩ := c
  cases cs with
  | nil =>
      have hc : climb ls = some d := by simpa [next?, firstChild?, Tree.children] using h
      have := remaining_climb hc
      simp only [remaining, Tree.size, Tree.sizeList] at *
      omega
  | cons t ts =>
      have hd : d = ⟨t, ⟨.node l (t :: ts), ts⟩ :: ls⟩ := by
        simpa [next?, firstChild?, Tree.children] using h.symm
      subst hd
      simp only [remaining, pending, Tree.size, Tree.sizeList]
      omega

/-- Every place from this one on, in the order a walk by steps visits them. -/
def walk (c : Cursor) : List Cursor :=
  match _h : c.next? with
  | none => [c]
  | some d => c :: walk d
  termination_by c.remaining
  decreasing_by exact remaining_next _h

end Cursor

/-- Every place of a tree in the order of the walk. -/
def Tree.places (t : Tree) : List Cursor := (Cursor.ofTree t).walk

end Source
end EndpointPayload
