import EndpointPayload.Source.Calls
import Mathlib.Tactic

/-!
# Places and nodes of a tree

A walk from a place visits the nodes below it in order and then those to the right of the levels
above it, so the walk from the top visits every node of the tree in order.  `Tree.spots` lists the
nodes by recursion together with the nodes around them, and the walk meets exactly these.  A node of
a tree brings its own nodes with it.
-/

namespace EndpointPayload
namespace Source

namespace Tree

mutual

/-- Every node of the tree in order, with the nodes around it, innermost first. -/
def spots (around : List Tree) : Tree → List (Tree × List Tree)
  | node l children => (node l children, around) :: spotsList (node l children :: around) children

def spotsList (around : List Tree) : List Tree → List (Tree × List Tree)
  | [] => []
  | t :: ts => spots around t ++ spotsList around ts

end

mutual

theorem map_fst_spots (around : List Tree) :
    ∀ t : Tree, (t.spots around).map Prod.fst = t.preorder
  | node l children => by
      rw [spots, preorder, List.map_cons, map_fst_spotsList _ children]

theorem map_fst_spotsList (around : List Tree) :
    ∀ ts : List Tree, (spotsList around ts).map Prod.fst = preorderList ts
  | [] => rfl
  | t :: ts => by
      rw [spotsList, preorderList, List.map_append, map_fst_spots around t,
        map_fst_spotsList around ts]

end

end Tree

namespace Cursor

/-- The node at a place and the nodes around it. -/
def spot (c : Cursor) : Tree × List Tree := (c.focus, c.ancestors)

/-- The nodes to the right of the levels above a place, in order. -/
def later : List Level → List (Tree × List Tree)
  | [] => []
  | l :: ls => Tree.spotsList (l.parent :: ls.map Level.parent) l.later ++ later ls

/-- The nodes below a place and those to the right of the levels above it. -/
def ahead (c : Cursor) : List (Tree × List Tree) := c.focus.spots c.ancestors ++ later c.above

theorem later_of_climb_eq_none {ls : List Level} (h : climb ls = none) : later ls = [] := by
  induction ls with
  | nil => rfl
  | cons l ls ih =>
      obtain ⟨parent, siblings⟩ := l
      cases siblings with
      | nil => exact ih h
      | cons t ts => cases h

theorem later_of_climb {ls : List Level} {d : Cursor} (h : climb ls = some d) :
    later ls = d.ahead := by
  induction ls with
  | nil => cases h
  | cons l ls ih =>
      obtain ⟨parent, siblings⟩ := l
      cases siblings with
      | nil => exact ih h
      | cons t ts =>
          cases h
          simp [later, ahead, ancestors, Tree.spotsList]

/-- One step of the walk leaves the place behind and goes on with the rest. -/
theorem ahead_of_next? (c : Cursor) : c.ahead = c.spot :: (c.next?.map ahead).getD [] := by
  obtain ⟨⟨l, children⟩, above⟩ := c
  cases children with
  | nil =>
      have hnext : next? ⟨.node l [], above⟩ = climb above := rfl
      have hahead : ahead ⟨.node l [], above⟩ = spot ⟨.node l [], above⟩ :: later above := rfl
      rw [hnext, hahead]
      cases hclimb : climb above with
      | none => rw [later_of_climb_eq_none hclimb, Option.map_none, Option.getD_none]
      | some d => rw [later_of_climb hclimb, Option.map_some, Option.getD_some]
  | cons t ts =>
      simp [next?, firstChild?, Tree.children, ahead, spot, ancestors, Tree.spots, Tree.spotsList,
        later]

/-- A walk visits the nodes below its place and then those to the right. -/
theorem map_spot_walk (c : Cursor) : c.walk.map spot = c.ahead := by
  rw [walk, ahead_of_next?]
  split
  · rename_i hnone
    simp [hnone]
  · rename_i d hd
    have hless := remaining_next hd
    rw [List.map_cons, map_spot_walk d, hd, Option.map_some, Option.getD_some]
termination_by c.remaining

end Cursor

namespace Tree

/-- The places of a tree are at its nodes, in order and each inside the nodes around it. -/
theorem map_spot_places (t : Tree) : t.places.map Cursor.spot = t.spots [] := by
  rw [places, Cursor.map_spot_walk]
  simp [Cursor.ofTree, Cursor.ahead, Cursor.ancestors, Cursor.later]

/-- The places of a tree are at its nodes, in order. -/
theorem map_focus_places (t : Tree) : t.places.map Cursor.focus = t.preorder := by
  rw [← map_fst_spots [] t, ← map_spot_places, List.map_map]
  rfl

theorem self_mem_preorder (t : Tree) : t ∈ t.preorder := by
  cases t with
  | node l children =>
      rw [preorder]
      exact List.mem_cons_self

theorem mem_preorderList_iff {t : Tree} {ts : List Tree} :
    t ∈ preorderList ts ↔ ∃ s ∈ ts, t ∈ s.preorder := by
  induction ts with
  | nil => simp [preorderList]
  | cons s ts ih => simp [preorderList, ih]

theorem mem_preorder_iff {t s : Tree} :
    s ∈ t.preorder ↔ s = t ∨ ∃ c ∈ t.children, s ∈ c.preorder := by
  cases t with
  | node l children => rw [preorder, List.mem_cons, mem_preorderList_iff, Tree.children]

mutual

/-- The nodes of a node are nodes of the tree. -/
theorem mem_preorder_trans {r s : Tree} :
    ∀ {t : Tree}, s ∈ t.preorder → r ∈ s.preorder → r ∈ t.preorder
  | node l children, hs, hr => by
      rw [preorder, List.mem_cons] at hs ⊢
      rcases hs with rfl | hs
      · rw [preorder, List.mem_cons] at hr
        exact hr
      · exact .inr (mem_preorderList_trans hs hr)

theorem mem_preorderList_trans {r s : Tree} :
    ∀ {ts : List Tree}, s ∈ preorderList ts → r ∈ s.preorder → r ∈ preorderList ts
  | t :: ts, hs, hr => by
      rw [preorderList, List.mem_append] at hs ⊢
      exact hs.imp (fun h => mem_preorder_trans h hr) fun h => mem_preorderList_trans h hr

end

mutual

/-- The nodes of a node come right after it. -/
theorem preorder_prefix_of_preorder_eq {t : Tree} {before rest : List Tree} :
    ∀ {s : Tree}, s.preorder = before ++ t :: rest → t.preorder <+: t :: rest
  | node l children, h => by
      rw [preorder] at h
      cases before with
      | nil =>
          obtain ⟨rfl, rfl⟩ := List.cons.inj h
          rw [preorder]
      | cons b bs => exact preorder_prefix_of_preorderList_eq (List.cons.inj h).2

theorem preorder_prefix_of_preorderList_eq {t : Tree} {before rest : List Tree} :
    ∀ {ts : List Tree}, preorderList ts = before ++ t :: rest → t.preorder <+: t :: rest
  | [], h => by
      rw [preorderList] at h
      exact absurd h (by simp)
  | s :: ss, h => by
      rw [preorderList, List.append_eq_append_iff] at h
      -- The node stands in a later tree, or else in the first one.
      rcases h with ⟨bs, -, hlater⟩ | ⟨cs, hfirst, hrest⟩
      · exact preorder_prefix_of_preorderList_eq hlater
      · cases cs with
        | nil =>
            have hlater : preorderList ss = [] ++ t :: rest := hrest.symm
            exact preorder_prefix_of_preorderList_eq hlater
        | cons c cs =>
            obtain ⟨rfl, rfl⟩ := List.cons.inj hrest
            exact (preorder_prefix_of_preorder_eq hfirst).trans (List.prefix_append _ _)

end

/-- A child of a node of a tree is a node of the tree. -/
theorem mem_preorder_of_child {t s c : Tree} (hs : s ∈ t.preorder) (hc : c ∈ s.children) :
    c ∈ t.preorder :=
  mem_preorder_trans hs (mem_preorder_iff.mpr (.inr ⟨c, hc, self_mem_preorder c⟩))

/-- The arguments of a call are nodes of its tree. -/
theorem mem_preorder_of_argument
    {t s a : Tree}
    (hs : s ∈ t.preorder)
    (ha : a ∈ s.argumentsOf) :
    a ∈ t.preorder := by
  unfold argumentsOf at ha
  split at ha
  · rename_i list hlist
    have hmem : list ∈ t.preorder :=
      mem_preorder_of_child hs (List.mem_of_find?_eq_some hlist)
    split at ha
    · exact mem_preorder_of_child hmem ha
    · cases ha
  · cases ha

end Tree

end Source
end EndpointPayload
