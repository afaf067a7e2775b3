import EndpointPayload.Proofs.Source.Walk

/-!
# The walk move by move

A walk moves a cursor down to the first child after each visit, else along to the next sibling, else
up until there is a sibling; it stops where there is no node above, or when it is back at the node
that it started at.  Child numbers from the top on are the address of a node.  In the order of lists
of numbers an address comes before those that go on from it, and before those that turn off further
to the right, so a list in this order is one with each node before its children and the children
from left to right.

**Input.**  A tree and the address of a node in it.

**Results.**
* `Visits.iff_walk`: the moves end, and they visit the places of `Cursor.walk`.
* `map_address_places`: the walk of a tree visits its addresses, in order.
* `mem_addresses_iff`, `pairwise_addresses`: the addresses are those of the nodes, and increase.
* `visits_below`: a walk from a node of a tree visits the nodes below it, each once, in order.
-/

namespace EndpointPayload
namespace Source

namespace Tree

/-! ## Addresses -/

/-- The node that child numbers lead to, from the top on. -/
def at? : Tree → List Nat → Option Tree
  | t, [] => some t
  | t, i :: is => (t.children[i]?).bind fun c => c.at? is

mutual

/-- The addresses of the nodes of a tree, by recursion. -/
def addresses : Tree → List (List Nat)
  | node _ cs => [] :: addressesFrom 0 cs

/-- The addresses below a node in some of its children, the first of which has the given number. -/
def addressesFrom (i : Nat) : List Tree → List (List Nat)
  | [] => []
  | t :: ts => (addresses t).map (fun p => i :: p) ++ addressesFrom (i + 1) ts

end

theorem at?_append (t : Tree) (p q : List Nat) :
    t.at? (p ++ q) = (t.at? p).bind fun r => r.at? q := by
  induction p generalizing t with
  | nil => rfl
  | cons i p ih =>
      rw [List.cons_append, at?, at?]
      cases t.children[i]? with
      | none => rfl
      | some c => exact ih c

theorem nil_not_mem_addressesFrom (i : Nat) (ts : List Tree) : [] ∉ addressesFrom i ts := by
  induction ts generalizing i with
  | nil => simp [addressesFrom]
  | cons t ts ih => simp [addressesFrom, ih]

mutual

/-- The addresses of a tree are the lists of numbers that lead to a node. -/
theorem mem_addresses_iff : ∀ (t : Tree) (p : List Nat), p ∈ t.addresses ↔ (t.at? p).isSome
  | node l cs, [] => by simp [addresses, at?]
  | node l cs, i :: p => by
      have hbelow := mem_addressesFrom_iff cs 0 i p
      simpa [addresses, at?, children] using hbelow

theorem mem_addressesFrom_iff :
    ∀ (ts : List Tree) (i j : Nat) (p : List Nat),
      j :: p ∈ addressesFrom i ts ↔ i ≤ j ∧ ((ts[j - i]?).bind fun c => c.at? p).isSome
  | [], i, j, p => by simp [addressesFrom]
  | t :: ts, i, j, p => by
      have hfirst := mem_addresses_iff t p
      have hrest := mem_addressesFrom_iff ts (i + 1) j p
      have hmem : j :: p ∈ addressesFrom i (t :: ts) ↔
          (i = j ∧ p ∈ t.addresses) ∨ j :: p ∈ addressesFrom (i + 1) ts := by
        simp [addressesFrom, and_comm]
      rw [hmem, hrest, hfirst]
      rcases Nat.lt_trichotomy j i with hlt | rfl | hgt
      · have hnot : ¬ i ≤ j ∧ ¬ i + 1 ≤ j ∧ i ≠ j := by omega
        simp [hnot]
      · simp
      · have hnext : j - i = j - (i + 1) + 1 := by omega
        have hle : i ≤ j ∧ i + 1 ≤ j ∧ i ≠ j := by omega
        simp [hnext, hle]

end

mutual

/-- A node stands before its children, and children from left to right. -/
theorem pairwise_addresses : ∀ t : Tree, t.addresses.Pairwise (· < ·)
  | node l cs => by
      rw [addresses, List.pairwise_cons]
      refine ⟨fun p hp => ?_, pairwise_addressesFrom cs 0⟩
      cases p with
      | nil => exact absurd hp (nil_not_mem_addressesFrom 0 cs)
      | cons i p => exact List.nil_lt_cons i p

theorem pairwise_addressesFrom :
    ∀ (ts : List Tree) (i : Nat), (addressesFrom i ts).Pairwise (· < ·)
  | [], i => List.Pairwise.nil
  | t :: ts, i => by
      rw [addressesFrom, List.pairwise_append]
      refine ⟨?_, pairwise_addressesFrom ts (i + 1), ?_⟩
      · rw [List.pairwise_map]
        exact (pairwise_addresses t).imp fun h => List.cons_lt_cons_iff.mpr (.inr ⟨rfl, h⟩)
      · intro p hp q hq
        obtain ⟨p, -, rfl⟩ := List.mem_map.mp hp
        cases q with
        | nil => exact absurd hq (nil_not_mem_addressesFrom (i + 1) ts)
        | cons j q =>
            have hlt : i < j := ((mem_addressesFrom_iff ts (i + 1) j q).mp hq).1
            exact List.cons_lt_cons_iff.mpr (.inl hlt)

end

end Tree

namespace Level

/-- The number of the child that a level leads down to. -/
def index (l : Level) : Nat := l.parent.children.length - l.later.length - 1

/-- The address that levels lead down to, innermost level first. -/
def address (ls : List Level) : List Nat := (ls.map index).reverse

theorem index_eq
    {parent focus : Tree}
    {before later : List Tree}
    (h : parent.children = before ++ focus :: later) :
    index ⟨parent, later⟩ = before.length := by
  simp only [index, h, List.length_append, List.length_cons]
  omega

theorem address_cons (l : Level) (ls : List Level) :
    address (l :: ls) = address ls ++ [l.index] := by
  rw [address, List.map_cons, List.reverse_cons, address]

end Level

namespace Cursor

/-- The address of a place below the one that its levels start at. -/
def address (c : Cursor) : List Nat := Level.address c.above

/-! ## Places inside a tree -/

/-- A place in a tree: each level has the node below it among its children, with the siblings to
the right behind it. -/
inductive InTree (t : Tree) : Cursor → Prop
  | top : InTree t (ofTree t)
  | child
      {parent focus : Tree}
      {above : List Level}
      {before later : List Tree}
      (hparent : InTree t ⟨parent, above⟩)
      (hchildren : parent.children = before ++ focus :: later) :
      InTree t ⟨focus, ⟨parent, later⟩ :: above⟩

variable {t : Tree} {c d : Cursor}

/-- The node at the address of a place is the one that the place is at. -/
theorem InTree.at?_address (h : InTree t c) : t.at? c.address = some c.focus := by
  induction h with
  | top => rfl
  | @child parent focus above before later _ hchildren ih =>
      have hparent : t.at? (Level.address above) = some parent := ih
      rw [address, Level.address_cons, Tree.at?_append, hparent, Level.index_eq hchildren,
        Option.bind_some, Tree.at?, hchildren]
      simp [Tree.at?]

theorem InTree.firstChild (h : InTree t c) (hd : c.firstChild? = some d) : InTree t d := by
  obtain ⟨⟨l, cs⟩, above⟩ := c
  cases cs with
  | nil => cases hd
  | cons first rest =>
      have hchildren : (Tree.node l (first :: rest)).children = [] ++ first :: rest := rfl
      cases hd
      exact .child h hchildren

/-- What the next sibling is reached through has one child more in front of it. -/
theorem InTree.sibling
    {focus parent next : Tree}
    {above : List Level}
    {later : List Tree}
    (h : InTree t ⟨focus, ⟨parent, next :: later⟩ :: above⟩) :
    InTree t ⟨next, ⟨parent, later⟩ :: above⟩ ∧
      Level.index ⟨parent, later⟩ = Level.index ⟨parent, next :: later⟩ + 1 := by
  cases h with
  | @child _ _ _ before _ hparent hchildren =>
      have hnext : parent.children = (before ++ [focus]) ++ next :: later := by
        rw [hchildren, List.append_assoc]
        rfl
      refine ⟨.child hparent hnext, ?_⟩
      rw [Level.index_eq hnext, Level.index_eq hchildren, List.length_append, List.length_singleton]

theorem InTree.parent
    {focus parent : Tree}
    {above : List Level}
    {later : List Tree}
    (h : InTree t ⟨focus, ⟨parent, later⟩ :: above⟩) :
    InTree t ⟨parent, above⟩ := by
  cases h with
  | child hparent _ => exact hparent

theorem InTree.climb
    {focus : Tree}
    {above : List Level}
    (h : InTree t ⟨focus, above⟩)
    (hd : climb above = some d) :
    InTree t d := by
  induction above generalizing focus with
  | nil => cases hd
  | cons l ls ih =>
      obtain ⟨parent, later⟩ := l
      cases later with
      | nil => exact ih h.parent hd
      | cons next later =>
          cases hd
          exact h.sibling.1

theorem InTree.next (h : InTree t c) (hd : c.next? = some d) : InTree t d := by
  rw [next?] at hd
  split at hd
  · rename_i child hchild
    cases hd
    exact h.firstChild hchild
  · exact h.climb hd

/-! ## The addresses of a walk -/

/-- The addresses of the nodes to the right of the levels above a place, in order. -/
def laterAddresses : List Level → List (List Nat)
  | [] => []
  | l :: ls =>
    (Tree.addressesFrom (l.index + 1) l.later).map (fun p => Level.address ls ++ p) ++
      laterAddresses ls

/-- The addresses of the nodes below a place and of those to the right of the levels above it. -/
def addressesAhead (c : Cursor) : List (List Nat) :=
  c.focus.addresses.map (fun p => c.address ++ p) ++ laterAddresses c.above

theorem laterAddresses_of_climb
    {focus : Tree}
    {above : List Level}
    (h : InTree t ⟨focus, above⟩) :
    laterAddresses above = ((Cursor.climb above).map addressesAhead).getD [] := by
  induction above generalizing focus with
  | nil => rfl
  | cons l ls ih =>
      obtain ⟨parent, later⟩ := l
      cases later with
      | nil => exact ih h.parent
      | cons next later =>
          rw [Cursor.climb, Option.map_some, Option.getD_some, laterAddresses, addressesAhead,
            laterAddresses, address, Level.address_cons, h.sibling.2, Tree.addressesFrom]
          simp [Function.comp_def]

/-- One step of the walk leaves an address behind and goes on with the rest. -/
theorem addressesAhead_of_next? (h : InTree t c) :
    c.addressesAhead = c.address :: (c.next?.map addressesAhead).getD [] := by
  obtain ⟨⟨l, cs⟩, above⟩ := c
  cases cs with
  | nil =>
      have hnext : next? ⟨.node l [], above⟩ = Cursor.climb above := rfl
      rw [hnext, ← laterAddresses_of_climb h]
      simp [addressesAhead, Tree.addresses, Tree.addressesFrom]
  | cons first rest =>
      have hnext : next? ⟨.node l (first :: rest), above⟩ =
          some ⟨first, ⟨.node l (first :: rest), rest⟩ :: above⟩ := rfl
      have hchildren : (Tree.node l (first :: rest)).children = [] ++ first :: rest := rfl
      have hindex : Level.index ⟨.node l (first :: rest), rest⟩ = 0 := Level.index_eq hchildren
      rw [hnext, Option.map_some, Option.getD_some, addressesAhead, addressesAhead, laterAddresses,
        address, address, Level.address_cons, hindex, Tree.addresses, Tree.addressesFrom]
      simp [Function.comp_def]

theorem walk_eq (c : Cursor) : c.walk = c :: (c.next?.map walk).getD [] := by
  rw [walk]
  split
  · rename_i hnone
    rw [hnone]
    rfl
  · rename_i d hd
    rw [hd]
    rfl

/-- A walk visits the addresses below its place and then those to the right. -/
theorem map_address_walk (c : Cursor) (h : InTree t c) : c.walk.map address = c.addressesAhead := by
  rw [walk_eq, addressesAhead_of_next? h]
  cases hd : c.next? with
  | none => rfl
  | some d =>
      have hless := remaining_next hd
      rw [Option.map_some, Option.map_some, Option.getD_some, Option.getD_some, List.map_cons,
        map_address_walk d (h.next hd)]
termination_by c.remaining

theorem inTree_of_mem_walk (c : Cursor) (h : InTree t c) : ∀ d ∈ c.walk, InTree t d := by
  intro d hd
  rw [walk_eq, List.mem_cons] at hd
  rcases hd with rfl | hd
  · exact h
  · cases hnext : c.next? with
    | none =>
        rw [hnext] at hd
        cases hd
    | some e =>
        have hless := remaining_next hnext
        rw [hnext] at hd
        exact inTree_of_mem_walk e (h.next hnext) d hd
termination_by c.remaining

end Cursor

/-- The walk of a tree visits the addresses of its nodes, in order. -/
theorem Tree.map_address_places (t : Tree) : t.places.map Cursor.address = t.addresses := by
  have h := Cursor.map_address_walk (.ofTree t) .top
  rw [places, h]
  simp [Cursor.addressesAhead, Cursor.ofTree, Cursor.address, Level.address, Cursor.laterAddresses]

/-! ## Moves -/

/-- What a walk is about to do: visit a node, or leave one that is done with all below it. -/
inductive Task where
  | visit (c : Cursor)
  | leave (c : Cursor)

/-- One move of a walk.  After a visit it goes down, if there is a child.  From a node that is done
it goes along, if there is a sibling, else up; it ends where there is nothing above, and back at the
node that it started at. -/
def Task.next? (start : Cursor) : Task → Option Task
  | visit c =>
    match c.firstChild? with
    | some d => some (visit d)
    | none => some (leave c)
  | leave c =>
    match c.nextSibling? with
    | some d => some (visit d)
    | none =>
      match c.parent? with
      | none => none
      | some d => if d.address = start.address then none else some (leave d)

/-- The moves from a task on come to an end, with these visits on the way. -/
inductive Visits (start : Cursor) : Task → List Cursor → Prop
  | visit
      {c : Cursor}
      {task : Task}
      {visits : List Cursor}
      (hnext : Task.next? start (.visit c) = some task)
      (hrest : Visits start task visits) :
      Visits start (.visit c) (c :: visits)
  | leave
      {c : Cursor}
      {task : Task}
      {visits : List Cursor}
      (hnext : Task.next? start (.leave c) = some task)
      (hrest : Visits start task visits) :
      Visits start (.leave c) visits
  | stop
      {c : Cursor}
      (hnext : Task.next? start (.leave c) = none) :
      Visits start (.leave c) []

namespace Visits

variable {start : Cursor} {task : Task} {visits others : List Cursor}

/-- The moves leave no choice. -/
theorem unique
    (h : Visits start task visits)
    (h' : Visits start task others) :
    visits = others := by
  induction h generalizing others with
  | visit hnext _ ih =>
      cases h' with
      | visit hnext' hrest' =>
          cases hnext.symm.trans hnext'
          rw [ih hrest']
  | leave hnext _ ih =>
      cases h' with
      | leave hnext' hrest' =>
          cases hnext.symm.trans hnext'
          exact ih hrest'
      | stop hnext' => cases hnext.symm.trans hnext'
  | stop hnext =>
      cases h' with
      | leave hnext' hrest' => cases hnext.symm.trans hnext'
      | stop => rfl

/-- Leaving a node goes on with the first sibling to the right on the way up. -/
theorem leave_climb
    {t focus : Tree}
    {above : List Level}
    (hvisit : ∀ d, Cursor.climb above = some d → Visits (.ofTree t) (.visit d) d.walk) :
    Visits (.ofTree t) (.leave ⟨focus, above⟩)
      (((Cursor.climb above).map Cursor.walk).getD []) := by
  induction above generalizing focus with
  | nil => exact .stop rfl
  | cons l ls ih =>
      obtain ⟨parent, later⟩ := l
      cases later with
      | nil =>
          cases ls with
          | nil => exact .stop rfl
          | cons m ms =>
              have hbelow : Level.address (m :: ms) ≠ [] := by
                rw [Level.address_cons]
                simp
              have hup : Task.next? (.ofTree t) (.leave ⟨focus, ⟨parent, []⟩ :: m :: ms⟩) =
                  some (.leave ⟨parent, m :: ms⟩) := if_neg hbelow
              exact .leave hup (ih hvisit)
      | cons next later => exact .leave rfl (hvisit _ rfl)

/-- The moves from a visit on end, and visit the places of the walk. -/
theorem visit_walk (t : Tree) (c : Cursor) : Visits (.ofTree t) (.visit c) c.walk := by
  rw [Cursor.walk_eq]
  cases hchild : c.firstChild? with
  | some d =>
      have hnext : c.next? = some d := by rw [Cursor.next?, hchild]
      have hless := Cursor.remaining_next hnext
      have hdown : Task.next? (.ofTree t) (.visit c) = some (.visit d) := by
        rw [Task.next?, hchild]
      rw [hnext]
      exact .visit hdown (visit_walk t d)
  | none =>
      have hnext : c.next? = Cursor.climb c.above := by rw [Cursor.next?, hchild]
      have hdone : Task.next? (.ofTree t) (.visit c) = some (.leave c) := by
        rw [Task.next?, hchild]
      rw [hnext]
      refine .visit hdone (leave_climb fun d hd => ?_)
      have hless := Cursor.remaining_next (hnext.trans hd)
      exact visit_walk t d
termination_by c.remaining

/-- The moves end in one way only. -/
theorem iff_walk {t : Tree} {c : Cursor} :
    Visits (.ofTree t) (.visit c) visits ↔ visits = c.walk := by
  constructor
  · intro h
    exact h.unique (visit_walk t c)
  · rintro rfl
    exact visit_walk t c

end Visits

/-- A walk from a node of a tree comes to an end and makes the visits of `Tree.places`: the nodes of
the recursion, in its order.  Each visit is of the node at its address; the addresses visited are
those of the tree that go on from the address of the first node, and no others; and they increase,
so no node is visited twice, a node is visited before its children, and the children are visited
from left to right. -/
theorem visits_below
    {t r : Tree}
    {q : List Nat}
    (hr : t.at? q = some r) :
    (∀ visits, Visits (.ofTree r) (.visit (.ofTree r)) visits ↔ visits = r.places) ∧
      r.places.map Cursor.focus = r.preorder ∧
      (∀ c ∈ r.places, t.at? (q ++ c.address) = some c.focus) ∧
      (∀ p, p ∈ r.places.map (fun c => q ++ c.address) ↔ q <+: p ∧ (t.at? p).isSome) ∧
      (r.places.map fun c => q ++ c.address).Pairwise (· < ·) := by
  have hbelow : ∀ p, t.at? (q ++ p) = r.at? p := by
    intro p
    rw [Tree.at?_append, hr, Option.bind_some]
  have haddresses : (r.places.map fun c => q ++ c.address) = r.addresses.map (fun p => q ++ p) := by
    rw [← Tree.map_address_places, List.map_map]
    rfl
  refine ⟨fun visits => Visits.iff_walk, Tree.map_focus_places r, ?_, ?_, ?_⟩
  · intro c hc
    rw [hbelow]
    exact (Cursor.inTree_of_mem_walk (.ofTree r) .top c hc).at?_address
  · intro p
    rw [haddresses, List.mem_map]
    constructor
    · rintro ⟨p, hp, rfl⟩
      refine ⟨List.prefix_append q p, ?_⟩
      rw [hbelow]
      exact (Tree.mem_addresses_iff r p).mp hp
    · rintro ⟨⟨p, rfl⟩, hp⟩
      rw [hbelow] at hp
      exact ⟨p, (Tree.mem_addresses_iff r p).mpr hp, rfl⟩
  · rw [haddresses, List.pairwise_map]
    exact (Tree.pairwise_addresses r).imp fun h => List.append_left_lt h

namespace Sequence

/-- A node of one line. -/
def part (kind : Kind) (text : String) (children : List Tree) : Tree :=
  .node ⟨kind, .plain, text, 1, 1⟩ children

/-- The call `f(a, b)`. -/
def call : Tree :=
  part .call "f(a, b)" [
    part .identifier "f" [],
    part .arguments "(a, b)" [part .identifier "a" [], part .identifier "b" []]]

/-- The call with an expression behind it. -/
def both : Tree := part .sequence "f(a, b), c" [call, part .identifier "c" []]

end Sequence

/-- A walk from the call visits its second argument, stays inside the call, and keeps the order. -/
theorem visits_below_call :
    Sequence.both.at? [0] = some Sequence.call ∧
      Visits (.ofTree Sequence.call) (.visit (.ofTree Sequence.call)) Sequence.call.places ∧
      [0, 1, 1] ∈ Sequence.call.places.map (fun c => [0] ++ c.address) ∧
      [1] ∉ Sequence.call.places.map (fun c => [0] ++ c.address) ∧
      (Sequence.call.places.map fun c => [0] ++ c.address).Pairwise (· < ·) := by
  have hcall : Sequence.both.at? [0] = some Sequence.call := rfl
  obtain ⟨hvisits, -, -, haddresses, hpairwise⟩ := visits_below hcall
  refine ⟨hcall, (hvisits _).mpr rfl, (haddresses _).mpr ⟨by decide, rfl⟩, ?_, hpairwise⟩
  intro hmem
  exact absurd ((haddresses _).mp hmem).1 (by decide)

end Source
end EndpointPayload
