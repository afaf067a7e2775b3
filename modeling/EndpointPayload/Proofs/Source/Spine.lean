import EndpointPayload.Proofs.Source.Meanings
import EndpointPayload.Proofs.Source.Reading
import EndpointPayload.Source.Grammar.Script

/-!
# What calls and members start with

In the grammar of every dialect a call is grown from its callee and a member from its object.  So in
a script that was read the callee is the first child of a call, the object the first child of a
member, and the nodes of a method call are the call, its callee, the nodes of the object and then
all others.
-/

namespace EndpointPayload
namespace Source

/-! ## First children -/

/-- The role of the first child, for calls and members. -/
def Kind.firstRole? : Kind → Option Role
  | call => some .callee
  | member => some .object
  | _ => none

/-- A call or a member starts with what it is grown from; other nodes start with anything. -/
def Tree.IsHeaded (t : Tree) : Prop :=
  ∀ r, t.kind.firstRole? = some r → ∃ c cs, t.children = c :: cs ∧ c.label.role = r

namespace Grammar

/-- Nodes that are neither calls nor members may start with anything. -/
def mayStartAnyhow (k : Kind) : Bool := k.firstRole?.isNone

/-- Calls and members start with a child in the right role. -/
def mayStartWith (k : Kind) (r : Role) : Bool := k.firstRole?.all fun first => first = r

theorem isHeaded_build
    {k : Kind}
    (h : mayStartAnyhow k = true)
    (s q : Place)
    (xs : List Tree) :
    (Rule.build k s q xs).IsHeaded := by
  intro r hr
  have hnone : k.firstRole? = none := by simpa [mayStartAnyhow] using h
  have hsome : k.firstRole? = some r := hr
  rw [hnone] at hsome
  cases hsome

theorem gives_isHeaded :
    Rule.Gives (fun k _ => mayStartAnyhow k) mayStartAnyhow mayStartWith Tree.IsHeaded where
  withRole t r h := by
    obtain ⟨l, children⟩ := t
    exact h
  leaf k t p s q hallowed _ := isHeaded_build hallowed s q []
  node k s q xs hallowed := isHeaded_build hallowed s q xs
  grown k r s q x xs hallowed first hfirst := by
    have hk : k.firstRole? = some first := hfirst
    obtain rfl : first = r := by simpa [mayStartWith, hk] using hallowed
    obtain ⟨l, children⟩ := x
    exact ⟨_, xs, rfl, rfl⟩

/-- In every dialect, calls and members are made in chains only, with the right role for what came
before. -/
theorem script_builds_headed (d : Dialect) (m : Part) :
    (script d m).builds (fun k _ => mayStartAnyhow k) mayStartAnyhow mayStartWith = true := by
  cases d <;> cases m <;> rename_i p <;> cases p <;> rfl

end Grammar

/-- All calls and members of a text that was read start with what they are grown from. -/
theorem Tree.every_isHeaded_of_ofText
    {d : Dialect}
    {text : String}
    {t : Tree}
    (h : ofText d text = .ok t) :
    t.Every IsHeaded :=
  Rule.every_of_readAll Grammar.gives_isHeaded (Grammar.script_builds_headed d) h

namespace Tree

variable {t : Tree}

/-- The nodes of a call or a member go on with those of its first child. -/
theorem IsHeaded.cons_prefix_preorder
    {r : Role}
    {c : Tree}
    (h : t.IsHeaded)
    (hr : t.kind.firstRole? = some r)
    (hc : t.child? r = some c) :
    t :: c.preorder <+: t.preorder := by
  obtain ⟨l, children⟩ := t
  obtain ⟨first, rest, hchildren, hrole⟩ := h r hr
  obtain rfl : children = first :: rest := hchildren
  obtain rfl : first = c := by simpa [child?, children, hrole] using hc
  rw [preorder, preorderList, List.cons_prefix_cons]
  exact ⟨rfl, List.prefix_append _ _⟩

/-! ## Method calls -/

variable {callee object : Tree} {name : String} {arguments : List Tree}

theorem IsMethodCall.callee_mem_preorder
    (h : t.IsMethodCall callee object name arguments) :
    callee ∈ t.preorder :=
  mem_preorder_of_child (self_mem_preorder t) (List.mem_of_find?_eq_some h.callee_eq)

theorem IsMethodCall.object_mem_preorder
    (h : t.IsMethodCall callee object name arguments) :
    object ∈ t.preorder :=
  mem_preorder_of_child h.callee_mem_preorder (List.mem_of_find?_eq_some h.object_eq)

/-- The nodes of a method call are the call, its callee, those of the object and then all others. -/
theorem IsMethodCall.cons_prefix_preorder
    (h : t.IsMethodCall callee object name arguments)
    (ht : t.Every IsHeaded) :
    t :: callee :: object.preorder <+: t.preorder := by
  have hmember : callee :: object.preorder <+: callee.preorder :=
    (ht callee h.callee_mem_preorder).cons_prefix_preorder
      (by rw [h.calleeKind_eq]; rfl) h.object_eq
  have hcall : t :: callee.preorder <+: t.preorder :=
    (ht t (self_mem_preorder t)).cons_prefix_preorder (by rw [h.kind_eq]; rfl) h.callee_eq
  exact (List.cons_prefix_cons.mpr ⟨rfl, hmember⟩).trans hcall

/-- A property of all nodes of a tree is one of all nodes of each node. -/
theorem Every.of_mem
    {P : Tree → Prop}
    {s : Tree}
    (ht : t.Every P)
    (hs : s ∈ t.preorder) :
    s.Every P :=
  fun _ hr => ht _ (mem_preorder_trans hs hr)

end Tree

end Source
end EndpointPayload
