import EndpointPayload.Proofs.Source.Walk
import EndpointPayload.Source.Rule

/-!
# What rules build

Reading a rule makes nodes in three ways: a leaf from a token, a node over what a rule reads, and a
node grown from what came before in a chain or an expression, which is its first child.  A property
of nodes that each of these gives, whatever the role of the node, holds of every node that is read.
`Rule.builds` says it of a rule by its own leaves and nodes, so that a grammar is checked part by
part.
-/

namespace EndpointPayload
namespace Source

/-- A property of all nodes of a tree. -/
def Tree.Every (P : Tree → Prop) (t : Tree) : Prop := ∀ s ∈ t.preorder, P s

namespace Rule

variable {Part : Type}

/-- Whether the leaves that a rule makes itself, the nodes over what it reads, and the nodes that it
grows from a first child in some role, are among the given ones. -/
def builds (leaves : Kind → Token → Bool) (nodes : Kind → Bool) (grown : Kind → Role → Bool) :
    Rule Part → Bool
  | leaf k t => leaves k t
  | node k a => nodes k && a.builds leaves nodes grown
  | seq a b | alt a b | guard _ a b => a.builds leaves nodes grown && b.builds leaves nodes grown
  | many a | role _ a | only _ a => a.builds leaves nodes grown
  | chain base tails => base.builds leaves nodes grown && tails.all fun t => grown t.1 t.2.1
  | infixed _ ops _ => ops.all fun o => grown o.kind .left
  | empty | token _ | absent _ | part _ | omitted _ _ | finish => true

/-- A property that leaves and nodes of the given sorts have in every role. -/
structure Gives (leaves : Kind → Token → Bool) (nodes : Kind → Bool) (grown : Kind → Role → Bool)
    (P : Tree → Prop) : Prop where
  withRole : ∀ t r, P t → P (t.withRole r)
  leaf : ∀ k t p s q, leaves k t = true → t.read p = some (s, q) → P (build k s q [])
  node : ∀ k s q xs, nodes k = true → P (build k s q xs)
  grown : ∀ k r s q (x : Tree) xs, grown k r = true → P (build k s q (x.withRole r :: xs))

section Every

variable {leaves : Kind → Token → Bool} {nodes : Kind → Bool} {grown : Kind → Role → Bool}
variable {P : Tree → Prop}

theorem Gives.every_withRole
    (h : Gives leaves nodes grown P)
    {t : Tree}
    (ht : t.Every P)
    (r : Role) :
    (t.withRole r).Every P := by
  obtain ⟨l, children⟩ := t
  intro s hs
  rw [Tree.withRole, Tree.preorder, List.mem_cons] at hs
  rcases hs with rfl | hs
  · exact h.withRole (.node l children) r (ht _ (Tree.self_mem_preorder _))
  · exact ht s (by rw [Tree.preorder]; exact List.mem_cons_of_mem _ hs)

theorem every_build
    {k : Kind}
    {s q : Place}
    {xs : List Tree}
    (hself : P (build k s q xs))
    (hxs : ∀ x ∈ xs, x.Every P) :
    (build k s q xs).Every P := by
  intro t ht
  rcases Tree.mem_preorder_iff.mp ht with rfl | ⟨c, hc, htc⟩
  · exact hself
  · exact hxs c hc t htc

variable {grammar : Part → Rule Part}

/-- What readings of some depth build has the property. -/
structure IsSound (grammar : Part → Rule Part) (leaves : Kind → Token → Bool) (nodes : Kind → Bool)
    (grown : Kind → Role → Bool) (P : Tree → Prop) (n : Nat) : Prop where
  read : ∀ rule p xs q, rule.builds leaves nodes grown = true →
    read grammar n rule p = some (xs, q) → ∀ x ∈ xs, x.Every P
  extend : ∀ tails s x q xs q', (tails.all fun t => grown t.1 t.2.1) = true → x.Every P →
    extend grammar n tails s x q = some (xs, q') → ∀ y ∈ xs, y.Every P
  tail : ∀ tails x q k r ys q', (tails.all fun t => grown t.1 t.2.1) = true →
    tail grammar n tails x q = some (k, r, ys, q') → grown k r = true ∧ ∀ y ∈ ys, y.Every P
  climb : ∀ operand ops least s x q xs q', (ops.all fun o => grown o.kind .left) = true →
    x.Every P → climb grammar n operand ops least s x q = some (xs, q') → ∀ y ∈ xs, y.Every P

theorem isSound_zero : IsSound grammar leaves nodes grown P 0 := by
  constructor
  · intro rule p xs q _ h
    simp [Rule.read] at h
  · intro tails s x q xs q' _ _ h
    simp [Rule.extend] at h
  · intro tails x q k r ys q' _ h
    simp [Rule.tail] at h
  · intro operand ops least s x q xs q' _ _ h
    simp [Rule.climb] at h

variable {n : Nat}

theorem IsSound.tail_succ
    (ih : IsSound grammar leaves nodes grown P n)
    (tails : List (Kind × Role × List Kind × Part))
    (x : Tree)
    (q q' : Place)
    (k : Kind)
    (r : Role)
    (ys : List Tree)
    (htails : (tails.all fun t => grown t.1 t.2.1) = true)
    (h : Rule.tail grammar (n + 1) tails x q = some (k, r, ys, q')) :
    grown k r = true ∧ ∀ y ∈ ys, y.Every P := by
  cases tails with
  | nil => simp [Rule.tail] at h
  | cons first rest =>
      obtain ⟨k₁, r₁, lefts, m⟩ := first
      rw [List.all_cons, Bool.and_eq_true] at htails
      simp only [Rule.tail] at h
      split at h
      · split at h
        · rename_i ys₁ q₁ hread
          cases h
          exact ⟨htails.1, ih.read _ _ _ _ rfl hread⟩
        · exact ih.tail _ _ _ _ _ _ _ htails.2 h
      · exact ih.tail _ _ _ _ _ _ _ htails.2 h

theorem IsSound.extend_succ
    (hP : Gives leaves nodes grown P)
    (ih : IsSound grammar leaves nodes grown P n)
    (tails : List (Kind × Role × List Kind × Part))
    (s q q' : Place)
    (x : Tree)
    (xs : List Tree)
    (htails : (tails.all fun t => grown t.1 t.2.1) = true)
    (hx : x.Every P)
    (h : Rule.extend grammar (n + 1) tails s x q = some (xs, q')) :
    ∀ y ∈ xs, y.Every P := by
  simp only [Rule.extend] at h
  split at h
  · cases h
    simpa using hx
  · rename_i k r ys q₁ htail
    obtain ⟨hk, hys⟩ := ih.tail _ _ _ _ _ _ _ htails htail
    refine ih.extend _ _ _ _ _ _ htails ?_ h
    exact every_build (hP.grown _ _ _ _ _ _ hk)
      (List.forall_mem_cons.mpr ⟨hP.every_withRole hx r, hys⟩)

theorem IsSound.climb_succ
    (hP : Gives leaves nodes grown P)
    (ih : IsSound grammar leaves nodes grown P n)
    (operand : Part)
    (ops : List (Operator Part))
    (least : Nat)
    (s q q' : Place)
    (x : Tree)
    (xs : List Tree)
    (hops : (ops.all fun o => grown o.kind .left) = true)
    (hx : x.Every P)
    (h : Rule.climb grammar (n + 1) operand ops least s x q = some (xs, q')) :
    ∀ y ∈ xs, y.Every P := by
  have hself : ∀ y ∈ [x], y.Every P := by simpa using hx
  simp only [Rule.climb] at h
  split at h
  · cases h
    exact hself
  · rename_i o ho
    have hkind : grown o.kind .left = true :=
      List.all_eq_true.mp hops o (List.mem_of_find?_eq_some ho)
    split at h
    · cases h
      exact hself
    · split at h
      · cases h
        exact hself
      · rename_i ys q₂ hright
        have hys : ∀ y ∈ ys, y.Every P := by
          refine ih.read _ _ _ _ ?_ hright
          cases o.rightPart with
          | none => exact hops
          | some m => rfl
        refine ih.climb _ _ _ _ _ _ _ _ hops ?_ h
        have hrights : ∀ y ∈ ys.map (Tree.withRole .right), y.Every P :=
          List.forall_mem_map.mpr fun z hz => hP.every_withRole (hys z hz) .right
        exact every_build (hP.grown _ _ _ _ _ _ hkind)
          (List.forall_mem_cons.mpr ⟨hP.every_withRole hx .left, hrights⟩)

theorem IsSound.read_succ
    (hP : Gives leaves nodes grown P)
    (hgrammar : ∀ m, (grammar m).builds leaves nodes grown = true)
    (ih : IsSound grammar leaves nodes grown P n)
    (rule : Rule Part)
    (p q : Place)
    (xs : List Tree)
    (hrule : rule.builds leaves nodes grown = true)
    (h : Rule.read grammar (n + 1) rule p = some (xs, q)) :
    ∀ x ∈ xs, x.Every P := by
  cases rule with
  | empty =>
      simp only [Rule.read] at h
      cases h
      simp
  | token t =>
      simp only [Rule.read, Option.map_eq_some_iff] at h
      obtain ⟨found, -, hfound⟩ := h
      cases hfound
      simp
  | leaf k t =>
      simp only [Rule.read, Option.map_eq_some_iff] at h
      obtain ⟨⟨s, q₁⟩, hread, h⟩ := h
      cases h
      simpa using every_build (hP.leaf k t p s q₁ hrule hread) (by simp)
  | seq a b =>
      rw [Rule.builds, Bool.and_eq_true] at hrule
      simp only [Rule.read] at h
      split at h
      · cases h
      · rename_i ys q₁ hfirst
        split at h
        · cases h
        · rename_i zs q₂ hsecond
          cases h
          exact List.forall_mem_append.mpr
            ⟨ih.read _ _ _ _ hrule.1 hfirst, ih.read _ _ _ _ hrule.2 hsecond⟩
  | alt a b =>
      rw [Rule.builds, Bool.and_eq_true] at hrule
      simp only [Rule.read] at h
      split at h
      · rename_i hfirst
        cases h
        exact ih.read _ _ _ _ hrule.1 hfirst
      · exact ih.read _ _ _ _ hrule.2 h
  | many a =>
      simp only [Rule.read] at h
      split at h
      · cases h
        simp
      · rename_i ys q₁ hfirst
        split at h
        · cases h
          exact ih.read a _ _ _ hrule hfirst
        · split at h
          · cases h
          · rename_i zs q₂ hrest
            cases h
            exact List.forall_mem_append.mpr
              ⟨ih.read a _ _ _ hrule hfirst, ih.read _ _ _ _ hrule hrest⟩
  | guard t a b =>
      rw [Rule.builds, Bool.and_eq_true] at hrule
      simp only [Rule.read] at h
      split at h
      · exact ih.read _ _ _ _ hrule.1 h
      · exact ih.read _ _ _ _ hrule.2 h
  | absent a =>
      simp only [Rule.read] at h
      split at h
      · cases h
      · cases h
        simp
  | part m =>
      simp only [Rule.read] at h
      exact ih.read _ _ _ _ (hgrammar m) h
  | node k a =>
      rw [Rule.builds, Bool.and_eq_true] at hrule
      simp only [Rule.read, Option.map_eq_some_iff] at h
      obtain ⟨⟨ys, q₁⟩, hread, h⟩ := h
      cases h
      have hys := ih.read _ _ _ _ hrule.2 hread
      simpa using every_build (hP.node k _ q₁ ys hrule.1) hys
  | role r a =>
      simp only [Rule.read, Option.map_eq_some_iff] at h
      obtain ⟨⟨ys, q₁⟩, hread, h⟩ := h
      cases h
      exact List.forall_mem_map.mpr fun y hy =>
        hP.every_withRole (ih.read a _ _ _ hrule hread y hy) r
  | only ks a =>
      simp only [Rule.read] at h
      split at h
      · rename_i y q₁ hread
        split at h
        · cases h
          exact ih.read a _ _ _ hrule hread
        · cases h
      · cases h
  | chain base tails =>
      rw [Rule.builds, Bool.and_eq_true] at hrule
      simp only [Rule.read] at h
      split at h
      · rename_i y q₁ hbase
        have hy := ih.read _ _ _ _ hrule.1 hbase y (List.mem_singleton_self y)
        exact ih.extend _ _ _ _ _ _ hrule.2 hy h
      · exact ih.read _ _ _ _ hrule.1 h
  | infixed operand ops least =>
      simp only [Rule.read] at h
      split at h
      · rename_i y q₁ hoperand
        have hy := ih.read _ _ _ _ rfl hoperand y (List.mem_singleton_self y)
        exact ih.climb _ _ _ _ _ _ _ _ hrule hy h
      · exact ih.read _ _ _ _ rfl h
  | omitted typed afterOperand =>
      simp only [Rule.read, Option.map_eq_some_iff] at h
      obtain ⟨found, -, hfound⟩ := h
      cases hfound
      simp
  | finish =>
      simp only [Rule.read] at h
      split at h
      · cases h
        simp
      · cases h

/-- What every reading by a checked grammar builds has the property. -/
theorem isSound
    (hP : Gives leaves nodes grown P)
    (hgrammar : ∀ m, (grammar m).builds leaves nodes grown = true) :
    ∀ n, IsSound grammar leaves nodes grown P n
  | 0 => isSound_zero
  | n + 1 => by
      -- The four readers call each other only at the depth below, so they are sound together.
      have ih := isSound hP hgrammar n
      exact ⟨fun rule p xs q => ih.read_succ hP hgrammar rule p q xs,
        fun tails s x q xs q' => ih.extend_succ hP tails s q q' x xs,
        fun tails x q k r ys q' => ih.tail_succ tails x q q' k r ys,
        fun operand ops least s x q xs q' => ih.climb_succ hP operand ops least s q q' x xs⟩

/-- Every node of a text that was read has the property. -/
theorem every_of_readAll
    (hP : Gives leaves nodes grown P)
    (hgrammar : ∀ m, (grammar m).builds leaves nodes grown = true)
    {top : Part}
    {text : List Char}
    {t : Tree}
    (h : readAll grammar top text = .ok t) :
    t.Every P := by
  unfold readAll at h
  split at h
  · rename_i x q hread
    dsimp only at h
    split at h
    · cases h
      exact (isSound hP hgrammar _).read _ _ _ _ rfl hread t (List.mem_singleton_self t)
    · cases h
  · cases h

end Every

end Rule

end Source
end EndpointPayload
