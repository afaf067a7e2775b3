import EndpointPayload.Proofs.Text.Basic

/-!
# Lists without repetitions

Equality of items may be coarser than that of the values themselves, and it need not hold between a
value and itself.  What is left without repetitions has no two items that are equal in this sense,
and everything erased is equal to something left.  Items that come later are left behind those that
are there.  Selecting items by a property that equal items share can be done before or after, and as
many items are left in every order.
-/

namespace EndpointPayload

variable {α : Type} [BEq α] {xs ys reps others : List α}

/-- Erasing repetitions and selecting items exchange, if equal items are selected together. -/
theorem filter_eraseDups
    {keep : α → Bool}
    (hkeep : ∀ x y : α, (x == y) = true → keep x = keep y) :
    ∀ xs : List α, xs.eraseDups.filter keep = (xs.filter keep).eraseDups
  | [] => by simp
  | x :: xs => by
      have ih := filter_eraseDups hkeep (xs.filter fun y => !y == x)
      rw [List.eraseDups_cons]
      cases hx : keep x with
      | true =>
          rw [List.filter_cons_of_pos hx, List.filter_cons_of_pos hx, List.eraseDups_cons, ih,
            List.filter_comm]
      | false =>
          -- Nothing that is equal to an item left out is selected.
          have hequal : ∀ y ∈ xs.filter keep, (!y == x) = true := by
            intro y hy
            rw [Bool.not_eq_true', Bool.eq_false_iff]
            intro hyx
            rw [← hkeep y x hyx, (List.mem_filter.mp hy).2] at hx
            cases hx
          have hx' : ¬ keep x = true := by simp [hx]
          rw [List.filter_cons_of_neg hx', List.filter_cons_of_neg hx', ih, List.filter_comm,
            List.filter_eq_self.mpr hequal]
termination_by xs => xs.length
decreasing_by
  exact Nat.lt_succ_of_le (List.length_filter_le _ _)

theorem loop_concat (x : α) :
    ∀ xs kept : List α,
      List.eraseDupsBy.loop (· == ·) (xs ++ [x]) kept =
        if (List.eraseDupsBy.loop (· == ·) xs kept).contains x then
          List.eraseDupsBy.loop (· == ·) xs kept
        else List.eraseDupsBy.loop (· == ·) xs kept ++ [x]
  | [], kept => by
      simp only [List.nil_append, List.eraseDupsBy.loop, List.contains_eq_any_beq, List.any_reverse]
      split <;> simp [*]
  | y :: ys, kept => by
      rw [List.cons_append, List.eraseDupsBy.loop, List.eraseDupsBy.loop]
      split
      · exact loop_concat x ys kept
      · exact loop_concat x ys (y :: kept)

/-- One more item is kept unless it is among those that are kept. -/
theorem eraseDups_concat (xs : List α) (x : α) :
    (xs ++ [x]).eraseDups =
      if xs.eraseDups.contains x then xs.eraseDups else xs.eraseDups ++ [x] :=
  loop_concat x xs []

/-- What was kept stays, and more items come after it. -/
theorem eraseDups_prefix_append (xs : List α) :
    ∀ ys : List α, xs.eraseDups <+: (xs ++ ys).eraseDups := by
  intro ys
  induction ys generalizing xs with
  | nil => rw [List.append_nil]
  | cons y ys ih =>
      have hstep : xs.eraseDups <+: (xs ++ [y]).eraseDups := by
        rw [eraseDups_concat]
        split
        · exact List.prefix_rfl
        · exact List.prefix_append _ _
      rw [List.append_cons]
      exact hstep.trans (ih (xs ++ [y]))

/-- Everything is left or equal to something that is. -/
theorem mem_or_exists_beq_of_mem :
    ∀ {xs : List α} {x : α}, x ∈ xs → x ∈ xs.eraseDups ∨ ∃ r ∈ xs.eraseDups, (x == r) = true
  | y :: xs, x, h => by
      rw [List.eraseDups_cons]
      rcases List.mem_cons.mp h with rfl | hrest
      · exact .inl List.mem_cons_self
      · cases hxy : x == y with
        | true => exact .inr ⟨y, List.mem_cons_self, hxy⟩
        | false =>
            have hkept : x ∈ xs.filter fun z => !z == y :=
              List.mem_filter.mpr ⟨hrest, by simp [hxy]⟩
            rcases mem_or_exists_beq_of_mem hkept with hmem | ⟨r, hr, hxr⟩
            · exact .inl (List.mem_cons_of_mem _ hmem)
            · exact .inr ⟨r, List.mem_cons_of_mem _ hr, hxr⟩
termination_by xs => xs.length
decreasing_by
  exact Nat.lt_succ_of_le (List.length_filter_le _ _)

/-- No item left is equal to an earlier one. -/
theorem pairwise_ne_eraseDups :
    ∀ xs : List α, xs.eraseDups.Pairwise fun a b => (b == a) = false
  | [] => by simp
  | x :: xs => by
      rw [List.eraseDups_cons, List.pairwise_cons]
      refine ⟨fun y hy => ?_, pairwise_ne_eraseDups _⟩
      simpa using (List.mem_filter.mp ((eraseDups_sublist _).mem hy)).2
termination_by xs => xs.length
decreasing_by
  exact Nat.lt_succ_of_le (List.length_filter_le _ _)

/-- One item for all that are equal to it, and no two that are equal. -/
structure Represents (reps xs : List α) : Prop where
  mem : ∀ r ∈ reps, r ∈ xs
  pairwise_ne : reps.Pairwise fun a b => (b == a) = false
  exists_beq : ∀ x ∈ xs, ∃ r ∈ reps, (x == r) = true

theorem represents_eraseDups (hself : ∀ x ∈ xs, (x == x) = true) :
    Represents xs.eraseDups xs where
  mem r hr := (eraseDups_sublist xs).mem hr
  pairwise_ne := pairwise_ne_eraseDups xs
  exists_beq x hx := by
    rcases mem_or_exists_beq_of_mem hx with hkept | hequal
    · exact ⟨x, hkept, hself x hx⟩
    · exact hequal

/-- Different items have different representatives, so there are no fewer of these. -/
theorem Represents.length_le
    (h : Represents reps xs)
    (hothers : Represents others xs)
    (hsymm : ∀ x ∈ xs, ∀ y ∈ xs, (x == y) = true → (y == x) = true)
    (htrans : ∀ x y z : α, (x == y) = true → (y == z) = true → (x == z) = true) :
    reps.length ≤ others.length := by
  have hpick : ∀ i : Fin reps.length, ∃ j : Fin others.length, (reps[i] == others[j]) = true := by
    intro i
    obtain ⟨r, hr, hir⟩ := hothers.exists_beq reps[i] (h.mem _ (List.getElem_mem _))
    obtain ⟨j, hj, rfl⟩ := List.getElem_of_mem hr
    exact ⟨⟨j, hj⟩, hir⟩
  choose pick hpicked using hpick
  have hdifferent : ∀ i j : Fin reps.length, i < j → pick i ≠ pick j := by
    intro i j hij heq
    have hne := List.pairwise_iff_getElem.mp h.pairwise_ne i j i.isLt j.isLt hij
    have hback : (others[pick i] == reps[i]) = true :=
      hsymm _ (h.mem _ (List.getElem_mem _)) _ (hothers.mem _ (List.getElem_mem _)) (hpicked i)
    have hji : (reps[j] == reps[i]) = true := htrans _ _ _ (hpicked j) (heq ▸ hback)
    exact Bool.false_ne_true (hne.symm.trans hji)
  have hinjective : Function.Injective pick := by
    intro i j heq
    rcases lt_trichotomy i j with hlt | rfl | hgt
    · exact absurd heq (hdifferent i j hlt)
    · rfl
    · exact absurd heq.symm (hdifferent j i hgt)
  simpa using Fintype.card_le_of_injective pick hinjective

/-- Erasing repetitions leaves as many items in every order. -/
theorem length_eraseDups_of_perm
    (h : xs.Perm ys)
    (hself : ∀ x ∈ xs, (x == x) = true)
    (hsymm : ∀ x ∈ xs, ∀ y ∈ xs, (x == y) = true → (y == x) = true)
    (htrans : ∀ x y z : α, (x == y) = true → (y == z) = true → (x == z) = true) :
    xs.eraseDups.length = ys.eraseDups.length := by
  have hxs := represents_eraseDups hself
  have hys : Represents ys.eraseDups xs := by
    have hreps : Represents ys.eraseDups ys :=
      represents_eraseDups fun y hy => hself y (h.mem_iff.mpr hy)
    exact ⟨fun r hr => h.mem_iff.mpr (hreps.mem r hr), hreps.pairwise_ne,
      fun x hx => hreps.exists_beq x (h.mem_iff.mp hx)⟩
  exact le_antisymm (hxs.length_le hys hsymm htrans) (hys.length_le hxs hsymm htrans)

end EndpointPayload
