import EndpointPayload.Source.Meaning

/-!
# Method calls

`Tree.methodCall?` reads `object.name(arguments…)`.  The object is a smaller tree than the call, so
a chain of calls can be followed back to its start.
-/

namespace EndpointPayload
namespace Source

/-- `object.name(arguments…)`. -/
structure MethodCall where
  object : Tree
  name : String
  arguments : List Tree

namespace Tree

/-- The object and the name of a member. -/
def namedMember? (t : Tree) : Option (Tree × String) :=
  if t.kind = .member then
    match t.child? .object, (t.child? .property).bind name? with
    | some o, some n => some (o, n)
    | _, _ => none
  else none

/-- The call of a method. -/
def methodCall? (t : Tree) : Option MethodCall :=
  if t.kind = .call then
    match (t.child? .callee).bind namedMember? with
    | some (object, name) => some ⟨object, name, t.argumentsOf⟩
    | none => none
  else none

theorem size_le_sizeList {t : Tree} {ts : List Tree} (h : t ∈ ts) : t.size ≤ sizeList ts := by
  induction ts with
  | nil => simp at h
  | cons s ss ih =>
      rcases List.mem_cons.1 h with rfl | h
      · simp [sizeList]
      · have := ih h
        simp only [sizeList]
        omega

theorem size_child_lt {t c : Tree} {r : Role} (h : t.child? r = some c) : c.size < t.size := by
  have := size_le_sizeList (List.mem_of_find?_eq_some h)
  rw [size_eq t]
  omega

theorem size_namedMember_lt {t o : Tree} {n : String} (h : t.namedMember? = some (o, n)) :
    o.size < t.size := by
  unfold namedMember? at h
  split at h
  · split at h
    · simp only [Option.some.injEq, Prod.mk.injEq] at h
      obtain ⟨rfl, rfl⟩ := h
      exact size_child_lt (by assumption)
    · simp at h
  · simp at h

theorem size_methodCall_lt {t : Tree} {m : MethodCall} (h : t.methodCall? = some m) :
    m.object.size < t.size := by
  unfold methodCall? at h
  split at h
  · split at h
    · rename_i o n hm
      simp only [Option.some.injEq] at h
      subst h
      obtain ⟨c, hc, ho⟩ := Option.bind_eq_some_iff.1 hm
      exact Nat.lt_trans (size_namedMember_lt ho) (size_child_lt hc)
    · simp at h
  · simp at h

end Tree

end Source
end EndpointPayload
