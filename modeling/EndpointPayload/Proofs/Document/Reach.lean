import EndpointPayload.Document.Schema
import Mathlib.Tactic

/-!
# What a document reaches

`Json.Leads` follows single steps from a value into what stands right below it: under a key of an
object that is no wrapper, or among the items of an array.  A document reaches a path if some value
is no more than five such steps below one of its keys.  These are exactly the visits of the walk.
-/

namespace EndpointPayload

namespace Json

/-- A value right below another one, each with its path: under a key of an object that is no
wrapper, or among the items of an array. -/
inductive IsBelow : String → Json → String → Json → Prop
  | field
      {path key : String}
      {fields : List (String × Json)}
      {v : Json}
      (hobject : tagOf? fields = none)
      (hfield : (key, v) ∈ fields) :
      IsBelow path (.obj fields) (path ++ "." ++ key) v
  | item
      {path : String}
      {items : List Json}
      {v : Json}
      (hitem : v ∈ items) :
      IsBelow path (.arr items) (path ++ "[]") v

/-- A value some number of steps below another one. -/
inductive Leads : Nat → String → Json → String → Json → Prop
  | here (path : String) (v : Json) : Leads 0 path v path v
  | step
      {n : Nat}
      {path next last : String}
      {v w u : Json}
      (hbelow : IsBelow path v next w)
      (hleads : Leads n next w last u) :
      Leads (n + 1) path v last u

end Json

namespace Document

open Json

/-- A value at a path, no more than five steps below a key of the document. -/
def Reaches (d : Document) (path : String) (v : Json) : Prop :=
  ∃ f ∈ d, ∃ n ≤ 5, Leads n f.1 f.2 path v

variable {d : Document} {path : String} {v : Json}

/-- The walk meets its start, and then what it meets from the values right below. -/
theorem mem_visitsBelow_succ_iff
    {depth : Nat}
    {start : String}
    {w : Json} :
    (path, v) ∈ visitsBelow (depth + 1) start w ↔
      (path, v) = (start, w) ∨
        ∃ next u, IsBelow start w next u ∧ (path, v) ∈ visitsBelow depth next u := by
  cases w with
  | obj fields =>
      rw [visitsBelow, List.mem_cons]
      refine or_congr_right ?_
      cases htag : tagOf? fields with
      | some tag =>
          have hleaf : (obj fields).isLeaf = true := by simp [isLeaf, htag]
          simp only [hleaf, if_true, List.not_mem_nil, false_iff]
          rintro ⟨next, u, ⟨hobject, -⟩, -⟩
          simp [htag] at hobject
      | none =>
          have hleaf : (obj fields).isLeaf = false := by simp [isLeaf, htag]
          simp only [hleaf, Bool.false_eq_true, if_false, List.mem_flatMap]
          constructor
          · rintro ⟨f, hf, hv⟩
            exact ⟨_, f.2, .field htag hf, hv⟩
          · rintro ⟨next, u, ⟨-, hfield⟩, hv⟩
            exact ⟨_, hfield, hv⟩
  | arr items =>
      rw [visitsBelow, List.mem_cons, List.mem_flatMap]
      refine or_congr_right ?_
      constructor
      · rintro ⟨i, hi, hv⟩
        exact ⟨_, i, .item hi, hv⟩
      · rintro ⟨next, u, hbelow, hv⟩
        cases hbelow with
        | item hitem => exact ⟨_, hitem, hv⟩
  | _ =>
      constructor
      · intro h
        exact .inl (by simpa [visitsBelow] using h)
      · rintro (h | ⟨next, u, hbelow, -⟩)
        · simpa [visitsBelow] using h
        · cases hbelow

theorem mem_visitsBelow_iff :
    ∀ {depth : Nat} {start : String} {w : Json},
      (path, v) ∈ visitsBelow depth start w ↔ ∃ n ≤ depth, Leads n start w path v
  | 0, start, w => by
      rw [visitsBelow, List.mem_singleton, Prod.mk.injEq]
      constructor
      · rintro ⟨rfl, rfl⟩
        exact ⟨0, Nat.le_refl 0, .here path v⟩
      · rintro ⟨n, hn, hleads⟩
        obtain rfl : n = 0 := Nat.le_zero.mp hn
        cases hleads
        exact ⟨rfl, rfl⟩
  | depth + 1, start, w => by
      rw [mem_visitsBelow_succ_iff]
      constructor
      · rintro (hhere | ⟨next, u, hbelow, hv⟩)
        · cases hhere
          exact ⟨0, Nat.zero_le _, .here path v⟩
        · obtain ⟨n, hn, hleads⟩ := mem_visitsBelow_iff.mp hv
          exact ⟨n + 1, Nat.succ_le_succ hn, .step hbelow hleads⟩
      · rintro ⟨n, hn, hleads⟩
        cases hleads with
        | here => exact .inl rfl
        | step hbelow hleads =>
            refine .inr ⟨_, _, hbelow, mem_visitsBelow_iff.mpr ⟨_, ?_, hleads⟩⟩
            exact Nat.le_of_succ_le_succ hn

/-- The visits of a document are what it reaches. -/
theorem mem_visits_iff_reaches : (path, v) ∈ visits d ↔ d.Reaches path v := by
  rw [visits, List.mem_flatMap]
  exact exists_congr fun f => and_congr_right fun _ => mem_visitsBelow_iff

end Document
end EndpointPayload
