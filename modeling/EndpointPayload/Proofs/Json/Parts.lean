import EndpointPayload.Json.Basic
import Mathlib.Tactic

/-!
# Parts of a value

A value has itself for a part, and the parts of its items or of the values under its keys.
`Json.induction` proves something of all values from what their items and fields have, and
`Json.Throughout` says something of all parts of one value.
-/

namespace EndpointPayload
namespace Json

/-- Neither an array nor an object. -/
def IsScalar : Json → Prop
  | arr _ => False
  | obj _ => False
  | _ => True

/-- Induction over the items of arrays and the values under the keys of objects. -/
@[elab_as_elim]
theorem induction
    {motive : Json → Prop}
    (scalar : ∀ v : Json, v.IsScalar → motive v)
    (array : ∀ items : List Json, (∀ v ∈ items, motive v) → motive (.arr items))
    (object : ∀ fields : List (String × Json), (∀ f ∈ fields, motive f.2) → motive (.obj fields)) :
    ∀ v : Json, motive v
  | arr items => array items fun v _ => induction scalar array object v
  | obj fields => object fields fun f _ => induction scalar array object f.2
  | null => scalar _ trivial
  | bool _ => scalar _ trivial
  | int _ => scalar _ trivial
  | float _ => scalar _ trivial
  | str _ => scalar _ trivial
termination_by v => sizeOf v
decreasing_by
  · have hlt := List.sizeOf_lt_of_mem ‹v ∈ items›
    simp only [arr.sizeOf_spec]
    omega
  · have hlt := List.sizeOf_lt_of_mem ‹f ∈ fields›
    obtain ⟨key, v⟩ := f
    simp only [obj.sizeOf_spec, Prod.mk.sizeOf_spec] at hlt ⊢
    omega

/-- A value at any depth of another one, which is itself at depth zero. -/
inductive IsPart (w : Json) : Json → Prop
  | self : IsPart w w
  | item
      {items : List Json}
      {v : Json}
      (hitem : v ∈ items)
      (hpart : IsPart w v) :
      IsPart w (.arr items)
  | field
      {fields : List (String × Json)}
      {f : String × Json}
      (hfield : f ∈ fields)
      (hpart : IsPart w f.2) :
      IsPart w (.obj fields)

section Parts

variable {w : Json} {items : List Json} {fields : List (String × Json)}

theorem isPart_arr_iff : IsPart w (.arr items) ↔ w = .arr items ∨ ∃ v ∈ items, IsPart w v := by
  constructor
  · intro h
    cases h with
    | self => exact .inl rfl
    | item hitem hpart => exact .inr ⟨_, hitem, hpart⟩
  · rintro (rfl | ⟨v, hitem, hpart⟩)
    · exact .self
    · exact .item hitem hpart

theorem isPart_obj_iff :
    IsPart w (.obj fields) ↔ w = .obj fields ∨ ∃ f ∈ fields, IsPart w f.2 := by
  constructor
  · intro h
    cases h with
    | self => exact .inl rfl
    | field hfield hpart => exact .inr ⟨_, hfield, hpart⟩
  · rintro (rfl | ⟨f, hfield, hpart⟩)
    · exact .self
    · exact .field hfield hpart

theorem isPart_str_iff {s : String} : IsPart w (.str s) ↔ w = .str s := by
  constructor
  · intro h
    cases h
    rfl
  · rintro rfl
    exact .self

theorem isPart_iff_of_isScalar {v : Json} (h : v.IsScalar) : IsPart w v ↔ w = v := by
  constructor
  · intro hpart
    cases hpart with
    | self => rfl
    | item => cases h
    | field => cases h
  · rintro rfl
    exact .self

end Parts

/-- Something holds of a value and of all its parts. -/
def Throughout (P : Json → Prop) (v : Json) : Prop := ∀ w, IsPart w v → P w

section Throughout

variable {P : Json → Prop} {items : List Json} {fields : List (String × Json)} {v : Json}

theorem throughout_arr_iff :
    Throughout P (.arr items) ↔ P (.arr items) ∧ ∀ v ∈ items, Throughout P v := by
  simp only [Throughout, isPart_arr_iff]
  constructor
  · intro h
    exact ⟨h _ (.inl rfl), fun v hv w hw => h w (.inr ⟨v, hv, hw⟩)⟩
  · rintro ⟨hself, hitems⟩ w (rfl | ⟨v, hv, hw⟩)
    · exact hself
    · exact hitems v hv w hw

theorem throughout_obj_iff :
    Throughout P (.obj fields) ↔ P (.obj fields) ∧ ∀ f ∈ fields, Throughout P f.2 := by
  simp only [Throughout, isPart_obj_iff]
  constructor
  · intro h
    exact ⟨h _ (.inl rfl), fun f hf w hw => h w (.inr ⟨f, hf, hw⟩)⟩
  · rintro ⟨hself, hfields⟩ w (rfl | ⟨f, hf, hw⟩)
    · exact hself
    · exact hfields f hf w hw

theorem throughout_iff_of_isScalar (h : v.IsScalar) : Throughout P v ↔ P v := by
  simp only [Throughout, isPart_iff_of_isScalar h, forall_eq]

end Throughout

end Json
end EndpointPayload
