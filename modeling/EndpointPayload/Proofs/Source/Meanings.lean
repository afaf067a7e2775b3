import EndpointPayload.Source.Calls
import Mathlib.Tactic

/-!
# What the kind and the children of a node make it mean

The meaning of a node is told by its kind and by the children in the roles that this kind asks for.
Each statement says it of one meaning, in both directions.  A method call is told so by the call and
the member that is its callee.
-/

namespace EndpointPayload
namespace Source
namespace Tree

variable {t : Tree}

/-- A node stands for a name if it has that name. -/
theorem meaning?_eq_name_iff
    {name : String} :
    t.meaning? = some (.name name) ↔ t.name? = some name := by
  constructor
  · intro h
    unfold meaning? at h
    split at h <;> (try split at h) <;> simp_all [name?, Kind.isName, Option.bind_eq_some_iff]
  · intro h
    obtain ⟨hkind, htext⟩ := Option.ite_none_right_eq_some.mp h
    unfold Kind.isName at hkind
    split at hkind <;> simp_all [meaning?]

theorem meaning?_eq_call_iff
    {callee : Tree}
    {arguments : List Tree} :
    t.meaning? = some (.call callee arguments) ↔
      t.kind = .call ∧ t.child? .callee = some callee ∧ arguments = t.argumentsOf := by
  constructor
  · intro h
    unfold meaning? at h
    split at h <;> (try split at h) <;> simp_all [Option.bind_eq_some_iff]
  · rintro ⟨hkind, hcallee, rfl⟩
    simp [meaning?, hkind, hcallee]

theorem meaning?_eq_member_iff
    {object property : Tree} :
    t.meaning? = some (.member object property) ↔
      t.kind = .member ∧ t.child? .object = some object ∧ t.child? .property = some property := by
  constructor
  · intro h
    unfold meaning? at h
    split at h <;> (try split at h) <;> simp_all [Option.bind_eq_some_iff]
  · rintro ⟨hkind, hobject, hproperty⟩
    simp [meaning?, hkind, hobject, hproperty]

theorem meaning?_eq_function_iff
    {name : String} :
    t.meaning? = some (.function name) ↔
      (t.kind = .functionDeclaration ∨ t.kind = .generatorDeclaration) ∧
        ∃ target, t.child? .name = some target ∧ target.text = name := by
  constructor
  · intro h
    unfold meaning? at h
    split at h <;> (try split at h) <;> simp_all [Option.bind_eq_some_iff]
  · rintro ⟨hkind | hkind, target, htarget, rfl⟩ <;> simp [meaning?, hkind, htarget]

theorem meaning?_eq_declarator_iff
    {target : Tree}
    {value : Option Tree} :
    t.meaning? = some (.declarator target value) ↔
      t.kind = .variableDeclarator ∧ t.child? .name = some target ∧ t.child? .value = value := by
  constructor
  · intro h
    unfold meaning? at h
    split at h <;> (try split at h) <;> simp_all [Option.bind_eq_some_iff]
  · rintro ⟨hkind, htarget, rfl⟩
    simp [meaning?, hkind, htarget]

theorem meaning?_eq_assignment_iff
    {left right : Tree} :
    t.meaning? = some (.assignment left right) ↔
      t.kind = .assignment ∧ t.child? .left = some left ∧ t.child? .right = some right := by
  constructor
  · intro h
    unfold meaning? at h
    split at h <;> (try split at h) <;> simp_all [Option.bind_eq_some_iff]
  · rintro ⟨hkind, hleft, hright⟩
    simp [meaning?, hkind, hleft, hright]

/-- A method is named by its key as written, a function under a key by what the key spells. -/
theorem meaning?_eq_method_iff
    {name : String} :
    t.meaning? = some (.method name) ↔
      (t.kind = .methodDefinition ∧ ∃ key, t.child? .name = some key ∧ key.text = name) ∨
        t.kind = .pair ∧ ∃ key value, t.child? .key = some key ∧ t.child? .value = some value ∧
          value.kind.isFunction ∧ key.keyText = name := by
  constructor
  · intro h
    unfold meaning? at h
    split at h <;> (try split at h) <;> simp_all [Option.bind_eq_some_iff]
  · rintro (⟨hkind, key, hkey, rfl⟩ | ⟨hkind, key, value, hkey, hvalue, hfunction, rfl⟩)
    · simp [meaning?, hkind, hkey]
    · simp [meaning?, hkind, hkey, hvalue, hfunction]

/-! ## Method calls -/

/-- `object.name(arguments…)`, with the member that is called. -/
structure IsMethodCall (t callee object : Tree) (name : String) (arguments : List Tree) : Prop where
  kind_eq : t.kind = .call
  callee_eq : t.child? .callee = some callee
  calleeKind_eq : callee.kind = .member
  object_eq : callee.child? .object = some object
  property : ∃ property, callee.child? .property = some property ∧ property.name? = some name
  arguments_eq : t.argumentsOf = arguments

variable {callee object : Tree} {name : String} {arguments : List Tree}

theorem namedMember?_eq_some_iff :
    callee.namedMember? = some (object, name) ↔
      callee.kind = .member ∧ callee.child? .object = some object ∧
        ∃ property, callee.child? .property = some property ∧ property.name? = some name := by
  unfold namedMember?
  constructor
  · intro h
    split at h
    · rename_i hkind
      split at h
      · rename_i o n hobject hproperty
        cases h
        exact ⟨hkind, hobject, Option.bind_eq_some_iff.mp hproperty⟩
      · cases h
    · cases h
  · rintro ⟨hkind, hobject, hproperty⟩
    rw [if_pos hkind, hobject, Option.bind_eq_some_iff.mpr hproperty]

theorem methodCall?_eq_some_iff :
    t.methodCall? = some ⟨object, name, arguments⟩ ↔
      ∃ callee, t.IsMethodCall callee object name arguments := by
  unfold methodCall?
  constructor
  · intro h
    split at h
    · rename_i hkind
      split at h
      · rename_i o n hcallee
        cases h
        obtain ⟨callee, hchild, hmember⟩ := Option.bind_eq_some_iff.mp hcallee
        obtain ⟨hmemberKind, hobject, hproperty⟩ := namedMember?_eq_some_iff.mp hmember
        exact ⟨callee, hkind, hchild, hmemberKind, hobject, hproperty, rfl⟩
      · cases h
    · cases h
  · rintro ⟨callee, hkind, hchild, hmemberKind, hobject, hproperty, rfl⟩
    have hmember := namedMember?_eq_some_iff.mpr ⟨hmemberKind, hobject, hproperty⟩
    rw [if_pos hkind, hchild, Option.bind_some, hmember]

end Tree
end Source
end EndpointPayload
