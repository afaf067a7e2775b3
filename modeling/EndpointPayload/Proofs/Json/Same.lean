import EndpointPayload.Document.Value
import EndpointPayload.Proofs.Decimal.Equality
import EndpointPayload.Proofs.Json.Fields
import EndpointPayload.Proofs.Json.Parts

/-!
# Equality of values

Two objects are equal if they have equally many fields and every field of the one has an equal one
under its key in the other.  That this is symmetric takes distinct keys in both, and that a value
is equal to itself takes distinct keys and numbers that are numbers.  `Json.IsProper` says so of a
value and of all its parts, which is what a JSON text can hold.
-/

namespace EndpointPayload
namespace Json

/-- The keys of an object are distinct. -/
def KeysDiffer : Json → Prop
  | obj fields => (fields.map Prod.fst).Nodup
  | _ => True

/-- A float is a number. -/
def IsNumeric : Json → Prop
  | float x => x.isNaN = false
  | _ => True

/-- In every object of a value, at any depth, the keys are distinct. -/
def IsKeyed (v : Json) : Prop := v.Throughout KeysDiffer

/-- A value as a text can hold it: distinct keys, and numbers that are numbers. -/
structure IsProper (v : Json) : Prop where
  isKeyed : v.IsKeyed
  isNumeric : v.Throughout IsNumeric

variable {v w u : Json} {items others : List Json} {fields rest : List (String × Json)}

section Proper

theorem isKeyed_arr_iff : (Json.arr items).IsKeyed ↔ ∀ v ∈ items, v.IsKeyed := by
  rw [IsKeyed, throughout_arr_iff]
  exact and_iff_right trivial

theorem isKeyed_obj_iff :
    (Json.obj fields).IsKeyed ↔ (fields.map Prod.fst).Nodup ∧ ∀ f ∈ fields, f.2.IsKeyed :=
  throughout_obj_iff

theorem isProper_arr_iff : (Json.arr items).IsProper ↔ ∀ v ∈ items, v.IsProper := by
  constructor
  · intro h v hv
    exact ⟨isKeyed_arr_iff.1 h.isKeyed v hv, (throughout_arr_iff.mp h.isNumeric).2 v hv⟩
  · intro h
    exact ⟨isKeyed_arr_iff.2 fun v hv => (h v hv).isKeyed,
      throughout_arr_iff.mpr ⟨trivial, fun v hv => (h v hv).isNumeric⟩⟩

theorem isProper_obj_iff :
    (Json.obj fields).IsProper ↔ (fields.map Prod.fst).Nodup ∧ ∀ f ∈ fields, f.2.IsProper := by
  constructor
  · intro h
    obtain ⟨hkeys, hfields⟩ := isKeyed_obj_iff.1 h.isKeyed
    exact ⟨hkeys, fun f hf => ⟨hfields f hf, (throughout_obj_iff.mp h.isNumeric).2 f hf⟩⟩
  · rintro ⟨hkeys, hfields⟩
    exact ⟨isKeyed_obj_iff.2 ⟨hkeys, fun f hf => (hfields f hf).isKeyed⟩,
      throughout_obj_iff.mpr ⟨trivial, fun f hf => (hfields f hf).isNumeric⟩⟩

/-- A scalar is proper if it is a number where it is a float. -/
theorem isProper_iff_of_isScalar (h : v.IsScalar) : v.IsProper ↔ v.IsNumeric := by
  constructor
  · exact fun hv => hv.isNumeric v .self
  · intro hv
    refine ⟨(throughout_iff_of_isScalar h).mpr ?_, (throughout_iff_of_isScalar h).mpr hv⟩
    cases v with
    | obj fields => cases h
    | _ => trivial

/-- The number of a proper value is a number. -/
theorem IsProper.isNaN_number {x : Float} (h : v.IsProper) (hx : v.number? = some x) :
    x.isNaN = false := by
  cases v with
  | int n =>
      cases hx
      exact Decimal.isNaN_ofInt n
  | float y =>
      cases hx
      exact h.isNumeric _ .self
  | _ => cases hx

end Proper

section Shape

theorem sameItems_iff :
    ∀ {items others : List Json},
      sameItems items others = true ↔ List.Forall₂ (fun v w => same v w = true) items others
  | [], [] => by simp [sameItems]
  | [], _ :: _ => by simp [sameItems]
  | _ :: _, [] => by simp [sameItems]
  | v :: items, w :: others => by
      rw [sameItems, Bool.and_eq_true, sameItems_iff, List.forall₂_cons]

theorem sameFields_iff :
    ∀ {fields : List (String × Json)},
      sameFields fields rest = true ↔
        ∀ f ∈ fields, ∃ w, lookup f.1 rest = some w ∧ same f.2 w = true
  | [] => by simp [sameFields]
  | (k, v) :: fields => by
      rw [sameFields, Bool.and_eq_true, sameFields_iff, List.forall_mem_cons]
      refine and_congr_left fun _ => ?_
      cases h : lookup k rest with
      | none => simp
      | some w => simp

/-- What makes two values equal: they are the same scalar, or floats that compare as equal, or they
have equal parts, those of objects under the same keys. -/
inductive Alike : Json → Json → Prop
  | scalar
      {v : Json}
      (hscalar : v.IsScalar)
      (hfloat : ∀ x, v ≠ .float x) :
      Alike v v
  | float
      {x y : Float}
      (hbeq : (x == y) = true) :
      Alike (.float x) (.float y)
  | array
      {items others : List Json}
      (hitems : List.Forall₂ (fun v w => same v w = true) items others) :
      Alike (.arr items) (.arr others)
  | object
      {fields rest : List (String × Json)}
      (hlength : fields.length = rest.length)
      (hfields : ∀ f ∈ fields, ∃ w, lookup f.1 rest = some w ∧ same f.2 w = true) :
      Alike (.obj fields) (.obj rest)

theorem same_iff_alike : same v w = true ↔ Alike v w := by
  constructor
  · intro h
    cases v with
    | arr items =>
        cases w with
        | arr others => exact .array (sameItems_iff.1 (by simpa [same] using h))
        | _ => simp [same] at h
    | obj fields =>
        cases w with
        | obj rest =>
            rw [same, Bool.and_eq_true, beq_iff_eq, sameFields_iff] at h
            exact .object h.1 h.2
        | _ => simp [same] at h
    | float x =>
        cases w with
        | float y => exact .float (by simpa [same] using h)
        | _ => simp [same] at h
    | null =>
        cases w with
        | null => exact .scalar trivial fun _ hx => by cases hx
        | _ => simp [same] at h
    | _ =>
        cases w with
        | _ =>
            simp only [same, beq_iff_eq, Bool.false_eq_true] at h
            all_goals
              subst h
              exact .scalar trivial fun _ hx => by cases hx
  · intro h
    cases h with
    | scalar hscalar hfloat =>
        cases v with
        | arr items => cases hscalar
        | obj fields => cases hscalar
        | float x => exact absurd rfl (hfloat x)
        | _ => simp [same]
    | float hbeq => rwa [same]
    | array hitems => rwa [same, sameItems_iff]
    | object hlength hfields =>
        rw [same, Bool.and_eq_true, beq_iff_eq, sameFields_iff]
        exact ⟨hlength, hfields⟩

/-- A text is equal to itself only. -/
theorem same_str_iff {s : String} : same v (.str s) = true ↔ v = .str s := by
  rw [same_iff_alike]
  constructor
  · intro h
    cases h
    rfl
  · rintro rfl
    exact .scalar trivial fun _ hx => by cases hx

/-- Only null is equal to null. -/
theorem isNull_eq_of_same (h : same v w = true) : v.isNull = w.isNull := by
  cases same_iff_alike.1 h <;> rfl

end Shape

section Equivalence

/-- A proper value is equal to itself. -/
theorem IsProper.same_self (h : v.IsProper) : same v v = true := by
  induction v using Json.induction with
  | scalar v hscalar =>
      cases v with
      | float x => exact same_iff_alike.2 (.float (Decimal.beq_self (h.isNumeric _ .self)))
      | _ => exact same_iff_alike.2 (.scalar hscalar fun _ hx => by cases hx)
  | array items ih =>
      refine same_iff_alike.2 (.array (List.forall₂_same.mpr fun v hv => ?_))
      exact ih v hv (isProper_arr_iff.1 h v hv)
  | object fields ih =>
      obtain ⟨hkeys, hfields⟩ := isProper_obj_iff.1 h
      refine same_iff_alike.2 (.object rfl fun f hf => ?_)
      exact ⟨f.2, lookup_of_mem fields hkeys hf, ih f hf (hfields f hf)⟩

/-- With distinct keys, the fields of the one object have all the keys of an equal one. -/
theorem exists_field_of_length
    {key : String}
    (hkeys : (fields.map Prod.fst).Nodup)
    (hlength : fields.length = rest.length)
    (hfields : ∀ f ∈ fields, ∃ w, lookup f.1 rest = some w ∧ same f.2 w = true)
    (hrest : (key, w) ∈ rest) :
    ∃ v, (key, v) ∈ fields := by
  have hsub : fields.map Prod.fst ⊆ rest.map Prod.fst := by
    intro k hk
    obtain ⟨f, hf, rfl⟩ := List.mem_map.mp hk
    obtain ⟨u, hu, -⟩ := hfields f hf
    exact List.mem_map.mpr ⟨_, mem_of_lookup rest hu, rfl⟩
  have hperm : (fields.map Prod.fst).Perm (rest.map Prod.fst) := by
    refine (hkeys.subperm hsub).perm_of_length_le ?_
    rw [List.length_map, List.length_map, hlength]
  have hkey : key ∈ fields.map Prod.fst := hperm.mem_iff.mpr (List.mem_map_of_mem hrest)
  obtain ⟨⟨k, v⟩, hf, rfl⟩ := List.mem_map.mp hkey
  exact ⟨v, hf⟩

/-- Where keys are distinct, equality does not look at the order of its sides. -/
theorem same_symm (hv : v.IsKeyed) (hw : w.IsKeyed) (h : same v w = true) : same w v = true := by
  induction v using Json.induction generalizing w with
  | scalar v hscalar =>
      cases same_iff_alike.1 h with
      | scalar => exact h
      | float hbeq => exact same_iff_alike.2 (.float (Decimal.beq_symm hbeq))
      | array => cases hscalar
      | object => cases hscalar
  | array items ih =>
      cases same_iff_alike.1 h with
      | scalar hscalar => cases hscalar
      | array hitems =>
          refine same_iff_alike.2 (.array (List.forall₂_iff_get.mpr ⟨hitems.length_eq.symm, ?_⟩))
          intro i hi hi'
          exact ih _ (List.get_mem _ _) (isKeyed_arr_iff.1 hv _ (List.get_mem _ _))
            (isKeyed_arr_iff.1 hw _ (List.get_mem _ _)) (hitems.get hi' hi)
  | object fields ih =>
      cases same_iff_alike.1 h with
      | scalar hscalar => cases hscalar
      | @object fields rest hlength heach =>
          obtain ⟨hkeys, hfields⟩ := isKeyed_obj_iff.1 hv
          obtain ⟨hkeys', hfields'⟩ := isKeyed_obj_iff.1 hw
          refine same_iff_alike.2 (.object hlength.symm fun g hg => ?_)
          obtain ⟨v, hf⟩ := exists_field_of_length hkeys hlength heach hg
          obtain ⟨u, hu, hsame⟩ := heach _ hf
          obtain rfl : g.2 = u := Option.some.inj ((lookup_of_mem rest hkeys' hg).symm.trans hu)
          exact ⟨v, lookup_of_mem fields hkeys hf, ih _ hf (hfields _ hf) (hfields' g hg) hsame⟩

theorem same_trans (hvw : same v w = true) (hwu : same w u = true) : same v u = true := by
  induction v using Json.induction generalizing w u with
  | scalar v hscalar =>
      cases same_iff_alike.1 hvw with
      | scalar => exact hwu
      | float hxy =>
          cases same_iff_alike.1 hwu with
          | scalar _ hfloat => exact absurd rfl (hfloat _)
          | float hyz => exact same_iff_alike.2 (.float (Decimal.beq_trans hxy hyz))
      | array => cases hscalar
      | object => cases hscalar
  | array items ih =>
      cases same_iff_alike.1 hvw with
      | scalar hscalar => cases hscalar
      | @array _ others hitems =>
          cases same_iff_alike.1 hwu with
          | scalar hscalar => cases hscalar
          | array hothers =>
              refine same_iff_alike.2 (.array (List.forall₂_iff_get.mpr
                ⟨hitems.length_eq.trans hothers.length_eq, fun i hi hi' => ?_⟩))
              have hmiddle : i < others.length := hitems.length_eq ▸ hi
              exact ih _ (List.get_mem _ _) (hitems.get hi hmiddle) (hothers.get hmiddle hi')
  | object fields ih =>
      cases same_iff_alike.1 hvw with
      | scalar hscalar => cases hscalar
      | @object _ rest hlength heach =>
          cases same_iff_alike.1 hwu with
          | scalar hscalar => cases hscalar
          | object hlength' heach' =>
              refine same_iff_alike.2 (.object (hlength.trans hlength') fun f hf => ?_)
              obtain ⟨w, hw, hfw⟩ := heach f hf
              obtain ⟨u, hu, hwu⟩ := heach' _ (mem_of_lookup rest hw)
              exact ⟨u, hu, ih f hf hfw hwu⟩

end Equivalence

end Json
end EndpointPayload
