import EndpointPayload.Proofs.Decimal.Finite
import EndpointPayload.Proofs.Forecast.Plain

/-!
# Numbers of the schema and of the body

`Json.HoldsNumber` lists the values that the body writes as numbers: numbers, and texts of numbers
in one of the four wrappers.  The schema labels all of them as numbers but those in a `$numberInt`
or a `$numberDouble`.
-/

namespace EndpointPayload

namespace Json

/-- A number, or a wrapper around the text of one. -/
inductive HoldsNumber : Json → Prop
  | whole (n : Int) : HoldsNumber (.int n)
  | decimal (x : Float) (h : x.isFinite = true) : HoldsNumber (.float x)
  | wrappedWhole
      {key s : String}
      {n : Int}
      (hkey : key ∈ wholeKeys)
      (h : Decimal.wholeOf? s = some n) :
      HoldsNumber (.obj [(key, .str s)])
  | wrappedDecimal
      {key s : String}
      {x : Float}
      (hkey : key ∈ decimalKeys)
      (h : Decimal.floatOf? s = some x) :
      HoldsNumber (.obj [(key, .str s)])

section Labels

variable {now label key : String} {v w : Json}

/-- A value of the type number is a whole number or a finite float. -/
theorem HasLabel.eq_number (h : HasLabel now label v) (hlabel : label = "number") :
    (∃ n, v = .int n) ∨ ∃ x, x.isFinite = true ∧ v = .float x := by
  cases h with
  | whole n => exact .inl ⟨n, rfl⟩
  | decimal x hfinite => exact .inr ⟨x, hfinite, rfl⟩
  | _ => exact absurd hlabel (by decide)

theorem not_hasLabel_number
    (hwhole : ∀ n, v ≠ .int n)
    (hdecimal : ∀ x, v ≠ .float x) :
    ¬ HasLabel now "number" v := by
  intro h
  rcases h.eq_number rfl with ⟨n, hn⟩ | ⟨x, -, hx⟩
  · exact hwhole n hn
  · exact hdecimal x hx

/-- A wrapper with the key of a number is labelled as a number or unlabelled. -/
theorem typeName_wrapper_iff (hkey : key ∈ wholeKeys ++ decimalKeys) :
    (Json.obj [(key, w)]).typeName = "number" ↔
      ¬ (Json.obj [(key, w)]).IsUnlabelledNumber := by
  have htag : ∀ key ∈ wholeKeys ++ decimalKeys, key.startsWith "$" = true := by decide +kernel
  simp only [typeName, tagOf?_singleton (htag key hkey)]
  simp only [wholeKeys, decimalKeys, List.cons_append, List.nil_append, List.mem_cons,
    List.not_mem_nil, or_false] at hkey
  rcases hkey with rfl | rfl | rfl | rfl <;> simp [IsUnlabelledNumber]

/-- The schema labels a number as one unless it takes its wrapper for an object. -/
theorem HoldsNumber.typeName_iff (h : v.HoldsNumber) :
    v.typeName = "number" ↔ ¬ v.IsUnlabelledNumber := by
  cases h with
  | whole n => exact iff_of_true rfl id
  | decimal x => exact iff_of_true rfl id
  | wrappedWhole hkey => exact typeName_wrapper_iff (List.mem_append_left _ hkey)
  | wrappedDecimal hkey => exact typeName_wrapper_iff (List.mem_append_right _ hkey)

end Labels

end Json

namespace Body

open Json

variable {now : String} {u v w : Json}

theorem eq_str_of_wholeNumber? (h : wholeNumber? w = some u) :
    ∃ s n, w = .str s ∧ Decimal.wholeOf? s = some n := by
  cases w with
  | str s =>
      obtain ⟨n, hn, -⟩ := Option.map_eq_some_iff.mp h
      exact ⟨s, n, rfl, hn⟩
  | _ => cases h

theorem eq_str_of_decimalNumber? (h : decimalNumber? w = some u) :
    ∃ s x, w = .str s ∧ Decimal.floatOf? s = some x := by
  cases w with
  | str s =>
      obtain ⟨x, hx, -⟩ := Option.map_eq_some_iff.mp h
      exact ⟨s, x, rfl, hx⟩
  | _ => cases h

/-- Numbers and the texts of numbers in wrappers are written as numbers. -/
theorem hasLabel_plain_of_holdsNumber (h : v.HoldsNumber) :
    HasLabel now "number" (plain now v) := by
  cases h with
  | whole n =>
      rw [plain_of_isScalar now (show (Json.int n).IsScalar from trivial)]
      exact .whole n
  | decimal x hfinite =>
      rw [plain_of_isScalar now (show (Json.float x).IsScalar from trivial)]
      exact .decimal x hfinite
  | @wrappedWhole key s n hkey hs =>
      rw [plain_wholeKey hkey, wholeNumber?, hs]
      exact .whole n
  | @wrappedDecimal key s x hkey hs =>
      rw [plain_decimalKey hkey, decimalNumber?, hs]
      exact .decimal x (Decimal.isFinite_of_floatOf? hs)

/-- An object that is written as a number is a wrapper around the text of one. -/
theorem holdsNumber_of_hasLabel_plain
    {fields : List (String × Json)}
    (h : HasLabel now "number" (plain now (.obj fields))) :
    (Json.obj fields).HoldsNumber := by
  rcases wrapper_cases fields with hkeys | ⟨w, rfl⟩ | ⟨w, rfl⟩ | ⟨key, hkey, w, rfl⟩ |
    ⟨key, hkey, w, rfl⟩
  · rw [plain_obj hkeys] at h
    exact absurd h (not_hasLabel_number (by simp) (by simp))
  · rw [plain] at h
    cases hid : (Json.obj [("$oid", w)]).objectId? with
    | none =>
        rw [hid] at h
        exact absurd h (not_hasLabel_number (by simp) (by simp))
    | some s =>
        rw [hid] at h
        exact absurd h (not_hasLabel_number (by simp) (by simp))
  · rw [plain] at h
    exact absurd h (not_hasLabel_number (by simp) (by simp))
  · rw [plain_wholeKey hkey] at h
    cases hw : wholeNumber? w with
    | none =>
        rw [hw] at h
        exact absurd h (not_hasLabel_number (by simp) (by simp))
    | some u =>
        obtain ⟨s, n, rfl, hs⟩ := eq_str_of_wholeNumber? hw
        exact .wrappedWhole hkey hs
  · rw [plain_decimalKey hkey] at h
    cases hw : decimalNumber? w with
    | none =>
        rw [hw] at h
        exact absurd h (not_hasLabel_number (by simp) (by simp))
    | some u =>
        obtain ⟨s, x, rfl, hs⟩ := eq_str_of_decimalNumber? hw
        exact .wrappedDecimal hkey hs

/-- The values that are written as numbers. -/
theorem hasLabel_number_plain_iff : HasLabel now "number" (plain now v) ↔ v.HoldsNumber := by
  refine ⟨fun h => ?_, hasLabel_plain_of_holdsNumber⟩
  have hscalar : v.IsScalar → plain now v = v := plain_of_isScalar now
  cases v with
  | obj fields => exact holdsNumber_of_hasLabel_plain h
  | arr items =>
      rw [plain] at h
      exact absurd h (not_hasLabel_number (by simp) (by simp))
  | _ =>
      rw [hscalar trivial] at h
      rcases h.eq_number rfl with ⟨n, hn⟩ | ⟨x, hfinite, hx⟩
      · cases hn <;> exact .whole _
      · cases hx <;> exact .decimal _ hfinite

/-- The body writes exactly the numbers and the wrapped texts of numbers as numbers, and the schema
labels all of these as numbers but those that it takes for objects. -/
theorem typeName_of_plain_number (now : String) (v : Json) :
    (HasLabel now "number" (plain now v) ↔ v.HoldsNumber) ∧
      (HasLabel now "number" (plain now v) →
        (v.typeName = "number" ↔ ¬ v.IsUnlabelledNumber)) :=
  ⟨hasLabel_number_plain_iff, fun h => (hasLabel_number_plain_iff.mp h).typeName_iff⟩

/-- The text of a whole number in a `$numberLong` is a number for both. -/
theorem typeName_of_plain_numberLong :
    HasLabel "" "number" (plain "" (.obj [("$numberLong", .str "-12")])) ∧
      (Json.obj [("$numberLong", .str "-12")]).typeName = "number" := by
  have hs : Decimal.wholeOf? "-12" = some (-12) := by decide +kernel
  have h := typeName_of_plain_number "" (.obj [("$numberLong", .str "-12")])
  have hplain := h.1.mpr (.wrappedWhole (by decide) hs)
  exact ⟨hplain, (h.2 hplain).mpr (by simp [IsUnlabelledNumber])⟩

/-- The text of a number in a `$numberInt` is written as a number, but labelled as an object. -/
theorem not_forall_typeName_of_plain_number :
    ¬ ∀ (now : String) (key : String) (w : Json), key.startsWith "$" = true →
      HasLabel now "number" (plain now (.obj [(key, w)])) →
      (Json.obj [(key, w)]).typeName = "number" := by
  intro hall
  have hs : Decimal.wholeOf? "1" = some 1 := by decide +kernel
  have hplain : HasLabel "" "number" (plain "" (.obj [("$numberInt", .str "1")])) :=
    hasLabel_plain_of_holdsNumber (.wrappedWhole (by decide) hs)
  have hlabel : (Json.obj [("$numberInt", .str "1")]).typeName = "object" := by decide +kernel
  have h := hall "" "$numberInt" (.str "1") (by decide +kernel) hplain
  rw [hlabel] at h
  exact absurd h (by decide)

end Body
end EndpointPayload
