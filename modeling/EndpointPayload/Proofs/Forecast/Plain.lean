import EndpointPayload.Proofs.Forecast.Written
import EndpointPayload.Proofs.Json.Parts

/-!
# Values without wrappers

`Json.IsUnwrapped` describes a value in which nothing is left to unwrap: its only wrappers hold
texts that are no numbers.  Writing a value plainly gives such a value, whatever is wrapped in what,
and leaves such a value as it is.  So a second writing changes nothing, and no object id or date
stays wrapped at any depth.
-/

namespace EndpointPayload

namespace Json

/-- The keys of the wrappers around whole numbers. -/
def wholeKeys : List String := ["$numberLong", "$numberInt"]

/-- The keys of the wrappers around decimals. -/
def decimalKeys : List String := ["$numberDecimal", "$numberDouble"]

/-- The keys of all wrappers that the body opens. -/
def wrapperKeys : List String := ["$oid", "$date"] ++ wholeKeys ++ decimalKeys

/-- Wrapped numbers are written as texts, at every depth. -/
def WrapsTexts (v : Json) : Prop :=
  ∀ key ∈ wholeKeys ++ decimalKeys, ∀ w, IsPart (.obj [(key, w)]) v → ∃ s, w = .str s

/-- A value with nothing left to unwrap. -/
inductive IsUnwrapped : Json → Prop
  | scalar
      {v : Json}
      (h : v.IsScalar) :
      IsUnwrapped v
  | array
      {items : List Json}
      (h : ∀ v ∈ items, IsUnwrapped v) :
      IsUnwrapped (.arr items)
  | object
      {fields : List (String × Json)}
      (hkeys : ∀ key ∈ wrapperKeys, ∀ w, fields ≠ [(key, w)])
      (h : ∀ f ∈ fields, IsUnwrapped f.2) :
      IsUnwrapped (.obj fields)
  | noWhole
      {key s : String}
      (hkey : key ∈ wholeKeys)
      (h : Decimal.wholeOf? s = none) :
      IsUnwrapped (.obj [(key, .str s)])
  | noDecimal
      {key s : String}
      (hkey : key ∈ decimalKeys)
      (h : Decimal.floatOf? s = none) :
      IsUnwrapped (.obj [(key, .str s)])

section Wrappers

variable {key : String} {v w : Json} {items : List Json} {fields : List (String × Json)}

/-- An object is no wrapper, or it wraps an object id, a date, a whole number or a decimal. -/
theorem wrapper_cases (fields : List (String × Json)) :
    (∀ key ∈ wrapperKeys, ∀ w, fields ≠ [(key, w)]) ∨
      (∃ w, fields = [("$oid", w)]) ∨
      (∃ w, fields = [("$date", w)]) ∨
      (∃ key ∈ wholeKeys, ∃ w, fields = [(key, w)]) ∨
      ∃ key ∈ decimalKeys, ∃ w, fields = [(key, w)] := by
  by_cases hkeys : ∀ key ∈ wrapperKeys, ∀ w, fields ≠ [(key, w)]
  · exact .inl hkeys
  · push Not at hkeys
    obtain ⟨key, hkey, w, rfl⟩ := hkeys
    rw [wrapperKeys, List.append_assoc, List.mem_append, List.mem_append] at hkey
    rcases hkey with hkey | hkey | hkey
    · simp only [List.mem_cons, List.not_mem_nil, or_false] at hkey
      rcases hkey with rfl | rfl
      · exact .inr (.inl ⟨w, rfl⟩)
      · exact .inr (.inr (.inl ⟨w, rfl⟩))
    · exact .inr (.inr (.inr (.inl ⟨key, hkey, w, rfl⟩)))
    · exact .inr (.inr (.inr (.inr ⟨key, hkey, w, rfl⟩)))

theorem WrapsTexts.of_isPart (h : WrapsTexts v) (hpart : ∀ u, IsPart u w → IsPart u v) :
    WrapsTexts w :=
  fun key hkey u hu => h key hkey u (hpart _ hu)

theorem WrapsTexts.item (h : WrapsTexts (.arr items)) (hitem : v ∈ items) : WrapsTexts v :=
  h.of_isPart fun _ hu => .item hitem hu

theorem WrapsTexts.field
    {f : String × Json}
    (h : WrapsTexts (.obj fields))
    (hfield : f ∈ fields) :
    WrapsTexts f.2 :=
  h.of_isPart fun _ hu => .field hfield hu

/-- The parts of an unwrapped value are unwrapped. -/
theorem IsUnwrapped.of_isPart (h : IsUnwrapped v) (hpart : IsPart w v) : IsUnwrapped w := by
  induction hpart with
  | self => exact h
  | item hitem _ ih =>
      cases h with
      | scalar h => cases h
      | array h => exact ih (h _ hitem)
  | field hfield _ ih =>
      cases h with
      | scalar h => cases h
      | object _ h => exact ih (h _ hfield)
      | noWhole =>
          rw [List.mem_singleton] at hfield
          exact ih (hfield ▸ .scalar trivial)
      | noDecimal =>
          rw [List.mem_singleton] at hfield
          exact ih (hfield ▸ .scalar trivial)

theorem disjoint_wrapperKeys : ∀ key ∈ ["$oid", "$date"], key ∉ wholeKeys ++ decimalKeys := by
  decide

theorem disjoint_numberKeys : ∀ key ∈ wholeKeys, key ∉ decimalKeys := by
  decide

/-- No unwrapped value is a wrapped object id or a wrapped date. -/
theorem not_isUnwrapped_wrapper (hkey : key ∈ ["$oid", "$date"]) :
    ¬ IsUnwrapped (.obj [(key, w)]) := by
  intro h
  cases h with
  | scalar h => cases h
  | object hkeys _ => exact hkeys key (List.mem_append_left _ (List.mem_append_left _ hkey)) w rfl
  | noWhole hwhole _ => exact disjoint_wrapperKeys _ hkey (List.mem_append_left _ hwhole)
  | noDecimal hdecimal _ => exact disjoint_wrapperKeys _ hkey (List.mem_append_right _ hdecimal)

/-- A whole number stays wrapped only if its text is none. -/
theorem IsUnwrapped.wholeOf?_eq_none
    {s : String}
    (h : IsUnwrapped (.obj [(key, .str s)]))
    (hkey : key ∈ wholeKeys) :
    Decimal.wholeOf? s = none := by
  cases h with
  | scalar h => cases h
  | object hkeys _ => exact absurd rfl (hkeys key (by simp [wrapperKeys, hkey]) (.str s))
  | noWhole _ h => exact h
  | noDecimal hdecimal _ => exact absurd hdecimal (disjoint_numberKeys key hkey)

/-- A decimal stays wrapped only if its text is none. -/
theorem IsUnwrapped.floatOf?_eq_none
    {s : String}
    (h : IsUnwrapped (.obj [(key, .str s)]))
    (hkey : key ∈ decimalKeys) :
    Decimal.floatOf? s = none := by
  cases h with
  | scalar h => cases h
  | object hkeys _ => exact absurd rfl (hkeys key (by simp [wrapperKeys, hkey]) (.str s))
  | noWhole hwhole _ => exact absurd hkey (disjoint_numberKeys key hwhole)
  | noDecimal _ h => exact h

/-- A value without wrappers is unwrapped. -/
theorem isUnwrapped_of_not_isPart (v : Json) :
    (∀ key ∈ wrapperKeys, ∀ w, ¬ IsPart (.obj [(key, w)]) v) → IsUnwrapped v := by
  induction v using Json.induction with
  | scalar v hv => exact fun _ => .scalar hv
  | array items ih =>
      intro h
      exact .array fun v hv => ih v hv fun key hkey w hw => h key hkey w (.item hv hw)
  | object fields ih =>
      intro h
      refine .object (fun key hkey w heq => h key hkey w ?_) fun f hf => ?_
      · rw [heq]
        exact .self
      · exact ih f hf fun key hkey w hw => h key hkey w (.field hf hw)

end Wrappers

end Json

namespace Body

open Json

variable {now key : String} {v : Json} {items : List Json} {fields : List (String × Json)}

theorem plainItems_eq (now : String) (items : List Json) :
    plainItems now items = items.map (plain now) := by
  induction items with
  | nil => rfl
  | cons v items ih => rw [plainItems, ih, List.map_cons]

theorem plainFields_eq (now : String) (fields : List (String × Json)) :
    plainFields now fields = fields.map fun f => (f.1, plain now f.2) := by
  induction fields with
  | nil => rfl
  | cons f fields ih => rw [plainFields, ih, List.map_cons]

theorem plain_of_isScalar (now : String) (h : v.IsScalar) : plain now v = v := by
  cases v with
  | arr items => cases h
  | obj fields => cases h
  | _ => simp [plain]

theorem plain_wholeKey (hkey : key ∈ wholeKeys) :
    plain now (.obj [(key, v)]) = (wholeNumber? v).getD (.obj [(key, v)]) := by
  simp only [wholeKeys, List.mem_cons, List.not_mem_nil, or_false] at hkey
  rcases hkey with rfl | rfl <;> rw [plain]

theorem plain_decimalKey (hkey : key ∈ decimalKeys) :
    plain now (.obj [(key, v)]) = (decimalNumber? v).getD (.obj [(key, v)]) := by
  simp only [decimalKeys, List.mem_cons, List.not_mem_nil, or_false] at hkey
  rcases hkey with rfl | rfl <;> rw [plain]

/-- A wrapped whole number is opened unless its text is none. -/
theorem isUnwrapped_plain_whole
    (hkey : key ∈ wholeKeys)
    (s : String) :
    IsUnwrapped (plain now (.obj [(key, .str s)])) := by
  rw [plain_wholeKey hkey, wholeNumber?]
  cases hs : Decimal.wholeOf? s with
  | none => exact .noWhole hkey hs
  | some n => exact .scalar trivial

/-- A wrapped decimal is opened unless its text is none. -/
theorem isUnwrapped_plain_decimal
    (hkey : key ∈ decimalKeys)
    (s : String) :
    IsUnwrapped (plain now (.obj [(key, .str s)])) := by
  rw [plain_decimalKey hkey, decimalNumber?]
  cases hs : Decimal.floatOf? s with
  | none => exact .noDecimal hkey hs
  | some x => exact .scalar trivial

/-- A value with nothing left to unwrap is written as it is. -/
theorem plain_eq_self (now : String) (h : IsUnwrapped v) : plain now v = v := by
  induction h with
  | scalar h => exact plain_of_isScalar now h
  | @array items _ ih =>
      rw [plain, plainItems_eq, List.map_congr_left ih, List.map_id']
  | @object fields hkeys _ ih =>
      have hfields : plainFields now fields = fields := by
        rw [plainFields_eq, List.map_congr_left fun f hf => by rw [ih f hf], List.map_id']
      rw [plain_obj hkeys, hfields]
  | noWhole hkey h =>
      rw [plain_wholeKey hkey, wholeNumber?, h]
      rfl
  | noDecimal hkey h =>
      rw [plain_decimalKey hkey, decimalNumber?, h]
      rfl

/-- Writing a value plainly leaves nothing to unwrap. -/
theorem isUnwrapped_plain (now : String) (v : Json) : WrapsTexts v → IsUnwrapped (plain now v) := by
  induction v using Json.induction with
  | scalar v hv =>
      intro _
      rw [plain_of_isScalar now hv]
      exact .scalar hv
  | array items ih =>
      intro h
      rw [plain, plainItems_eq]
      refine .array fun w hw => ?_
      obtain ⟨v, hv, rfl⟩ := List.mem_map.mp hw
      exact ih v hv (h.item hv)
  | object fields ih =>
      intro h
      rcases wrapper_cases fields with hkeys | ⟨w, rfl⟩ | ⟨w, rfl⟩ | ⟨key, hkey, w, rfl⟩ |
        ⟨key, hkey, w, rfl⟩
      · rw [plain_obj hkeys, plainFields_eq]
        refine .object (fun key hkey w heq => ?_) fun g hg => ?_
        · -- the keys stay, so a wrapper among the results was one before
          obtain ⟨f, hf, hfw⟩ := List.map_eq_singleton_iff.mp heq
          cases hfw
          exact hkeys f.1 hkey f.2 hf
        · obtain ⟨f, hf, rfl⟩ := List.mem_map.mp hg
          exact ih f hf (h.field hf)
      · rw [plain]
        cases (Json.obj [("$oid", w)]).objectId? with
        | none => exact .scalar trivial
        | some s => exact .scalar trivial
      · rw [plain]
        exact .scalar trivial
      · obtain ⟨s, rfl⟩ := h key (List.mem_append_left _ hkey) w .self
        exact isUnwrapped_plain_whole hkey s
      · obtain ⟨s, rfl⟩ := h key (List.mem_append_right _ hkey) w .self
        exact isUnwrapped_plain_decimal hkey s

/-- Where every wrapped number is a text, a second writing changes nothing, no object id and no date
stays wrapped at any depth, and a wrapped number stays only if its text is none.  A value without
wrappers is written as it is. -/
theorem plain_plain (now : String) (v : Json) (h : WrapsTexts v) :
    plain now (plain now v) = plain now v ∧
      (∀ key ∈ ["$oid", "$date"], ∀ w, ¬ IsPart (.obj [(key, w)]) (plain now v)) ∧
      (∀ key ∈ wholeKeys, ∀ s, IsPart (.obj [(key, .str s)]) (plain now v) →
        Decimal.wholeOf? s = none) ∧
      (∀ key ∈ decimalKeys, ∀ s, IsPart (.obj [(key, .str s)]) (plain now v) →
        Decimal.floatOf? s = none) ∧
      ((∀ key ∈ wrapperKeys, ∀ w, ¬ IsPart (.obj [(key, w)]) v) → plain now v = v) := by
  have hplain : IsUnwrapped (plain now v) := isUnwrapped_plain now v h
  refine ⟨plain_eq_self now hplain, fun key hkey w hw => ?_, fun key hkey s hw => ?_,
    fun key hkey s hw => ?_, fun hbare => ?_⟩
  · exact not_isUnwrapped_wrapper hkey (hplain.of_isPart hw)
  · exact (hplain.of_isPart hw).wholeOf?_eq_none hkey
  · exact (hplain.of_isPart hw).floatOf?_eq_none hkey
  · exact plain_eq_self now (isUnwrapped_of_not_isPart v hbare)

/-- A list with a wrapped object id in an object, a wrapped date in another `$` object, a number in
a wrapper and a text that is no number in another one. -/
def nested : Json :=
  .arr
    [.obj [("owner", .obj [("$oid", .str placeholderId)])],
      .obj [("$set", .obj [("$date", .obj [("$numberLong", .str "0")])])],
      .obj [("$numberInt", .str "7")],
      .obj [("$numberLong", .str "seven")]]

theorem plain_plain_nested :
    WrapsTexts nested ∧
      plain "" (plain "" nested) = plain "" nested ∧
      plain "" nested =
        .arr
          [.obj [("owner", .str placeholderId)],
            .obj [("$set", .str "1970-01-01T00:00:00.000Z")],
            .int 7,
            .obj [("$numberLong", .str "seven")]] := by
  have hwraps : WrapsTexts nested := by
    intro key hkey w hw
    simp only [nested, isPart_arr_iff, isPart_obj_iff, isPart_str_iff, List.mem_cons,
      List.not_mem_nil, or_false, exists_eq_or_imp, exists_eq_left, obj.injEq, List.cons.injEq,
      Prod.mk.injEq, and_true, reduceCtorEq, false_or] at hw
    simp only [wholeKeys, decimalKeys, List.cons_append, List.nil_append, List.mem_cons,
      List.not_mem_nil, or_false] at hkey
    rcases hkey with rfl | rfl | rfl | rfl <;> grind
  refine ⟨hwraps, (plain_plain "" nested hwraps).1, ?_⟩
  have hwhole : Decimal.wholeOf? "seven" = none := by decide +kernel
  have hdigit : Decimal.wholeOf? "7" = some 7 := by decide +kernel
  have hid : (Json.obj [("$oid", .str placeholderId)]).objectId? = some placeholderId := by
    decide +kernel
  have htime : timeText "" (.obj [("$date", .obj [("$numberLong", .str "0")])]) =
      "1970-01-01T00:00:00.000Z" := by
    decide +kernel
  simp [nested, plain, plainItems, plainFields, wholeNumber?, hwhole, hdigit, hid, htime]

end Body
end EndpointPayload
