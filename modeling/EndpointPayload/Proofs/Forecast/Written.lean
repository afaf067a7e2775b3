import EndpointPayload.Forecast.Body
import EndpointPayload.Proofs.Document.Labels

/-!
# How a value is written

The body writes dates and object ids by the type of their field and every other value plainly,
without its wrapper.  A value that is written under its own label of the schema has the type of that
label, with one exception: a wrapped `$numberInt` or `$numberDouble` is labelled as an object and
written as a number.
-/

namespace EndpointPayload

namespace Json

/-- A value of the type that a label of the schema names, as a body writes it: an object id is
written by its digits, a date as the text of a point in time. -/
inductive HasLabel (now : String) : String → Json → Prop
  | boolean (b : Bool) : HasLabel now "boolean" (.bool b)
  | whole (n : Int) : HasLabel now "number" (.int n)
  | decimal (x : Float) (h : x.isFinite = true) : HasLabel now "number" (.float x)
  | string (s : String) : HasLabel now "string" (.str s)
  | array (items : List Json) : HasLabel now "array" (.arr items)
  | object (fields : List (String × Json)) : HasLabel now "object" (.obj fields)
  | objectId (s : String) (h : isObjectId s = true) : HasLabel now "ObjectId" (.str s)
  | time (t : Timestamp) : HasLabel now "Date" (.str t.text)
  | current : HasLabel now "Date" (.str now)

/-- Floats are finite, and wrapped numbers can be read. -/
def IsReadable : Json → Prop
  | .float x => x.isFinite = true
  | .obj [(k, w)] =>
    (k = "$numberLong" ∨ k = "$numberInt" → ∃ n, Body.wholeNumber? w = some (.int n)) ∧
      (k = "$numberDecimal" ∨ k = "$numberDouble" →
        ∃ x, Body.decimalNumber? w = some (.float x) ∧ x.isFinite = true)
  | _ => True

/-- A number in a wrapper that the schema takes for an object. -/
def IsUnlabelledNumber : Json → Prop
  | .obj [(k, _)] => k = "$numberInt" ∨ k = "$numberDouble"
  | _ => False

section Labels

variable {now label : String} {v : Json}

theorem HasLabel.eq_arr (h : HasLabel now label v) (hlabel : label = "array") :
    ∃ items, v = .arr items := by
  cases h with
  | array items => exact ⟨items, rfl⟩
  | _ => exact absurd hlabel (by decide)

theorem HasLabel.eq_obj (h : HasLabel now label v) (hlabel : label = "object") :
    ∃ fields, v = .obj fields := by
  cases h with
  | object fields => exact ⟨fields, rfl⟩
  | _ => exact absurd hlabel (by decide)

theorem typeName_of_isUnlabelledNumber (h : v.IsUnlabelledNumber) : v.typeName = "object" := by
  unfold IsUnlabelledNumber at h
  split at h
  · rename_i key w
    rcases typeName_obj_cases [(key, w)] with ⟨u, hu, -⟩ | ⟨u, hu, -⟩ | ⟨u, hu, -⟩ | ⟨u, hu, -⟩ |
      ⟨-, hl⟩
    case inr.inr.inr.inr => exact hl
    all_goals
      cases hu
      simp at h
  · exact absurd h id

end Labels

end Json

namespace Body

open Json

variable {now : String} {fields : List (String × Json)} {v : Json}

/-- A value as the body writes it for a field of some type. -/
def written (now type : String) (v : Json) : Json :=
  if Text.occursIn "date" (Text.lower type) then .str (timeText now v)
  else if Text.occursIn "objectid" (Text.lower type) then .str (v.objectId?.getD placeholderId)
  else plain now v

/-- Away from dates and object ids a value is written plainly. -/
theorem written_eq_plain
    {type : String}
    (htype : type ∈ ["boolean", "number", "string", "array", "object"]) :
    written now type v = plain now v := by
  have hkinds : ∀ type ∈ ["boolean", "number", "string", "array", "object"],
      Text.occursIn "date" (Text.lower type) = false ∧
        Text.occursIn "objectid" (Text.lower type) = false := by
    decide +kernel
  obtain ⟨hdate, hid⟩ := hkinds type htype
  simp [written, hdate, hid]

theorem written_objectId : written now "ObjectId" v = .str (v.objectId?.getD placeholderId) := by
  have hdate : Text.occursIn "date" (Text.lower "ObjectId") = false := by decide +kernel
  have hid : Text.occursIn "objectid" (Text.lower "ObjectId") = true := by decide +kernel
  simp [written, hdate, hid]

theorem written_date : written now "Date" v = .str (timeText now v) := by
  have hdate : Text.occursIn "date" (Text.lower "Date") = true := by decide +kernel
  simp [written, hdate]

theorem hasLabel_objectId : HasLabel now "ObjectId" (written now "ObjectId" v) := by
  rw [written_objectId]
  cases h : v.objectId? with
  | none => exact .objectId _ (by decide)
  | some s => exact .objectId s (isObjectId_of_objectId? h)

theorem hasLabel_date : HasLabel now "Date" (written now "Date" v) := by
  rw [written_date, timeText]
  cases time? v with
  | none => exact .current
  | some t => exact .time t

/-- An object that is none of the known wrappers stays an object. -/
theorem plain_obj
    (h : ∀ key ∈ ["$oid", "$date", "$numberLong", "$numberInt", "$numberDecimal", "$numberDouble"],
      ∀ w, fields ≠ [(key, w)]) :
    plain now (.obj fields) = .obj (plainFields now fields) := by
  simp only [List.mem_cons, List.not_mem_nil, or_false, forall_eq_or_imp, forall_eq] at h
  obtain ⟨hoid, hdate, hlong, hint, hdecimal, hdouble⟩ := h
  rw [plain]
  · exact hoid
  · exact hdate
  · exact hlong
  · exact hint
  · exact hdecimal
  · exact hdouble

theorem wholeNumber?_getD (v w : Json) :
    (∃ n, (wholeNumber? w).getD v = .int n) ∨ (wholeNumber? w).getD v = v := by
  cases w with
  | str s =>
      cases h : Decimal.wholeOf? s with
      | none => exact .inr (by simp [wholeNumber?, h])
      | some n => exact .inl ⟨n, by simp [wholeNumber?, h]⟩
  | _ => exact .inr rfl

theorem decimalNumber?_getD (v w : Json) :
    (∃ x, (decimalNumber? w).getD v = .float x) ∨ (decimalNumber? w).getD v = v := by
  cases w with
  | str s =>
      cases h : Decimal.floatOf? s with
      | none => exact .inr (by simp [decimalNumber?, h])
      | some x => exact .inl ⟨x, by simp [decimalNumber?, h]⟩
  | _ => exact .inr rfl

/-- No object is written plainly as an array. -/
theorem plain_obj_ne_arr (items : List Json) : plain now (.obj fields) ≠ .arr items := by
  by_cases hkeys : ∀ key ∈ ["$oid", "$date", "$numberLong", "$numberInt", "$numberDecimal",
      "$numberDouble"], ∀ w, fields ≠ [(key, w)]
  · rw [plain_obj hkeys]
    simp
  · push Not at hkeys
    obtain ⟨key, hkey, w, rfl⟩ := hkeys
    simp only [List.mem_cons, List.not_mem_nil, or_false] at hkey
    rcases hkey with rfl | rfl | rfl | rfl | rfl | rfl
    all_goals rw [plain]
    · cases (Json.obj [("$oid", w)]).objectId? <;> simp
    · simp
    · rcases wholeNumber?_getD (.obj [("$numberLong", w)]) w with ⟨n, h⟩ | h <;> simp [h]
    · rcases wholeNumber?_getD (.obj [("$numberInt", w)]) w with ⟨n, h⟩ | h <;> simp [h]
    · rcases decimalNumber?_getD (.obj [("$numberDecimal", w)]) w with ⟨x, h⟩ | h <;> simp [h]
    · rcases decimalNumber?_getD (.obj [("$numberDouble", w)]) w with ⟨x, h⟩ | h <;> simp [h]

/-- Only arrays are written plainly as arrays. -/
theorem hasLabel_array_iff :
    HasLabel now "array" (written now "array" v) ↔ ∃ items, v = .arr items := by
  rw [written_eq_plain (by decide)]
  constructor
  · intro h
    obtain ⟨items, hitems⟩ := h.eq_arr rfl
    cases v with
    | arr items => exact ⟨items, rfl⟩
    | obj fields => exact absurd hitems (plain_obj_ne_arr items)
    | _ => simp [plain] at hitems
  · rintro ⟨items, rfl⟩
    rw [plain]
    exact .array _

/-- A value labelled as an object is written as one unless it wraps a number. -/
theorem hasLabel_object_iff
    (hkeys : ∀ key ∈ ["$oid", "$date", "$numberDecimal", "$numberLong"], ∀ w, fields ≠ [(key, w)])
    (hread : (Json.obj fields).IsReadable) :
    HasLabel now "object" (written now "object" (.obj fields)) ↔
      ¬ (Json.obj fields).IsUnlabelledNumber := by
  rw [written_eq_plain (by decide)]
  by_cases hint : ∃ w, fields = [("$numberInt", w)]
  · obtain ⟨w, rfl⟩ := hint
    obtain ⟨n, hn⟩ := hread.1 (.inr rfl)
    have hplain : plain now (.obj [("$numberInt", w)]) = .int n := by rw [plain, hn]; rfl
    refine iff_of_false (fun h => ?_) (not_not_intro (.inl rfl))
    obtain ⟨fields, hfields⟩ := h.eq_obj rfl
    simp [hplain] at hfields
  · by_cases hdouble : ∃ w, fields = [("$numberDouble", w)]
    · obtain ⟨w, rfl⟩ := hdouble
      obtain ⟨x, hx, -⟩ := hread.2 (.inr rfl)
      have hplain : plain now (.obj [("$numberDouble", w)]) = .float x := by rw [plain, hx]; rfl
      refine iff_of_false (fun h => ?_) (not_not_intro (.inr rfl))
      obtain ⟨fields, hfields⟩ := h.eq_obj rfl
      simp [hplain] at hfields
    · have hplain : plain now (.obj fields) = .obj (plainFields now fields) := by
        refine plain_obj fun key hkey w hw => ?_
        simp only [List.mem_cons, List.not_mem_nil, or_false] at hkey
        rcases hkey with rfl | rfl | rfl | rfl | rfl | rfl
        · exact hkeys _ (by simp) w hw
        · exact hkeys _ (by simp) w hw
        · exact hkeys _ (by simp) w hw
        · exact hint ⟨w, hw⟩
        · exact hkeys _ (by simp) w hw
        · exact hdouble ⟨w, hw⟩
      rw [hplain]
      refine iff_of_true (.object _) fun h => ?_
      unfold IsUnlabelledNumber at h
      split at h
      · rename_i key w heq
        cases heq
        rcases h with rfl | rfl
        · exact hint ⟨w, rfl⟩
        · exact hdouble ⟨w, rfl⟩
      · exact h

/-- A value is written with its own label, save for a number that the schema takes for an object. -/
theorem hasLabel_written_iff
    (hnull : v.isNull = false)
    (hread : v.IsReadable) :
    HasLabel now v.typeName (written now v.typeName v) ↔ ¬ v.IsUnlabelledNumber := by
  cases v with
  | null => simp [isNull] at hnull
  | bool b =>
      refine iff_of_true ?_ id
      rw [written_eq_plain (by simp [typeName]), plain] <;> simp [typeName, HasLabel.boolean]
  | int n =>
      refine iff_of_true ?_ id
      rw [written_eq_plain (by simp [typeName]), plain] <;> simp [typeName, HasLabel.whole]
  | float x =>
      refine iff_of_true ?_ id
      rw [written_eq_plain (by simp [typeName]), plain]
      · exact .decimal x hread
      all_goals simp
  | str s =>
      refine iff_of_true ?_ id
      rw [written_eq_plain (by simp [typeName]), plain] <;> simp [typeName, HasLabel.string]
  | arr items =>
      exact iff_of_true (hasLabel_array_iff.2 ⟨items, rfl⟩) id
  | obj fields =>
      rcases typeName_obj_cases fields with ⟨w, rfl, hl⟩ | ⟨w, rfl, hl⟩ | ⟨w, rfl, hl⟩ |
        ⟨w, rfl, hl⟩ | ⟨hkeys, hl⟩
      · rw [hl]
        exact iff_of_true hasLabel_objectId (by simp [IsUnlabelledNumber])
      · rw [hl]
        exact iff_of_true hasLabel_date (by simp [IsUnlabelledNumber])
      · rw [hl, written_eq_plain (by decide), plain]
        obtain ⟨x, hx, hfinite⟩ := hread.2 (.inl rfl)
        rw [hx]
        exact iff_of_true (.decimal x hfinite) (by simp [IsUnlabelledNumber])
      · rw [hl, written_eq_plain (by decide), plain]
        obtain ⟨n, hn⟩ := hread.1 (.inl rfl)
        rw [hn]
        exact iff_of_true (.whole n) (by simp [IsUnlabelledNumber])
      · rw [hl]
        exact hasLabel_object_iff hkeys hread

end Body
end EndpointPayload
