import EndpointPayload.Proofs.Forecast.Plain
import EndpointPayload.Proofs.Forecast.TimeText
import EndpointPayload.Proofs.Json.Fields
import EndpointPayload.Proofs.Text.Words

/-!
# Families of types and the body

A declared type belongs to a family by its whole name, but the body looks for the words `date` and
`objectid` in it.  The two agree on all names of the families but four: a field of the type `id`,
`object_id`, `reference` or `timestamp` is written plainly, so it is the digits of an object id or
the text of a point in time only if its value holds one.
-/

namespace EndpointPayload

namespace Json

variable {v : Json}

/-- The digits of an object id. -/
def IsIdText (v : Json) : Prop := ∃ s, isObjectId s = true ∧ v = .str s

/-- The text of a point in time, as the body writes it. -/
def IsTimeText (v : Json) : Prop := ∃ t : Timestamp, t.IsProper ∧ v = .str t.text

/-- An object id, wrapped or not. -/
inductive HoldsId : Json → Prop
  | text
      {s : String}
      (h : isObjectId s = true) :
      HoldsId (.str s)
  | wrapped
      {s : String}
      (h : isObjectId s = true) :
      HoldsId (.obj [("$oid", .str s)])

/-- The text of a point in time, or a wrapped date. -/
inductive HoldsTime : Json → Prop
  | text
      {t : Timestamp}
      (h : t.IsProper) :
      HoldsTime (.str t.text)
  | wrapped (w : Json) : HoldsTime (.obj [("$date", w)])

/-- No text of a point in time is made of the digits of an object id. -/
theorem isObjectId_text (t : Timestamp) : isObjectId t.text = false := by
  have hmark : 'T' ∈ t.text.toList := by
    rw [Timestamp.toList_text]
    exact List.mem_append_right _ List.mem_cons_self
  have hall : t.text.toList.all isHexDigit = false :=
    List.all_eq_false.mpr ⟨'T', hmark, by decide⟩
  rw [isObjectId, hall, Bool.and_false]

theorem not_isIdText_of_isTimeText (h : IsTimeText v) : ¬ IsIdText v := by
  obtain ⟨t, -, rfl⟩ := h
  rintro ⟨s, hs, heq⟩
  rw [← Json.str.inj heq, isObjectId_text] at hs
  cases hs

end Json

namespace TypeFamily

variable {type : String}

/-- The names in the family of object ids. -/
theorem of_eq_objectid_iff :
    of type = "objectid" ↔
      Text.lower (Text.trim type) ∈ ["id", "objectid", "object_id", "reference"] := by
  rw [of]
  generalize Text.lower (Text.trim type) = t
  grind

/-- The names in the family of dates. -/
theorem of_eq_date_iff :
    of type = "date" ↔ Text.lower (Text.trim type) ∈ ["date", "datetime", "timestamp"] := by
  rw [of]
  generalize Text.lower (Text.trim type) = t
  grind

end TypeFamily

namespace Body

open Json

variable {now s key type : String} {v : Json} {fields : List (String × Json)}

theorem objectId?_wrapper_iff {w : Json} :
    (Json.obj [("$oid", w)]).objectId? = some s ↔ w = .str s ∧ isObjectId s = true := by
  cases w with
  | str u =>
      simp only [objectId?, lookup, if_true, Option.ite_none_right_eq_some, Option.some.injEq,
        Json.str.injEq]
      constructor
      · rintro ⟨hu, rfl⟩
        exact ⟨rfl, hu⟩
      · rintro ⟨rfl, hu⟩
        exact ⟨hu, rfl⟩
  | _ => simp [objectId?, lookup]

/-- The text as which a value is written plainly. -/
inductive HasText (now : String) : Json → String → Prop
  | text (s : String) : HasText now (.str s) s
  | id
      {s : String}
      (h : isObjectId s = true) :
      HasText now (.obj [("$oid", .str s)]) s
  | date (w : Json) : HasText now (.obj [("$date", w)]) (timeText now (.obj [("$date", w)]))

/-- A wrapped number is not written as a text. -/
theorem plain_number_ne_str
    (hkey : key ∈ wholeKeys ++ decimalKeys)
    (w : Json) :
    plain now (.obj [(key, w)]) ≠ .str s := by
  rcases List.mem_append.mp hkey with hkey | hkey
  · rw [plain_wholeKey hkey]
    rcases wholeNumber?_getD (.obj [(key, w)]) w with ⟨n, h⟩ | h <;> simp [h]
  · rw [plain_decimalKey hkey]
    rcases decimalNumber?_getD (.obj [(key, w)]) w with ⟨x, h⟩ | h <;> simp [h]

/-- Of the objects only wrapped object ids and wrapped dates are written as texts. -/
theorem hasText_of_plain_obj (h : plain now (.obj fields) = .str s) :
    HasText now (.obj fields) s := by
  rcases wrapper_cases fields with hkeys | ⟨w, rfl⟩ | ⟨w, rfl⟩ | ⟨key, hkey, w, rfl⟩ |
    ⟨key, hkey, w, rfl⟩
  · rw [plain_obj hkeys] at h
    cases h
  · rw [plain] at h
    cases hid : (Json.obj [("$oid", w)]).objectId? with
    | none =>
        rw [hid] at h
        cases h
    | some u =>
        rw [hid] at h
        cases h
        obtain ⟨rfl, hu⟩ := objectId?_wrapper_iff.1 hid
        exact .id hu
  · rw [plain] at h
    cases h
    exact .date w
  · exact absurd h (plain_number_ne_str (List.mem_append_left _ hkey) w)
  · exact absurd h (plain_number_ne_str (List.mem_append_right _ hkey) w)

/-- The values that are written plainly as a text. -/
theorem plain_eq_str_iff : plain now v = .str s ↔ HasText now v s := by
  constructor
  · intro h
    cases v with
    | obj fields => exact hasText_of_plain_obj h
    | str u =>
        rw [plain_of_isScalar now (show (Json.str u).IsScalar from trivial)] at h
        cases h
        exact .text s
    | _ => simp [plain] at h
  · intro h
    cases h with
    | text => exact plain_of_isScalar now trivial
    | id h =>
        rw [plain, objectId?_wrapper_iff.2 ⟨rfl, h⟩]
        rfl
    | date w => rw [plain]

/-- The text of a date is one of a point in time, also where the date cannot be read. -/
theorem isTimeText_timeText
    (hnow : IsTimeText (.str now))
    (v : Json) :
    IsTimeText (.str (timeText now v)) := by
  rw [timeText]
  split
  · rename_i t ht
    obtain ⟨i, hi, rfl⟩ := time?_eq_some_iff.mp ht
    exact ⟨_, isProper_of_denotes hi, rfl⟩
  · exact hnow

theorem isIdText_plain_iff (hnow : IsTimeText (.str now)) : IsIdText (plain now v) ↔ v.HoldsId := by
  constructor
  · rintro ⟨s, hs, hplain⟩
    cases plain_eq_str_iff.1 hplain with
    | text => exact .text hs
    | id => exact .wrapped hs
    | date w => exact absurd ⟨_, hs, rfl⟩ (not_isIdText_of_isTimeText (isTimeText_timeText hnow _))
  · intro h
    cases h with
    | @text s h => exact ⟨s, h, plain_eq_str_iff.2 (.text s)⟩
    | @wrapped s h => exact ⟨s, h, plain_eq_str_iff.2 (.id h)⟩

theorem isTimeText_plain_iff (hnow : IsTimeText (.str now)) :
    IsTimeText (plain now v) ↔ v.HoldsTime := by
  constructor
  · rintro ⟨t, ht, hplain⟩
    have htext := plain_eq_str_iff.1 hplain
    generalize hs : t.text = s at htext
    cases htext with
    | text => exact hs ▸ .text ht
    | id hid =>
        rw [← hs, isObjectId_text] at hid
        cases hid
    | date w => exact .wrapped w
  · intro h
    cases h with
    | @text t h => exact ⟨t, h, plain_eq_str_iff.2 (.text t.text)⟩
    | wrapped w =>
        rw [plain]
        exact isTimeText_timeText hnow _

/-- Whether the body finds the words of dates and object ids in a declared type. -/
theorem occursIn_lower_eq
    (word : String)
    (hword : word ∈ ["date", "objectid"])
    (type : String) :
    Text.occursIn word (Text.lower type) = Text.occursIn word (Text.lower (Text.trim type)) := by
  have hwords : ∀ word ∈ ["date", "objectid"],
      word.toList ≠ [] ∧ word.toList.all (fun c => !Text.isBlank c) = true := by
    decide
  obtain ⟨hne, hblank⟩ := hwords word hword
  refine Text.occursIn_lower_trim hne (fun c hc => ?_) type
  simpa using List.all_eq_true.mp hblank c hc

/-- In the family of object ids only the name `objectid` makes the body write one for any value. -/
theorem isIdText_written_iff
    (hnow : IsTimeText (.str now))
    (htype : TypeFamily.of type = "objectid") :
    IsIdText (written now type v) ↔
      Text.lower (Text.trim type) = "objectid" ∨ v.HoldsId := by
  rw [TypeFamily.of_eq_objectid_iff] at htype
  rw [written, occursIn_lower_eq "date" (by decide), occursIn_lower_eq "objectid" (by decide)]
  generalize Text.lower (Text.trim type) = t at htype ⊢
  by_cases ht : t = "objectid"
  · subst ht
    rw [if_neg (by decide), if_pos (by decide)]
    refine iff_of_true ⟨_, ?_, rfl⟩ (.inl rfl)
    cases hid : v.objectId? with
    | none => decide
    | some s => exact isObjectId_of_objectId? hid
  · have hplain : ∀ t ∈ ["id", "object_id", "reference"],
        Text.occursIn "date" t = false ∧ Text.occursIn "objectid" t = false := by
      decide
    obtain ⟨hdate, hid⟩ := hplain t (by simpa [ht] using htype)
    simp only [hdate, hid, Bool.false_eq_true, if_false, ht, false_or]
    exact isIdText_plain_iff hnow

/-- In the family of dates only the name `timestamp` lets the body write a value plainly. -/
theorem isTimeText_written_iff
    (hnow : IsTimeText (.str now))
    (htype : TypeFamily.of type = "date") :
    IsTimeText (written now type v) ↔
      Text.lower (Text.trim type) ≠ "timestamp" ∨ v.HoldsTime := by
  rw [TypeFamily.of_eq_date_iff] at htype
  rw [written, occursIn_lower_eq "date" (by decide), occursIn_lower_eq "objectid" (by decide)]
  generalize Text.lower (Text.trim type) = t at htype ⊢
  by_cases ht : t = "timestamp"
  · subst ht
    rw [if_neg (by decide), if_neg (by decide), isTimeText_plain_iff hnow]
    simp
  · have hdates : ∀ t ∈ ["date", "datetime"], Text.occursIn "date" t = true := by
      decide
    rw [if_pos (hdates t (by simpa [ht] using htype))]
    exact iff_of_true (isTimeText_timeText hnow v) (.inl ht)

/-- The value that is written for a field. -/
def chosen (preferReal : Bool) (f : ForecastField) : Json :=
  if preferReal then f.realValues.headD f.base.sample else f.base.sample

/-- The last field of a name has its value in the body. -/
theorem lookup_ofFields
    (now : String)
    (preferReal : Bool)
    (before after : List ForecastField)
    (f : ForecastField)
    (hlast : ∀ g ∈ after, g.base.name ≠ f.base.name) :
    lookup f.base.name (ofFields now preferReal (before ++ f :: after)) =
      some (written now f.base.type (chosen preferReal f)) := by
  rw [ofFields, List.map_append, List.map_cons]
  refine lookup_ofPairs_append_cons ?_ _ (valueOf now preferReal f)
  rw [List.map_map, List.mem_map]
  rintro ⟨g, hg, heq⟩
  exact hlast g hg heq

/-- A field has a value in the body.  A declared type in the family of object ids makes it the
digits of one exactly if the type is `objectid` or the chosen value holds an object id, and one in
the family of dates makes it the text of a point in time exactly if the type is not `timestamp` or
the chosen value holds such a text or a date. -/
theorem lookup_ofFields_of_family
    (now : String)
    (preferReal : Bool)
    (before after : List ForecastField)
    (f : ForecastField)
    (hnow : IsTimeText (.str now))
    (hlast : ∀ g ∈ after, g.base.name ≠ f.base.name) :
    ∃ v, lookup f.base.name (ofFields now preferReal (before ++ f :: after)) = some v ∧
      (TypeFamily.of f.base.type = "objectid" →
        (IsIdText v ↔
          Text.lower (Text.trim f.base.type) = "objectid" ∨ (chosen preferReal f).HoldsId)) ∧
      (TypeFamily.of f.base.type = "date" →
        (IsTimeText v ↔
          Text.lower (Text.trim f.base.type) ≠ "timestamp" ∨ (chosen preferReal f).HoldsTime)) :=
  ⟨_, lookup_ofFields now preferReal before after f hlast, isIdText_written_iff hnow,
    isTimeText_written_iff hnow⟩

/-- A field that only a model has named. -/
def suggested (name type : String) (sample : Json) : ForecastField :=
  ForecastField.ofModel ⟨name, type, false, sample, ""⟩ []

theorem isTimeText_epoch : IsTimeText (.str "1970-01-01T00:00:00.000Z") :=
  ⟨⟨0, 0, 0, 0⟩, ⟨by decide, by decide, by decide⟩, congrArg Json.str (by decide)⟩

/-- The second of two fields of one name, with blanks around its type and a text that is no object
id, is written as an object id. -/
theorem lookup_ofFields_of_family_owner :
    IsTimeText (.str "1970-01-01T00:00:00.000Z") ∧
      ∃ v, lookup "owner" (ofFields "1970-01-01T00:00:00.000Z" false
          [suggested "owner" "string" .null, suggested "owner" " ObjectID " (.str "me"),
            suggested "since" "date" .null]) = some v ∧
        IsIdText v := by
  refine ⟨isTimeText_epoch, ?_⟩
  obtain ⟨v, hv, hid, -⟩ := lookup_ofFields_of_family "1970-01-01T00:00:00.000Z" false
    [suggested "owner" "string" .null] [suggested "since" "date" .null]
    (suggested "owner" " ObjectID " (.str "me")) isTimeText_epoch (by decide +kernel)
  exact ⟨v, hv, (hid (by decide +kernel)).mpr (.inl (by decide +kernel))⟩

/-- A reference of the family of object ids is not always written as one. -/
theorem not_forall_lookup_ofFields_of_family :
    ¬ ∀ (now : String) (preferReal : Bool) (f : ForecastField), IsTimeText (.str now) →
      ∃ v, lookup f.base.name (ofFields now preferReal [f]) = some v ∧
        (TypeFamily.of f.base.type = "objectid" → IsIdText v) ∧
        (TypeFamily.of f.base.type = "date" → IsTimeText v) := by
  intro hall
  have hfamily : TypeFamily.of "reference" = "objectid" := by decide +kernel
  have hname : Text.lower (Text.trim "reference") ≠ "objectid" := by decide +kernel
  obtain ⟨v, hv, hid, -⟩ := hall "1970-01-01T00:00:00.000Z" false
    (suggested "owner" "reference" (.str "me")) isTimeText_epoch
  have hlookup : lookup "owner" (ofFields "1970-01-01T00:00:00.000Z" false
      [suggested "owner" "reference" (.str "me")]) =
        some (written "1970-01-01T00:00:00.000Z" "reference" (.str "me")) :=
    lookup_ofFields _ false [] [] (suggested "owner" "reference" (.str "me")) (by simp)
  rw [show (suggested "owner" "reference" (.str "me")).base.name = "owner" from rfl, hlookup] at hv
  obtain rfl := Option.some.inj hv
  rcases (isIdText_written_iff isTimeText_epoch hfamily).mp (hid hfamily) with heq | hholds
  · exact hname heq
  · cases hholds with
    | text h => exact absurd h (by decide +kernel)

end Body
end EndpointPayload
