import EndpointPayload.Proofs.Decimal.Share
import EndpointPayload.Proofs.Document.Reach
import EndpointPayload.Proofs.Document.Tally
import EndpointPayload.Proofs.Json.Fields

/-!
# The keys of a document among its paths

A walk through a document meets every key of the document itself under its own name, and everything
below under a name with a point or a pair of brackets in it.  So at a name without those the schema
speaks of exactly the values that a lookup of the key finds.  The keys of a document are distinct,
which makes the lookup find every entry.
-/

namespace EndpointPayload

namespace Document

/-- The keys of an object are distinct. -/
def HasDistinctKeys (d : Document) : Prop := (d.map Prod.fst).Nodup

end Document

namespace SchemaField

/-- A name that has a part of a nested path in it names no key of the document itself. -/
theorem isTopLevelName_of_prefix
    {path longer : String}
    (hpre : path.toList <+: longer.toList)
    (h : isTopLevelName longer = true) :
    isTopLevelName path = true := by
  have lift (part : String) :
      Text.occursIn part path = true → Text.occursIn part longer = true := by
    rw [Text.occursIn_iff, Text.occursIn_iff]
    exact fun hin => hin.trans hpre.isInfix
  simp only [isTopLevelName, Bool.and_eq_true, Bool.not_eq_true', Bool.eq_false_iff] at h ⊢
  exact ⟨fun hin => h.1 (lift _ hin), fun hin => h.2 (lift _ hin)⟩

theorem not_isTopLevelName_of_point (path key : String) :
    isTopLevelName (path ++ "." ++ key) = false := by
  have hin : Text.occursIn "." (path ++ "." ++ key) = true := by
    rw [Text.occursIn_iff]
    exact ⟨path.toList, key.toList, by simp⟩
  simp [isTopLevelName, hin]

theorem not_isTopLevelName_of_brackets (path : String) :
    isTopLevelName (path ++ "[]") = false := by
  have hin : Text.occursIn "[]" (path ++ "[]") = true := by
    rw [Text.occursIn_iff]
    exact ⟨path.toList, [], by simp⟩
  simp [isTopLevelName, hin]

theorem point_not_mem
    {name : String}
    (h : isTopLevelName name = true) :
    '.' ∉ name.toList := by
  intro hmem
  have hin : Text.occursIn "." name = true := by
    rw [Text.occursIn_iff]
    obtain ⟨before, after, hsplit⟩ := List.append_of_mem hmem
    exact ⟨before, after, by simp [hsplit]⟩
  simp [isTopLevelName, hin] at h

end SchemaField

namespace Document

open SchemaField

variable {d : Document} {docs : List Document} {name : String} {v : Json}

/-- The path of a value right below another one is longer, and names no key of the document. -/
theorem prefix_of_isBelow
    {path next : String}
    {w u : Json}
    (h : Json.IsBelow path w next u) :
    path.toList <+: next.toList ∧ isTopLevelName next = false := by
  cases h with
  | field => exact ⟨by simp [List.append_assoc], not_isTopLevelName_of_point _ _⟩
  | item => exact ⟨by simp, not_isTopLevelName_of_brackets _⟩

/-- The path of a visit starts with the path of the walk. -/
theorem prefix_of_mem_visitsBelow :
    ∀ (depth : Nat) {path p : String} {w v : Json},
      (p, v) ∈ visitsBelow depth path w → path.toList <+: p.toList
  | 0, path, p, w, v, h => by
      rw [visitsBelow, List.mem_singleton, Prod.mk.injEq] at h
      rw [h.1]
  | depth + 1, path, p, w, v, h => by
      rcases mem_visitsBelow_succ_iff.mp h with hhere | ⟨next, u, hbelow, hvisit⟩
      · cases hhere
        exact List.prefix_rfl
      · exact (prefix_of_isBelow hbelow).1.trans (prefix_of_mem_visitsBelow depth hvisit)

/-- At a name without a part of a nested path, a walk meets only its start. -/
theorem eq_of_mem_visitsBelow
    {depth : Nat}
    {path : String}
    {w : Json}
    (hname : isTopLevelName name = true)
    (h : (name, v) ∈ visitsBelow depth path w) :
    (name, v) = (path, w) := by
  cases depth with
  | zero => simpa [visitsBelow] using h
  | succ depth =>
      rcases mem_visitsBelow_succ_iff.mp h with hhere | ⟨next, u, hbelow, hvisit⟩
      · exact hhere
      · have htop := isTopLevelName_of_prefix (prefix_of_mem_visitsBelow depth hvisit) hname
        simp [(prefix_of_isBelow hbelow).2] at htop

theorem self_mem_visitsBelow (depth : Nat) (path : String) (w : Json) :
    (path, w) ∈ visitsBelow depth path w := by
  cases depth <;> simp [visitsBelow]

/-- The visits at the name of a key are the entries of the document. -/
theorem mem_visits_iff (hname : isTopLevelName name = true) :
    (name, v) ∈ visits d ↔ (name, v) ∈ d := by
  rw [visits, List.mem_flatMap]
  constructor
  · rintro ⟨f, hf, hv⟩
    rw [eq_of_mem_visitsBelow hname hv]
    exact hf
  · intro h
    exact ⟨_, h, self_mem_visitsBelow _ _ _⟩

/-- The value at the name of a key is found by one lookup. -/
theorem at?_of_isTopLevelName (hname : isTopLevelName name = true) :
    d.at? name = Json.lookup name d := by
  rw [at?, Text.split_of_not_mem (point_not_mem hname)]
  cases h : Json.lookup name d <;> simp [follow?, Json.get?, h]

/-- With distinct keys, what is visited at the name of a key is what is found there. -/
theorem mem_visits_iff_at?
    (hd : d.HasDistinctKeys)
    (hname : isTopLevelName name = true) :
    (name, v) ∈ visits d ↔ d.at? name = some v := by
  rw [mem_visits_iff hname, at?_of_isTopLevelName hname]
  exact ⟨Json.lookup_of_mem d hd, Json.mem_of_lookup d⟩

/-- A path with a positive frequency has a value other than null in some document. -/
theorem exists_value_of_frequency
    (h : 0.0 < (fieldAt docs name).frequency) :
    ∃ d ∈ docs, ∃ v, (name, v) ∈ visits d ∧ v.isNull = false := by
  by_contra hnone
  have hzero : docs.countP (isPresentAt name) = 0 := by
    rw [List.countP_eq_zero]
    intro d hd hp
    exact hnone ⟨d, hd, isPresentAt_iff.mp hp⟩
  simp only [fieldAt, hzero] at h
  exact Decimal.not_pos_of_zero_share _ h

/-- A path with a value other than null in some document has a positive frequency, where a word can
count the documents. -/
theorem frequency_pos
    (hlength : docs.length < 2 ^ 64)
    (hd : d ∈ docs)
    (hv : (name, v) ∈ visits d)
    (hn : v.isNull = false) :
    0.0 < (fieldAt docs name).frequency := by
  have hpresent : 0 < docs.countP (isPresentAt name) :=
    List.countP_pos_iff.mpr ⟨d, hd, isPresentAt_iff.mpr ⟨v, hv, hn⟩⟩
  have hcount : docs.countP (isPresentAt name) ≤ docs.length := List.countP_le_length
  exact Decimal.pos_of_share hpresent (by omega) (by omega) (by omega)

theorem mem_schema {f : SchemaField} : f ∈ schema docs ↔ ∃ p ∈ paths docs, fieldAt docs p = f := by
  rw [schema_eq, List.mem_mergeSort, List.mem_map]

/-- Every path has one field. -/
theorem nodup_names_schema : ((schema docs).map SchemaField.name).Nodup := by
  have hperm := (List.mergeSort_perm ((paths docs).map (fieldAt docs))
    fun a b => Decimal.descending a.frequency b.frequency).map SchemaField.name
  rw [schema_eq]
  refine hperm.nodup_iff.mpr ?_
  have hnames : ((paths docs).map (fieldAt docs)).map SchemaField.name = paths docs := by
    rw [List.map_map]
    exact List.map_id _
  rw [hnames]
  exact Text.nodup_sorted _

end Document

namespace FieldStatistics

variable {docs : List Document} {existing : List String}

theorem mem_describe {f : FieldStatistics} :
    f ∈ describe docs existing ↔
      ∃ p ∈ Document.paths docs,
        ofValues (Document.fieldAt docs p) (Document.valuesAt p docs) existing = f := by
  simp only [describe_eq, List.mem_map, Document.mem_schema]
  constructor
  · rintro ⟨s, ⟨p, hp, rfl⟩, rfl⟩
    exact ⟨p, hp, rfl⟩
  · rintro ⟨p, hp, rfl⟩
    exact ⟨_, ⟨p, hp, rfl⟩, rfl⟩

/-- The statistics of a field are those of its path. -/
theorem eq_of_mem_describe
    {f : FieldStatistics}
    (h : f ∈ describe docs existing) :
    f = ofValues (Document.fieldAt docs f.name) (Document.valuesAt f.name docs) existing := by
  obtain ⟨p, -, rfl⟩ := mem_describe.mp h
  rfl

/-- Every name is described once. -/
theorem nodup_names_describe : ((describe docs existing).map name).Nodup := by
  have hnames : (describe docs existing).map name =
      (Document.schema docs).map SchemaField.name := by
    rw [describe_eq, List.map_map]
    rfl
  rw [hnames]
  exact Document.nodup_names_schema

/-- A described key of the document itself with a positive frequency has a value in some document
that a lookup finds. -/
theorem exists_value_of_mem_describe
    {f : FieldStatistics}
    (hdocs : ∀ d ∈ docs, d.HasDistinctKeys)
    (hf : f ∈ describe docs existing)
    (htop : f.isTopLevel = true)
    (hfreq : 0.0 < f.frequency) :
    ∃ d ∈ docs, ∃ v, d.at? f.name = some v ∧ v.isNull = false := by
  rw [eq_of_mem_describe hf] at hfreq
  obtain ⟨d, hd, v, hv, hn⟩ := Document.exists_value_of_frequency hfreq
  exact ⟨d, hd, v, (Document.mem_visits_iff_at? (hdocs d hd) htop).mp hv, hn⟩

end FieldStatistics
end EndpointPayload
