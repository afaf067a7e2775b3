import EndpointPayload.Proofs.Document.TopLevel

/-!
# What the schema says

The schema has one field for every path that some document reaches.  Its types are the labels of
the values there, its frequency is the share of the documents with a value other than null there,
each counted once, and its examples are the first three different leaves in the order of the walk.
More frequent fields come first, and equally frequent ones in the order of their paths.
-/

namespace EndpointPayload

section Ties

variable {α : Type} {le : α → α → Bool} {R : α → α → Prop} {l : List α}

/-- Sorting keeps the order of items that may stand either way. -/
theorem pairwise_ties_mergeSort
    (htrans : ∀ a b c, le a b = true → le b c = true → le a c = true)
    (htotal : ∀ a b, (le a b || le b a) = true)
    (h : l.Pairwise R) :
    (l.mergeSort le).Pairwise fun a b => le b a = true → R a b := by
  rw [List.pairwise_iff_forall_sublist]
  intro a b hsublist hba
  have hab : le a b = true :=
    List.pairwise_iff_forall_sublist.mp (List.pairwise_mergeSort htrans htotal l) hsublist
  -- the items that tie with the first one keep their places among one another
  let ties : α → Bool := fun x => le a x && le x a
  have hties : (l.filter ties).Pairwise fun x y => le x y = true := by
    refine List.pairwise_of_forall_mem_list fun x hx y hy => ?_
    have hxa := (Bool.and_eq_true_iff.mp (List.mem_filter.mp hx).2).2
    have hay := (Bool.and_eq_true_iff.mp (List.mem_filter.mp hy).2).1
    exact htrans x a y hxa hay
  have hkept : l.filter ties = (l.mergeSort le).filter ties := by
    have hinto := List.sublist_mergeSort htrans htotal hties List.filter_sublist
    have hfilter : (l.filter ties).Sublist ((l.mergeSort le).filter ties) := by
      simpa using hinto.filter ties
    refine hfilter.eq_of_length ?_
    exact ((List.mergeSort_perm l le).filter ties).length_eq.symm
  have haa : le a a = true := by simpa using htotal a a
  have hpair : [a, b].Sublist (l.filter ties) := by
    rw [hkept]
    simpa [ties, haa, hab, hba] using hsublist.filter ties
  exact List.pairwise_iff_forall_sublist.mp (h.filter ties) hpair

end Ties

namespace Document

variable {d : Document} {docs : List Document} {path : String} {v : Json}

theorem mem_valuesAt_iff : v ∈ valuesAt path docs ↔ ∃ d ∈ docs, d.Reaches path v := by
  simp only [mem_valuesAt, mem_visits_iff_reaches]

theorem mem_paths_iff_reaches : path ∈ paths docs ↔ ∃ d ∈ docs, ∃ v, d.Reaches path v := by
  rw [mem_paths_iff]
  constructor
  · intro hne
    obtain ⟨v, hv⟩ := List.exists_mem_of_ne_nil _ hne
    obtain ⟨d, hd, hreaches⟩ := mem_valuesAt_iff.mp hv
    exact ⟨d, hd, v, hreaches⟩
  · rintro ⟨d, hd, v, hreaches⟩
    exact List.ne_nil_of_mem (mem_valuesAt_iff.mpr ⟨d, hd, hreaches⟩)

/-- The document has a value other than null at a path. -/
def HoldsAt (d : Document) (path : String) : Prop := ∃ v, d.Reaches path v ∧ v.isNull = false

theorem isPresentAt_iff_holdsAt : isPresentAt path d = true ↔ d.HoldsAt path := by
  simp only [isPresentAt_iff, mem_visits_iff_reaches, HoldsAt]

instance : Decidable (d.HoldsAt path) := decidable_of_iff _ isPresentAt_iff_holdsAt

/-- What a schema has to say about some documents. -/
structure IsSchemaOf (docs : List Document) (fields : List SchemaField) : Prop where
  nodup_names : (fields.map SchemaField.name).Nodup
  /-- There is a field for each path that some document reaches. -/
  mem_names : ∀ path,
    path ∈ fields.map SchemaField.name ↔ ∃ d ∈ docs, ∃ v, d.Reaches path v
  /-- The types are in order, each of them once. -/
  pairwise_types : ∀ f ∈ fields, f.types.Pairwise (· < ·)
  mem_types : ∀ f ∈ fields, ∀ label,
    label ∈ f.types ↔ ∃ d ∈ docs, ∃ v, d.Reaches f.name v ∧ v.typeName = label
  /-- Each document counts once, however often it reaches the path. -/
  frequency_eq : ∀ f ∈ fields,
    f.frequency =
      Float.ofNat (docs.countP fun d => d.HoldsAt f.name) / Float.ofNat docs.length * 100.0
  /-- The examples are the first three different leaves in the order of the walk. -/
  examples_eq : ∀ f ∈ fields,
    f.examples =
      (((docs.flatMap visits).filter fun r =>
        r.1 = f.name && !r.2.isNull && r.2.isLeaf).map Prod.snd).eraseDups.take 3
  /-- In the total order of floats the frequencies fall, and where they do not the paths rise. -/
  pairwise_order : fields.Pairwise fun f g =>
    Decimal.rank g.frequency < Decimal.rank f.frequency ∨
      f.frequency = g.frequency ∧ f.name < g.name
  /-- As numbers the frequencies do not rise, where a word can count the documents. -/
  pairwise_frequency : docs.length < 2 ^ 64 →
    fields.Pairwise fun f g => g.frequency ≤ f.frequency

variable {f : SchemaField}

theorem eq_fieldAt_of_mem_schema (hf : f ∈ schema docs) : f = fieldAt docs f.name := by
  obtain ⟨p, -, rfl⟩ := mem_schema.mp hf
  rfl

theorem mem_names_schema_iff :
    path ∈ (schema docs).map SchemaField.name ↔ ∃ d ∈ docs, ∃ v, d.Reaches path v := by
  rw [← mem_paths_iff_reaches, List.mem_map]
  constructor
  · rintro ⟨f, hf, rfl⟩
    obtain ⟨p, hp, rfl⟩ := mem_schema.mp hf
    exact hp
  · intro hp
    exact ⟨_, mem_schema.mpr ⟨path, hp, rfl⟩, rfl⟩

/-- A field is there only if there are documents. -/
theorem length_pos_of_mem_schema (hf : f ∈ schema docs) : 0 < docs.length := by
  obtain ⟨d, hd, -⟩ := mem_names_schema_iff.mp (List.mem_map_of_mem hf)
  exact List.length_pos_of_mem hd

theorem mem_types_fieldAt {label : String} :
    label ∈ (fieldAt docs path).types ↔
      ∃ d ∈ docs, ∃ v, d.Reaches path v ∧ v.typeName = label := by
  simp only [fieldAt, Text.mem_sorted, List.mem_map, mem_valuesAt_iff]
  constructor
  · rintro ⟨v, ⟨d, hd, hv⟩, hlabel⟩
    exact ⟨d, hd, v, hv, hlabel⟩
  · rintro ⟨d, hd, v, hv, hlabel⟩
    exact ⟨v, ⟨d, hd, hv⟩, hlabel⟩

theorem filter_valuesAt (keep : Json → Bool) :
    (valuesAt path docs).filter keep =
      ((docs.flatMap visits).filter fun r => r.1 = path && keep r.2).map Prod.snd := by
  unfold valuesAt
  induction docs.flatMap visits with
  | nil => rfl
  | cons r rest ih =>
      obtain ⟨p, v⟩ := r
      by_cases hp : p = path <;> cases hkeep : keep v <;> simp [hp, hkeep, ih]

theorem pairwise_order_schema (docs : List Document) :
    (schema docs).Pairwise fun f g =>
      Decimal.rank g.frequency < Decimal.rank f.frequency ∨
        f.frequency = g.frequency ∧ f.name < g.name := by
  have htrans : ∀ a b c : SchemaField,
      Decimal.descending a.frequency b.frequency = true →
      Decimal.descending b.frequency c.frequency = true →
      Decimal.descending a.frequency c.frequency = true :=
    fun _ _ _ => Decimal.descending_trans
  have htotal : ∀ a b : SchemaField,
      (Decimal.descending a.frequency b.frequency ||
        Decimal.descending b.frequency a.frequency) = true :=
    fun _ _ => Decimal.descending_total _ _
  have hnames : ((paths docs).map (fieldAt docs)).Pairwise fun f g => f.name < g.name :=
    List.pairwise_map.mpr (Text.pairwise_lt_sorted _)
  rw [schema_eq]
  have hfalling := List.pairwise_mergeSort htrans htotal ((paths docs).map (fieldAt docs))
  have hties := pairwise_ties_mergeSort htrans htotal hnames
  refine (hfalling.and hties).imp fun {f g} h => ?_
  have hle : Decimal.rank g.frequency ≤ Decimal.rank f.frequency := of_decide_eq_true h.1
  rcases hle.lt_or_eq with hlt | heq
  · exact .inl hlt
  · exact .inr ⟨(Decimal.eq_of_rank_eq heq).symm, h.2 (decide_eq_true heq.ge)⟩

theorem isNaN_frequency
    (hlength : docs.length < 2 ^ 64)
    (hf : f ∈ schema docs) :
    f.frequency.isNaN = false := by
  have hpos := length_pos_of_mem_schema hf
  have hcount : docs.countP (isPresentAt f.name) ≤ docs.length := List.countP_le_length
  rw [eq_fieldAt_of_mem_schema hf]
  exact Decimal.isNaN_share (by omega) (by omega) (by omega)

/-- For all documents, the one walk through them gives the schema of the documents. -/
theorem isSchemaOf_schema (docs : List Document) : IsSchemaOf docs (schema docs) where
  nodup_names := nodup_names_schema
  mem_names _ := mem_names_schema_iff
  pairwise_types f hf := by
    rw [eq_fieldAt_of_mem_schema hf]
    exact Text.pairwise_lt_sorted _
  mem_types f hf label := by
    rw [eq_fieldAt_of_mem_schema hf]
    exact mem_types_fieldAt
  frequency_eq f hf := by
    have hlength : max docs.length 1 = docs.length :=
      Nat.max_eq_left (length_pos_of_mem_schema hf)
    have hcount :
        docs.countP (isPresentAt f.name) = docs.countP fun d => decide (d.HoldsAt f.name) :=
      List.countP_congr fun d _ => isPresentAt_iff_holdsAt.trans decide_eq_true_iff.symm
    calc f.frequency
      _ = (fieldAt docs f.name).frequency := by rw [← eq_fieldAt_of_mem_schema hf]
      _ = _ := by simp only [fieldAt, hlength, hcount]
  examples_eq f hf := by
    calc f.examples
      _ = (fieldAt docs f.name).examples := by rw [← eq_fieldAt_of_mem_schema hf]
      _ = _ := by simp only [fieldAt, maxExamples, filter_valuesAt, Bool.and_assoc]
  pairwise_order := pairwise_order_schema docs
  pairwise_frequency hlength := by
    refine (pairwise_order_schema docs).imp_of_mem fun {f g} hf hg h => ?_
    refine Decimal.le_of_rank_le (isNaN_frequency hlength hg) (isNaN_frequency hlength hf) ?_
    rcases h with hlt | ⟨heq, -⟩
    · exact hlt.le
    · rw [heq]

end Document
end EndpointPayload
