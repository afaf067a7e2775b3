import EndpointPayload.Document.Statistics
import EndpointPayload.Proofs.Text.Repetitions
import EndpointPayload.Proofs.Text.Table

/-!
# What the walks through documents find

`Document.visits` lists what a walk through a document meets, in order.  Both walks, the one of the
schema and the one that gathers values, take these visits one after another.  A visit changes what
is known of its own path alone, so for each path the tally is that of the values at the path: every
step keeps `PathTally.IsTally`, and with it the whole run.  The schema is therefore the list of the
fields that `Document.fieldAt` describes, and the gathered values are those of `Document.valuesAt`.
-/

namespace EndpointPayload

namespace PathTally

/-- What a tally of some values holds that stand in a number of documents. -/
structure IsTally (values : List Json) (documents : Nat) (t : PathTally) : Prop where
  mem_types : ∀ s, s ∈ t.types ↔ s ∈ values.map Json.typeName
  present_eq : t.present = documents
  examples_eq : t.examples =
    (values.filter fun v => !v.isNull && v.isLeaf).eraseDups.take Document.maxExamples

variable {values : List Json} {documents : Nat} {t : PathTally} {v : Json}

theorem isTally_empty : IsTally [] 0 empty where
  mem_types s := by simp [empty]
  present_eq := rfl
  examples_eq := by simp [empty]

/-- Keeping one more example is the same as erasing repetitions once more and cutting off. -/
theorem keep_take (kept : List Json) (hleaf : v.isLeaf = true) :
    keep (kept.take Document.maxExamples) v =
      (if kept.contains v then kept else kept ++ [v]).take Document.maxExamples := by
  unfold keep
  rw [hleaf, Bool.true_and]
  by_cases hroom : kept.length < Document.maxExamples
  · have htake : kept.take Document.maxExamples = kept := List.take_of_length_le (by omega)
    rw [htake, decide_eq_true hroom, Bool.true_and]
    cases kept.contains v with
    | true => exact htake.symm
    | false =>
        refine (List.take_of_length_le ?_).symm
        change (kept ++ [v]).length ≤ _
        rw [List.length_append, List.length_singleton]
        omega
  · have hfull : ¬ (kept.take Document.maxExamples).length < Document.maxExamples := by
      rw [List.length_take]
      omega
    rw [decide_eq_false hfull, Bool.false_and, if_neg Bool.false_ne_true]
    split
    · rfl
    · rw [List.take_append_of_le_length (by omega)]

theorem IsTally.note (h : IsTally values documents t) (v : Json) :
    IsTally (values ++ [v]) documents (t.note v) where
  mem_types s := by
    rw [PathTally.note, List.mem_insert_iff, h.mem_types, List.map_append, List.mem_append, or_comm]
    simp
  present_eq := h.present_eq
  examples_eq := by
    rw [List.filter_append, PathTally.note]
    dsimp only
    rw [h.examples_eq]
    cases hnull : v.isNull with
    | true => simp [hnull]
    | false =>
        cases hleaf : v.isLeaf with
        | false => simp [hleaf, keep]
        | true =>
            have hfilter : [v].filter (fun v => !v.isNull && v.isLeaf) = [v] := by
              simp [hnull, hleaf]
            rw [hfilter, eraseDups_concat, if_neg Bool.false_ne_true, keep_take _ hleaf]

theorem IsTally.count (h : IsTally values documents t) :
    IsTally values (documents + 1) t.count :=
  ⟨h.mem_types, congrArg (· + 1) h.present_eq, h.examples_eq⟩

/-- What is found at a path with some values: nothing without a value, else their tally. -/
structure IsFound (values : List Json) (documents : Nat) (found : Option PathTally) : Prop where
  eq_none_iff : found = none ↔ values = []
  isTally : IsTally values documents (found.getD .empty)

variable {found : Option PathTally}

theorem isFound_none : IsFound [] 0 none := ⟨by simp, isTally_empty⟩

/-- One value after another. -/
theorem IsFound.foldl_note :
    ∀ {values : List Json} {found : Option PathTally} (more : List Json),
      IsFound values documents found →
      IsFound (values ++ more) documents
        (more.foldl (fun found v => some ((found.getD .empty).note v)) found)
  | values, found, [], h => by simpa using h
  | values, found, v :: more, h => by
      have hnext : IsFound (values ++ [v]) documents (some ((found.getD .empty).note v)) :=
        ⟨by simp, h.isTally.note v⟩
      rw [List.foldl_cons]
      simpa using hnext.foldl_note more

theorem IsFound.count
    (h : IsFound values documents found)
    (hvalues : values ≠ []) :
    IsFound values (documents + 1) (found.map PathTally.count) := by
  cases found with
  | none => exact absurd (h.eq_none_iff.mp rfl) hvalues
  | some t => exact ⟨by simp [hvalues], h.isTally.count⟩

end PathTally

namespace Document

variable {docs : List Document} {d : Document} {path : String} {v : Json}

theorem mem_valuesAt :
    v ∈ valuesAt path docs ↔ ∃ d ∈ docs, (path, v) ∈ visits d := by
  simp only [valuesAt, List.mem_filterMap, List.mem_flatMap, Prod.exists]
  constructor
  · rintro ⟨p, w, ⟨d, hd, hv⟩, hif⟩
    split at hif
    · rename_i hp
      cases hif
      exact ⟨d, hd, hp ▸ hv⟩
    · cases hif
  · rintro ⟨d, hd, hv⟩
    exact ⟨path, v, ⟨d, hd, hv⟩, if_pos rfl⟩

theorem isPresentAt_iff :
    isPresentAt path d = true ↔ ∃ v, (path, v) ∈ visits d ∧ v.isNull = false := by
  simp only [isPresentAt, List.any_eq_true, Prod.exists, Bool.and_eq_true, decide_eq_true_eq,
    Bool.not_eq_true']
  constructor
  · rintro ⟨p, v, hv, rfl, hn⟩
    exact ⟨v, hv, hn⟩
  · rintro ⟨v, hv, hn⟩
    exact ⟨path, v, hv, rfl, hn⟩

theorem valuesAt_append (docs docs' : List Document) :
    valuesAt path (docs ++ docs') = valuesAt path docs ++ valuesAt path docs' := by
  simp [valuesAt]

theorem valuesAt_singleton :
    valuesAt path [d] = (visits d).filterMap fun r => if r.1 = path then some r.2 else none := by
  simp [valuesAt]

/-- A path of the documents is one with a value. -/
theorem mem_paths_iff : path ∈ paths docs ↔ valuesAt path docs ≠ [] := by
  rw [paths, Text.mem_sorted, List.mem_map]
  constructor
  · rintro ⟨⟨p, v⟩, hvisit, rfl⟩
    obtain ⟨d, hd, hv⟩ := List.mem_flatMap.mp hvisit
    exact List.ne_nil_of_mem (mem_valuesAt.mpr ⟨d, hd, hv⟩)
  · intro hne
    obtain ⟨v, hv⟩ := List.exists_mem_of_ne_nil _ hne
    obtain ⟨d, hd, hvisit⟩ := mem_valuesAt.mp hv
    exact ⟨(path, v), List.mem_flatMap.mpr ⟨d, hd, hvisit⟩, rfl⟩

/-- Gathering the values below a value takes its visits one after another. -/
theorem addValues_eq_foldl :
    ∀ (depth : Nat) (path : String) (v : Json) (t : Table (List Json)),
      addValues depth path v t =
        (visitsBelow depth path v).foldl
          (fun t r => t.update r.1 fun found => found.getD [] ++ [r.2]) t
  | 0, _, _, _ => rfl
  | depth + 1, path, v, t => by
      cases v with
      | obj fields =>
          rw [addValues, visitsBelow, List.foldl_cons]
          split
          · rfl
          · simp only [List.foldl_flatMap, addValues_eq_foldl depth]
      | arr items =>
          rw [addValues, visitsBelow, List.foldl_cons]
          simp only [List.foldl_flatMap, addValues_eq_foldl depth]
      | _ => rfl

/-- The gathered values of a path are those at the path. -/
theorem get?_valuesByPath :
    (valuesByPath docs).get? path =
      if valuesAt path docs = [] then none else some (valuesAt path docs) := by
  have hfold : valuesByPath docs = (docs.flatMap visits).foldl
      (fun t r => t.update r.1 fun found => found.getD [] ++ [r.2]) .empty := by
    simp only [valuesByPath, visits, List.foldl_flatMap, addValues_eq_foldl]
  have hconcat : ∀ (values before : List Json),
      values.foldl (fun found v => some (found.getD [] ++ [v])) (some before) =
        some (before ++ values) := by
    intro values
    induction values with
    | nil => simp
    | cons v rest ih => simp [ih]
  rw [hfold, Table.get?_foldl_update fun v found => found.getD [] ++ [v]]
  change (valuesAt path docs).foldl _ none = _
  cases valuesAt path docs with
  | nil => rfl
  | cons v rest => simp [hconcat]

theorem getD_get?_valuesByPath : ((valuesByPath docs).get? path).getD [] = valuesAt path docs := by
  rw [get?_valuesByPath]
  split
  · rename_i hnil
    exact hnil.symm
  · rfl

end Document

namespace Tally

open PathTally
open Document (visits visitsBelow valuesAt isPresentAt fieldAt mem_valuesAt isPresentAt_iff
  valuesAt_append valuesAt_singleton mem_paths_iff)

variable {t : Tally} {path p : String} {d : Document} {docs : List Document}

/-- The walk below a value takes its visits one after another. -/
theorem visit_eq_foldl :
    ∀ (depth : Nat) (path : String) (v : Json) (t : Tally),
      visit depth path v t = (visitsBelow depth path v).foldl (fun t r => t.note r.1 r.2) t
  | 0, _, _, _ => rfl
  | depth + 1, path, v, t => by
      cases v with
      | obj fields =>
          rw [visit, visitsBelow, List.foldl_cons]
          split
          · rfl
          · simp only [List.foldl_flatMap, visit_eq_foldl depth]
      | arr items =>
          rw [visit, visitsBelow, List.foldl_cons]
          simp only [List.foldl_flatMap, visit_eq_foldl depth]
      | _ => rfl

theorem addDocument_eq (paths : Table PathTally) :
    addDocument paths d =
      ((visits d).foldl (fun t r => Tally.note t r.1 r.2) ⟨paths, []⟩).counted := by
  simp only [addDocument, visits, List.foldl_flatMap, visit_eq_foldl]

theorem paths_foldl_note :
    ∀ (met : List (String × Json)) (t : Tally),
      (met.foldl (fun t r => t.note r.1 r.2) t).paths =
        met.foldl (fun paths r => paths.update r.1 fun found => (found.getD .empty).note r.2)
          t.paths
  | [], _ => rfl
  | _ :: rest, t => by rw [List.foldl_cons, paths_foldl_note rest]; rfl

/-- Each path is seen once, and exactly where it has a value other than null. -/
structure IsSeen (met : List (String × Json)) (seen : List String) : Prop where
  nodup : seen.Nodup
  mem_iff : ∀ path, path ∈ seen ↔ ∃ v, (path, v) ∈ met ∧ v.isNull = false

theorem IsSeen.note
    {before : List (String × Json)}
    (h : IsSeen before t.seen)
    (path : String)
    (v : Json) :
    IsSeen (before ++ [(path, v)]) (t.note path v).seen := by
  have hmem : ∀ p, (∃ w, (p, w) ∈ before ++ [(path, v)] ∧ w.isNull = false) ↔
      p ∈ t.seen ∨ p = path ∧ v.isNull = false := by
    intro p
    rw [h.mem_iff]
    simp only [List.mem_append, List.mem_singleton, Prod.mk.injEq, or_and_right, exists_or]
    refine or_congr_right ⟨?_, ?_⟩
    · rintro ⟨w, ⟨rfl, rfl⟩, hnull⟩
      exact ⟨rfl, hnull⟩
    · rintro ⟨rfl, hnull⟩
      exact ⟨v, ⟨rfl, rfl⟩, hnull⟩
  unfold Tally.note
  cases hnull : v.isNull with
  | true =>
      refine ⟨h.nodup, fun p => ?_⟩
      rw [hmem, hnull]
      simp
  | false =>
      refine ⟨h.nodup.insert, fun p => ?_⟩
      rw [hmem, hnull, if_neg Bool.false_ne_true, List.mem_insert_iff, or_comm]
      simp

theorem IsSeen.foldl_note :
    ∀ {before : List (String × Json)} {t : Tally} (more : List (String × Json)),
      IsSeen before t.seen →
      IsSeen (before ++ more) (more.foldl (fun t r => t.note r.1 r.2) t).seen
  | before, t, [], h => by simpa using h
  | before, t, r :: more, h => by
      rw [List.foldl_cons]
      simpa using (h.note r.1 r.2).foldl_note more

/-- Counting the seen paths adds one to each of them. -/
theorem get?_foldl_modify :
    ∀ {seen : List String} (paths : Table PathTally), seen.Nodup →
      (seen.foldl (fun paths path => paths.modify path PathTally.count) paths).get? p =
        if p ∈ seen then (paths.get? p).map PathTally.count else paths.get? p
  | [], paths, _ => by simp
  | path :: rest, paths, h => by
      obtain ⟨hnew, hrest⟩ := List.nodup_cons.mp h
      rw [List.foldl_cons, get?_foldl_modify _ hrest, Table.get?_modify]
      by_cases hp : p = path
      · subst hp
        simp [hnew]
      · simp [hp]

/-- One more document keeps what is found at a path in step with the values there. -/
theorem isFound_addDocument
    {paths : Table PathTally}
    (h : IsFound (valuesAt p docs) (docs.countP (isPresentAt p)) (paths.get? p)) :
    IsFound (valuesAt p (docs ++ [d])) ((docs ++ [d]).countP (isPresentAt p))
      ((addDocument paths d).get? p) := by
  have hseen : IsSeen ([] ++ visits d)
      ((visits d).foldl (fun t r => Tally.note t r.1 r.2) ⟨paths, []⟩).seen :=
    IsSeen.foldl_note (visits d) ⟨List.nodup_nil, by simp⟩
  have hvalues := h.foldl_note (valuesAt p [d])
  have hpresent : p ∈ ((visits d).foldl (fun t r => Tally.note t r.1 r.2) ⟨paths, []⟩).seen ↔
      isPresentAt p d = true := by
    rw [hseen.mem_iff, isPresentAt_iff, List.nil_append]
  rw [addDocument_eq, counted, get?_foldl_modify _ hseen.nodup, paths_foldl_note,
    Table.get?_foldl_update fun (v : Json) (found : Option PathTally) => (found.getD .empty).note v,
    ← valuesAt_singleton,
    valuesAt_append, List.countP_append, List.countP_singleton]
  by_cases hp : isPresentAt p d = true
  · rw [if_pos (hpresent.mpr hp), if_pos hp]
    refine hvalues.count fun hnil => ?_
    obtain ⟨v, hv, -⟩ := isPresentAt_iff.mp hp
    have hmem : v ∈ valuesAt p [d] := mem_valuesAt.mpr ⟨d, List.mem_singleton_self d, hv⟩
    rw [(List.append_eq_nil_iff.mp hnil).2] at hmem
    exact absurd hmem List.not_mem_nil
  · rw [if_neg fun hmem => hp (hpresent.mp hmem), if_neg hp]
    exact hvalues

/-- After all documents, each path has the tally of the values there. -/
theorem isFound_ofDocuments (docs : List Document) (p : String) :
    IsFound (valuesAt p docs) (docs.countP (isPresentAt p)) ((ofDocuments docs).get? p) := by
  have hrun : ∀ (rest before : List Document) (paths : Table PathTally),
      IsFound (valuesAt p before) (before.countP (isPresentAt p)) (paths.get? p) →
      IsFound (valuesAt p (before ++ rest)) ((before ++ rest).countP (isPresentAt p))
        ((rest.foldl addDocument paths).get? p) := by
    intro rest
    induction rest with
    | nil => intro before paths h; simpa using h
    | cons d rest ih =>
        intro before paths h
        have hnext := ih (before ++ [d]) (addDocument paths d) (isFound_addDocument h)
        simpa using hnext
  exact hrun docs [] .empty isFound_none

theorem keys_ofDocuments (docs : List Document) :
    (ofDocuments docs).rows.map Prod.fst = Document.paths docs := by
  refine Text.eq_of_pairwise_lt (Table.pairwise_keys _) (Text.pairwise_lt_sorted _) fun p => ?_
  rw [Table.mem_keys, mem_paths_iff, Option.isSome_iff_ne_none]
  exact not_congr (isFound_ofDocuments docs p).eq_none_iff

/-- The field of a tally is that of its path. -/
theorem field_of_mem_rows
    {r : String × PathTally}
    (hr : r ∈ (ofDocuments docs).rows) :
    r.2.field r.1 docs.length = fieldAt docs r.1 := by
  have hfound := isFound_ofDocuments docs r.1
  rw [Table.mem_rows.mp hr] at hfound
  have htally : IsTally (valuesAt r.1 docs) (docs.countP (isPresentAt r.1)) r.2 := hfound.isTally
  have htypes : Text.sorted r.2.types = Text.sorted ((valuesAt r.1 docs).map Json.typeName) :=
    Text.sorted_eq_of_mem_iff htally.mem_types
  simp only [PathTally.field, fieldAt, htypes, htally.present_eq, htally.examples_eq]

end Tally

/-- The schema has the field of every path. -/
theorem Document.schema_eq (docs : List Document) :
    schema docs =
      ((paths docs).map (fieldAt docs)).mergeSort
        fun a b => Decimal.descending a.frequency b.frequency := by
  have hrows : ((Tally.ofDocuments docs).rows.map fun r => r.2.field r.1 docs.length) =
      (paths docs).map (fieldAt docs) := by
    rw [← Tally.keys_ofDocuments, List.map_map]
    exact List.map_congr_left fun r hr => Tally.field_of_mem_rows hr
  rw [schema, hrows]

theorem FieldStatistics.describe_eq (docs : List Document) (existing : List String) :
    describe docs existing =
      (Document.schema docs).map fun f => ofValues f (Document.valuesAt f.name docs) existing := by
  simp only [describe, Document.getD_get?_valuesByPath]

end EndpointPayload
