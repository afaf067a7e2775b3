import EndpointPayload.Proofs.Document.Labels
import EndpointPayload.Proofs.Document.Schema
import EndpointPayload.Proofs.Json.Same

/-!
# Lookup along the paths of the walk

The walk writes a path down while it goes into a document, and a lookup takes the path apart again
and goes along its keys.  Where no key has a point in it, the pieces of a path without brackets are
the keys that lead there.  A walk passes on its way to such a path only through the objects that the
lookup goes through, since every step into an array leaves brackets in the path; and no wrapper is
on the way if no piece starts with a dollar sign.  So the walk meets at the path what the lookup
finds, once for every document.
-/

namespace EndpointPayload

namespace Json

/-- The keys of an object have no point in them. -/
def KeysLackPoint : Json → Prop
  | obj fields => ∀ f ∈ fields, '.' ∉ f.1.toList
  | _ => True

/-- In every object of a value, at any depth, the keys are distinct and have no point in them. -/
structure HasPlainKeys (v : Json) : Prop where
  isKeyed : v.IsKeyed
  lackPoint : v.Throughout KeysLackPoint

variable {v : Json} {items : List Json} {fields : List (String × Json)}

theorem hasPlainKeys_of_isScalar (h : v.IsScalar) : v.HasPlainKeys := by
  refine ⟨(throughout_iff_of_isScalar h).mpr ?_, (throughout_iff_of_isScalar h).mpr ?_⟩
  all_goals
    cases v with
    | obj => cases h
    | _ => trivial

theorem hasPlainKeys_arr_iff : (arr items).HasPlainKeys ↔ ∀ v ∈ items, v.HasPlainKeys := by
  constructor
  · intro h v hv
    exact ⟨isKeyed_arr_iff.mp h.isKeyed v hv, (throughout_arr_iff.mp h.lackPoint).2 v hv⟩
  · intro h
    exact ⟨isKeyed_arr_iff.mpr fun v hv => (h v hv).isKeyed,
      throughout_arr_iff.mpr ⟨trivial, fun v hv => (h v hv).lackPoint⟩⟩

theorem hasPlainKeys_obj_iff :
    (obj fields).HasPlainKeys ↔
      (fields.map Prod.fst).Nodup ∧ (∀ f ∈ fields, '.' ∉ f.1.toList) ∧
        ∀ f ∈ fields, f.2.HasPlainKeys := by
  constructor
  · intro h
    obtain ⟨hnodup, hkeyed⟩ := isKeyed_obj_iff.mp h.isKeyed
    obtain ⟨hpoint, hlack⟩ := throughout_obj_iff.mp h.lackPoint
    exact ⟨hnodup, hpoint, fun f hf => ⟨hkeyed f hf, hlack f hf⟩⟩
  · rintro ⟨hnodup, hpoint, hfields⟩
    exact ⟨isKeyed_obj_iff.mpr ⟨hnodup, fun f hf => (hfields f hf).isKeyed⟩,
      throughout_obj_iff.mpr ⟨hpoint, fun f hf => (hfields f hf).lackPoint⟩⟩

end Json

namespace Document

/-- A path with some keys after it, each behind a point. -/
def along (path : String) (keys : List String) : String :=
  keys.foldl (fun p key => p ++ "." ++ key) path

section Paths

variable {path key : String} {keys : List String} {cs tail : List Char}

/-- What follows a path when keys are added to it. -/
def tailOf (keys : List String) : List Char := keys.flatMap fun key => '.' :: key.toList

theorem toList_along (path : String) (keys : List String) :
    (along path keys).toList = path.toList ++ tailOf keys := by
  induction keys generalizing path with
  | nil => simp [along, tailOf]
  | cons key keys ih =>
      have hstep : along path (key :: keys) = along (path ++ "." ++ key) keys := rfl
      rw [hstep, ih]
      simp [tailOf]

/-- Every path is made of its pieces. -/
theorem along_of_split (h : Text.split '.' path = key :: keys) : along key keys = path := by
  obtain ⟨piece, pieces, hpieces, rfl, rfl⟩ := List.map_eq_cons_iff.mp h
  refine String.toList_injective ?_
  rw [toList_along, String.toList_ofList, ← Text.append_flatMap_of_splitChars hpieces, tailOf,
    List.flatMap_map]
  simp

theorem point_not_mem_of_mem_split (h : key ∈ Text.split '.' path) : '.' ∉ key.toList := by
  obtain ⟨piece, hpiece, rfl⟩ := List.mem_map.mp h
  rw [String.toList_ofList]
  exact Text.not_mem_of_mem_splitChars hpiece

/-- Nothing, or something behind a point. -/
def EndsOrPoint (tail : List Char) : Prop := tail = [] ∨ ∃ rest, tail = '.' :: rest

theorem endsOrPoint_tailOf (keys : List String) : EndsOrPoint (tailOf keys) := by
  cases keys with
  | nil => exact .inl rfl
  | cons key keys => exact .inr ⟨_, rfl⟩

/-- A key is what stands before the first point. -/
theorem takeWhile_of_endsOrPoint
    (h : '.' ∉ cs)
    (htail : EndsOrPoint tail) :
    (cs ++ tail).takeWhile (· ≠ '.') = cs := by
  have hcs : ∀ c ∈ cs, decide (c ≠ '.') = true := by
    intro c hc
    exact decide_eq_true fun heq => h (heq ▸ hc)
  rw [List.takeWhile_append_of_pos hcs]
  rcases htail with rfl | ⟨rest, rfl⟩ <;> simp

end Paths

section Met

variable {path target key other : String} {keys : List String} {v w : Json}
  {met : List (String × Json)} {fields : List (String × Json)} {depth : Nat}

/-- What stands right below a value, with its paths and in order. -/
def below (path : String) : Json → List (String × Json)
  | .obj fields =>
    if (Json.tagOf? fields).isSome then [] else fields.map fun f => (path ++ "." ++ f.1, f.2)
  | .arr items => items.map fun i => (path ++ "[]", i)
  | _ => []

theorem mem_below_iff {r : String × Json} :
    r ∈ below path v ↔ Json.IsBelow path v r.1 r.2 := by
  obtain ⟨next, u⟩ := r
  cases v with
  | obj fields =>
      constructor
      · intro h
        simp only [below] at h
        split at h
        · cases h
        · rename_i htag
          obtain ⟨f, hf, heq⟩ := List.mem_map.mp h
          cases heq
          exact .field (Option.not_isSome_iff_eq_none.mp htag) hf
      · rintro ⟨hobject, hfield⟩
        rw [below, hobject, if_neg (by simp)]
        exact List.mem_map.mpr ⟨_, hfield, rfl⟩
  | arr items =>
      constructor
      · intro h
        obtain ⟨i, hi, heq⟩ := List.mem_map.mp h
        cases heq
        exact .item hi
      · intro h
        cases h with
        | item hitem => exact List.mem_map.mpr ⟨_, hitem, rfl⟩
  | _ =>
      constructor
      · intro h
        cases h
      · rintro ⟨⟩

/-- The walk meets its start, and then goes on below it in order. -/
theorem visitsBelow_succ (depth : Nat) (path : String) (v : Json) :
    visitsBelow (depth + 1) path v =
      (path, v) :: (below path v).flatMap fun r => visitsBelow depth r.1 r.2 := by
  cases v with
  | obj fields =>
      rw [visitsBelow, below, Json.isLeaf]
      split <;> simp [List.flatMap_map]
  | arr items => simp [visitsBelow, below, List.flatMap_map]
  | _ => rfl

/-- A walk stays at the start of its path, or goes on behind a point or behind brackets. -/
theorem exists_tail_of_mem_visitsBelow (h : (target, v) ∈ visitsBelow depth path w) :
    ∃ tail, target.toList = path.toList ++ tail ∧
      (EndsOrPoint tail ∨ "[]".toList <+: tail) := by
  cases depth with
  | zero =>
      rw [visitsBelow, List.mem_singleton, Prod.mk.injEq] at h
      exact ⟨[], by simp [h.1], .inl (.inl rfl)⟩
  | succ depth =>
      rcases mem_visitsBelow_succ_iff.mp h with hhere | ⟨next, u, hbelow, hvisit⟩
      · cases hhere
        exact ⟨[], by simp, .inl (.inl rfl)⟩
      · obtain ⟨rest, hrest⟩ := prefix_of_mem_visitsBelow depth hvisit
        cases hbelow with
        | @field key =>
            refine ⟨'.' :: key.toList ++ rest, ?_, .inl (.inr ⟨_, rfl⟩)⟩
            simp [← hrest]
        | item =>
            refine ⟨"[]".toList ++ rest, ?_, .inr (List.prefix_append _ _)⟩
            simp [← hrest]

theorem length_lt_of_isBelow
    {next : String}
    (h : Json.IsBelow path v next w) :
    path.toList.length < next.toList.length := by
  cases h with
  | field =>
      simp only [String.toList_append, List.length_append]
      exact Nat.lt_add_right _ (Nat.lt_succ_self _)
  | item => simp

/-- The values that stand at a path in a walk. -/
def metAt (path : String) (met : List (String × Json)) : List Json :=
  met.filterMap fun r => if r.1 = path then some r.2 else none

@[simp] theorem metAt_cons_self (v : Json) (met : List (String × Json)) :
    metAt path ((path, v) :: met) = v :: metAt path met := by
  simp [metAt]

theorem metAt_cons_of_ne (h : path ≠ target) (v : Json) (met : List (String × Json)) :
    metAt target ((path, v) :: met) = metAt target met := by
  simp [metAt, h]

theorem metAt_eq_nil (h : ∀ v, (target, v) ∉ met) : metAt target met = [] := by
  rw [metAt, List.filterMap_eq_nil_iff]
  rintro ⟨p, v⟩ hr
  refine if_neg ?_
  rintro rfl
  exact h v hr

theorem metAt_flatMap
    {α : Type}
    (xs : List α)
    (walk : α → List (String × Json)) :
    metAt target (xs.flatMap walk) = xs.flatMap fun x => metAt target (walk x) := by
  simp [metAt, List.filterMap_flatMap]

/-- At the start of its path a walk meets the value it starts with, and nothing else. -/
theorem metAt_self (depth : Nat) (path : String) (v : Json) :
    metAt path (visitsBelow depth path v) = [v] := by
  cases depth with
  | zero => rw [visitsBelow, metAt_cons_self, metAt, List.filterMap_nil]
  | succ depth =>
      rw [visitsBelow_succ, metAt_cons_self, metAt_eq_nil]
      intro u hu
      obtain ⟨⟨next, w⟩, hr, hvisit⟩ := List.mem_flatMap.mp hu
      have hlt := length_lt_of_isBelow (mem_below_iff.1 hr)
      have hle := (prefix_of_mem_visitsBelow depth hvisit).length_le
      omega

/-- At a path with more keys a walk meets what it meets below its start. -/
theorem metAt_along_cons (depth : Nat) (path key : String) (keys : List String) (v : Json) :
    metAt (along path (key :: keys)) (visitsBelow (depth + 1) path v) =
      (below path v).flatMap fun r =>
        metAt (along path (key :: keys)) (visitsBelow depth r.1 r.2) := by
  have hne : path ≠ along path (key :: keys) := by
    intro heq
    have hlength := congrArg (fun s => s.toList.length) heq
    simp [toList_along, tailOf] at hlength
  rw [visitsBelow_succ, metAt_cons_of_ne hne, metAt_flatMap]

/-- Behind one key a walk never comes to a path that goes on with another key. -/
theorem metAt_of_ne
    (keys : List String)
    (hkey : '.' ∉ key.toList)
    (hother : '.' ∉ other.toList)
    (hne : other ≠ key)
    (hbrackets : ¬ "[]".toList <:+: (along (path ++ key) keys).toList) :
    metAt (along (path ++ key) keys) (visitsBelow depth (path ++ other) w) = [] := by
  refine metAt_eq_nil fun v hv => hne ?_
  obtain ⟨tail, htarget, htail | htail⟩ := exists_tail_of_mem_visitsBelow hv
  · rw [toList_along, String.toList_append, String.toList_append, List.append_assoc,
      List.append_assoc, List.append_cancel_left_eq] at htarget
    refine String.toList_injective ?_
    rw [← takeWhile_of_endsOrPoint hother htail, ← htarget,
      takeWhile_of_endsOrPoint hkey (endsOrPoint_tailOf keys)]
  · refine absurd ?_ hbrackets
    rw [htarget]
    exact htail.isInfix.trans (List.suffix_append _ _).isInfix

/-- Where only one key counts and the keys are distinct, what counts is what a lookup finds. -/
theorem flatMap_eq_of_lookup
    {α : Type}
    {g : String × Json → List α} :
    ∀ {fields : List (String × Json)}, (fields.map Prod.fst).Nodup →
      (∀ f ∈ fields, f.1 ≠ key → g f = []) →
        fields.flatMap g = ((Json.lookup key fields).map fun w => g (key, w)).getD []
  | [], _, _ => rfl
  | (k, w) :: rest, hnodup, hg => by
      rw [List.map_cons, List.nodup_cons] at hnodup
      obtain ⟨hk, hrest⟩ := hnodup
      by_cases heq : k = key
      · subst heq
        have hnil : rest.flatMap g = [] := by
          refine List.flatMap_eq_nil_iff.mpr fun f hf => ?_
          refine hg f (List.mem_cons_of_mem _ hf) fun heq => hk ?_
          exact List.mem_map.mpr ⟨f, hf, heq⟩
        simp [hnil, Json.lookup]
      · have hhead := hg (k, w) List.mem_cons_self heq
        have htail := flatMap_eq_of_lookup hrest fun f hf => hg f (List.mem_cons_of_mem _ hf)
        rw [List.flatMap_cons, hhead, List.nil_append, htail, Json.lookup, if_neg heq]

/-- Below a value a walk meets at a path of keys what following the keys finds. -/
theorem metAt_visitsBelow :
    ∀ {keys : List String} {depth : Nat} {path : String} {v : Json},
      keys.length ≤ depth → v.HasPlainKeys →
      (∀ key ∈ keys, '.' ∉ key.toList ∧ key.startsWith "$" = false) →
      ¬ "[]".toList <:+: (along path keys).toList →
        metAt (along path keys) (visitsBelow depth path v) = (follow? v keys).toList
  | [], depth, path, v, _, _, _, _ => metAt_self depth path v
  | key :: keys, depth + 1, path, v, hdepth, hv, hkeys, hbrackets => by
      obtain ⟨⟨hpoint, hdollar⟩, hrest⟩ := List.forall_mem_cons.mp hkeys
      rw [metAt_along_cons]
      cases v with
      | obj fields =>
          cases htag : Json.tagOf? fields with
          | some tag =>
              obtain ⟨w, rfl⟩ := Json.eq_of_tagOf? htag
              have hne : tag ≠ key := by
                rintro rfl
                rw [Json.startsWith_of_tagOf? htag] at hdollar
                cases hdollar
              simp [below, htag, follow?, Json.get?, Json.lookup, hne]
          | none =>
              have hbelow : below path (.obj fields) =
                  fields.map fun f => (path ++ "." ++ f.1, f.2) := by simp [below, htag]
              obtain ⟨hnodup, hpoints, hfields⟩ := Json.hasPlainKeys_obj_iff.1 hv
              rw [hbelow, List.flatMap_map]
              have hother : ∀ f ∈ fields, f.1 ≠ key → metAt (along path (key :: keys))
                  (visitsBelow depth (path ++ "." ++ f.1) f.2) = [] :=
                fun f hf hne => metAt_of_ne keys hpoint (hpoints f hf) hne hbrackets
              rw [flatMap_eq_of_lookup hnodup hother, follow?, Json.get?]
              cases hget : Json.lookup key fields with
              | none => rfl
              | some w =>
                  exact metAt_visitsBelow (Nat.le_of_succ_le_succ hdepth)
                    (hfields _ (Json.mem_of_lookup fields hget)) hrest hbrackets
      | arr items =>
          have hnil : ((below path (.arr items)).flatMap fun r =>
              metAt (along path (key :: keys)) (visitsBelow depth r.1 r.2)) = [] := by
            rw [List.flatMap_eq_nil_iff]
            rintro r hr
            obtain ⟨i, -, rfl⟩ := List.mem_map.mp hr
            refine metAt_eq_nil fun u hu => hbrackets ?_
            have hprefix := prefix_of_mem_visitsBelow depth hu
            rw [String.toList_append] at hprefix
            exact (List.suffix_append _ _).isInfix.trans hprefix.isInfix
          rw [hnil]
          rfl
      | _ => rfl

/-- A path has no more points than there are steps to it from a key of the document. -/
theorem count_point_le_of_leads
    {n : Nat}
    (h : Json.Leads n path w target v)
    (hw : w.HasPlainKeys) :
    target.toList.count '.' ≤ path.toList.count '.' + n := by
  induction h with
  | here => exact Nat.le_refl _
  | step hbelow _ ih =>
      cases hbelow with
      | field _ hfield =>
          obtain ⟨-, hpoints, hfields⟩ := Json.hasPlainKeys_obj_iff.1 hw
          refine (ih (hfields _ hfield)).trans ?_
          have hpoint := List.count_eq_zero.mpr (hpoints _ hfield)
          simp only [String.toList_append, List.count_append, hpoint]
          simp
          omega
      | item hitem =>
          refine (ih (Json.hasPlainKeys_arr_iff.1 hw _ hitem)).trans ?_
          simp [List.count_append]

end Met

variable {docs : List Document} {d : Document} {path : String} {v : Json} {f : SchemaField}

/-- A path that the walk comes to in a document has at most six pieces. -/
theorem length_split_of_reaches
    (hd : (Json.obj d).HasPlainKeys)
    (h : d.Reaches path v) :
    (Text.split '.' path).length ≤ 6 := by
  obtain ⟨f, hf, n, hn, hleads⟩ := h
  obtain ⟨-, hpoints, hfields⟩ := Json.hasPlainKeys_obj_iff.1 hd
  have hcount := count_point_le_of_leads hleads (hfields f hf)
  rw [List.count_eq_zero.mpr (hpoints f hf)] at hcount
  rw [Text.split, List.length_map, Text.length_splitChars]
  omega

/-- At a path of few keys, none of them that of a wrapper, the walk through a document meets what a
lookup finds in it. -/
theorem metAt_visits
    (hd : (Json.obj d).HasPlainKeys)
    (hlength : (Text.split '.' path).length ≤ 6)
    (hbrackets : Text.occursIn "[]" path = false)
    (hdollar : ∀ key ∈ Text.split '.' path, key.startsWith "$" = false) :
    metAt path (visits d) = (d.at? path).toList := by
  have hpoint : ∀ key ∈ Text.split '.' path, '.' ∉ key.toList := fun _ => point_not_mem_of_mem_split
  obtain ⟨hnodup, hpoints, hfields⟩ := Json.hasPlainKeys_obj_iff.1 hd
  rw [at?]
  cases hsplit : Text.split '.' path with
  | nil => exact absurd (List.map_eq_nil_iff.mp hsplit) (Text.splitChars_ne_nil _ _)
  | cons key keys =>
      obtain rfl := along_of_split hsplit
      rw [hsplit, List.length_cons] at hlength
      rw [hsplit] at hdollar hpoint
      rw [Bool.eq_false_iff, Ne, Text.occursIn_iff] at hbrackets
      have hother : ∀ f ∈ d, f.1 ≠ key →
          metAt (along key keys) (visitsBelow maxDepth f.1 f.2) = [] := by
        intro f hf hne
        have hmet : metAt (along ("" ++ key) keys) (visitsBelow maxDepth ("" ++ f.1) f.2) = [] := by
          refine metAt_of_ne keys (hpoint key List.mem_cons_self) (hpoints f hf) hne ?_
          rwa [String.empty_append]
        rwa [String.empty_append, String.empty_append] at hmet
      rw [visits, metAt_flatMap, flatMap_eq_of_lookup hnodup hother, follow?, Json.get?]
      cases hget : Json.lookup key d with
      | none => rfl
      | some w =>
          refine metAt_visitsBelow (Nat.le_of_succ_le_succ hlength)
            (hfields _ (Json.mem_of_lookup d hget)) (fun k hk => ?_) hbrackets
          exact ⟨hpoint k (List.mem_cons_of_mem _ hk), hdollar k (List.mem_cons_of_mem _ hk)⟩

theorem valuesAt_eq_flatMap : valuesAt path docs = docs.flatMap fun d => metAt path (visits d) :=
  metAt_flatMap docs visits

theorem isPresentAt_eq_any :
    isPresentAt path d = (metAt path (visits d)).any fun v => !v.isNull := by
  rw [Bool.eq_iff_iff, isPresentAt_iff, List.any_eq_true]
  simp [metAt]

/-- Whether a lookup finds a value other than null. -/
def isFoundAt (path : String) (d : Document) : Bool := (d.at? path).any fun v => !v.isNull

/-- At every path of the schema without brackets and without the key of a wrapper, the values that
are gathered are what a lookup finds in the documents, one after another, and the frequency is the
share of the documents where it finds a value other than null. -/
theorem gathered_and_frequency_of_mem_schema
    (hdocs : ∀ d ∈ docs, (Json.obj d).HasPlainKeys)
    (hf : f ∈ schema docs)
    (hbrackets : Text.occursIn "[]" f.name = false)
    (hdollar : ∀ key ∈ Text.split '.' f.name, key.startsWith "$" = false) :
    (valuesByPath docs).get? f.name = some (docs.filterMap fun d => d.at? f.name) ∧
      f.frequency =
        Float.ofNat (docs.countP (isFoundAt f.name)) / Float.ofNat docs.length * 100.0 := by
  obtain ⟨d, hd, v, hreaches⟩ := mem_names_schema_iff.mp (List.mem_map_of_mem hf)
  have hlength := length_split_of_reaches (hdocs d hd) hreaches
  have hmet : ∀ d ∈ docs, metAt f.name (visits d) = (d.at? f.name).toList :=
    fun d hd => metAt_visits (hdocs d hd) hlength hbrackets hdollar
  constructor
  · have hvalues : valuesAt f.name docs = docs.filterMap fun d => d.at? f.name := by
      rw [valuesAt_eq_flatMap, List.filterMap_eq_flatMap_toList]
      exact List.flatMap_congr hmet
    have hne : valuesAt f.name docs ≠ [] :=
      List.ne_nil_of_mem (mem_valuesAt_iff.mpr ⟨d, hd, hreaches⟩)
    rw [get?_valuesByPath, if_neg hne, hvalues]
  · have hpresent : docs.countP (isPresentAt f.name) = docs.countP (isFoundAt f.name) := by
      refine List.countP_congr fun d hd => ?_
      rw [isPresentAt_eq_any, hmet d hd, isFoundAt]
      cases d.at? f.name <;> simp
    have hfrequency := congrArg SchemaField.frequency (eq_fieldAt_of_mem_schema hf)
    rw [hfrequency, fieldAt, hpresent, Nat.max_eq_left (length_pos_of_mem_schema hf)]

/-- Three books, with and without a title below an empty key. -/
def books : List Document :=
  [[("", .obj [("title", .str "Emma"), ("tags", .arr [.str "novel"])])], [("", .int 2)],
    [("", .obj [("title", .null)])]]

theorem hasPlainKeys_books : ∀ d ∈ books, (Json.obj d).HasPlainKeys := by
  have hscalar {v : Json} : v.IsScalar → v.HasPlainKeys := Json.hasPlainKeys_of_isScalar
  simp only [books, List.forall_mem_cons, Json.hasPlainKeys_obj_iff, Json.hasPlainKeys_arr_iff]
  simp [hscalar (v := .str "Emma") trivial, hscalar (v := .str "novel") trivial,
    hscalar (v := .int 2) trivial, hscalar (v := .null) trivial]

/-- The titles of the books: one is a text, one is null, and the number has none. -/
theorem gathered_and_frequency_titles :
    fieldAt books ".title" ∈ schema books ∧
      (valuesByPath books).get? ".title" = some [.str "Emma", .null] ∧
      (fieldAt books ".title").frequency = Float.ofNat 1 / Float.ofNat 3 * 100.0 := by
  have hf : fieldAt books ".title" ∈ schema books := by
    have hvalues : (valuesAt ".title" books).isEmpty = false := by decide +kernel
    exact mem_schema.mpr ⟨_, mem_paths_iff.mpr (List.isEmpty_eq_false_iff.mp hvalues), rfl⟩
  exact ⟨hf, gathered_and_frequency_of_mem_schema hasPlainKeys_books hf (by decide +kernel)
    (by decide +kernel)⟩

end Document
end EndpointPayload
