import EndpointPayload.Files.Glob
import EndpointPayload.Proofs.Text.Bytes
import Mathlib.Tactic

/-!
# What globs match

`GlobPiece.Spells` says which bytes each piece of a glob stands for: a star for bytes without a
slash, two stars between slashes for any directories, a question mark for one byte that is no slash.
A pattern stands for what its pieces stand for in a row, and a glob matches a text, letter case
aside if it does not count, exactly if one of its patterns stands for the text.

**Input.**  Any glob, and any text of a pattern.

**Results.**
* `isMatch_iff`: matching by what is left is matching by the rules.
* `any_inRange_lowered_iff`: where letter case does not count, a class accepts a letter in both
  cases.
* `IsDeep.isMatch_below`: a glob whose patterns all start with any directories matches below a
  directory what it matches at the top.
* `isDeep_of_ofText?`: a pattern text that starts with two stars and a slash gives such a glob.
-/

namespace EndpointPayload

namespace GlobPiece

/-! ## What a piece stands for -/

inductive Spells : GlobPiece → List UInt8 → Prop
  | byte
      (b : UInt8) :
      Spells (.byte b) [b]
  | any
      {b : UInt8}
      (hb : b ≠ slash) :
      Spells .any [b]
  | star
      {bs : List UInt8}
      (hbs : slash ∉ bs) :
      Spells .star bs
  | leadingNone : Spells .leading []
  | leadingSome
      (directories : List UInt8) :
      Spells .leading (directories ++ [slash])
  | trailing
      (bs : List UInt8) :
      Spells .trailing (slash :: bs)
  | betweenNone : Spells .between [slash]
  | betweenSome
      (directories : List UInt8) :
      Spells .between (slash :: directories ++ [slash])
  | oneOf
      {negated : Bool}
      {ranges : List (Char × Char)}
      {b : UInt8}
      (hb : ranges.any (inRange b) ≠ negated) :
      Spells (.oneOf negated ranges) [b]

variable {s r : List UInt8}

theorem mem_ends_iff : r ∈ ends s ↔ r <:+ s := by
  induction s with
  | nil => simp [ends]
  | cons b s ih => rw [ends, List.mem_cons, ih, List.suffix_cons_iff]

theorem mem_afterSlashes_iff : r ∈ afterSlashes s ↔ ∃ bs, s = bs ++ slash :: r := by
  induction s with
  | nil => simp [afterSlashes]
  | cons b s ih =>
      have hbelow : (∃ bs, b :: s = bs ++ slash :: r) ↔
          (b = slash ∧ s = r) ∨ ∃ bs, s = bs ++ slash :: r := by
        constructor
        · rintro ⟨bs, hbs⟩
          cases bs with
          | nil => exact .inl (by simpa using hbs)
          | cons c bs => exact .inr ⟨bs, (List.cons.inj hbs).2⟩
        · rintro (⟨rfl, rfl⟩ | ⟨bs, rfl⟩)
          · exact ⟨[], rfl⟩
          · exact ⟨b :: bs, rfl⟩
      rw [hbelow, afterSlashes]
      split
      · rename_i hb
        rw [List.mem_cons, ih]
        simp [hb, eq_comm]
      · rename_i hb
        rw [ih]
        simp [hb]

theorem mem_withinName_iff : r ∈ withinName s ↔ ∃ bs, slash ∉ bs ∧ s = bs ++ r := by
  induction s generalizing r with
  | nil => simp [withinName]
  | cons b s ih =>
      rw [withinName]
      split
      · rename_i hb
        rw [List.mem_singleton]
        constructor
        · rintro rfl
          exact ⟨[], List.not_mem_nil, rfl⟩
        · rintro ⟨bs, hbs, hsplit⟩
          cases bs with
          | nil => exact hsplit.symm
          | cons c bs =>
              obtain ⟨rfl, -⟩ := List.cons.inj hsplit
              exact absurd (hb ▸ List.mem_cons_self) hbs
      · rename_i hb
        rw [List.mem_cons, ih]
        constructor
        · rintro (rfl | ⟨bs, hbs, rfl⟩)
          · exact ⟨[], List.not_mem_nil, rfl⟩
          · exact ⟨b :: bs, by simp [hbs, Ne.symm hb], rfl⟩
        · rintro ⟨bs, hbs, hsplit⟩
          cases bs with
          | nil => exact .inl hsplit.symm
          | cons c bs =>
              obtain ⟨rfl, rfl⟩ := List.cons.inj hsplit
              exact .inr ⟨bs, fun h => hbs (List.mem_cons_of_mem _ h), rfl⟩

/-- A piece leaves what comes behind the bytes that it stands for. -/
theorem mem_rests_iff (p : GlobPiece) : r ∈ p.rests s ↔ ∃ bs, p.Spells bs ∧ s = bs ++ r := by
  constructor
  · intro h
    cases p with
    | byte b =>
        cases s with
        | nil => simp [rests] at h
        | cons c s =>
            obtain ⟨rfl, rfl⟩ : c = b ∧ r = s := by simpa [rests] using h
            exact ⟨[c], .byte c, rfl⟩
    | any =>
        cases s with
        | nil => simp [rests] at h
        | cons c s =>
            obtain ⟨hc, rfl⟩ : c ≠ slash ∧ r = s := by simpa [rests] using h
            exact ⟨[c], .any hc, rfl⟩
    | star =>
        obtain ⟨bs, hbs, rfl⟩ := mem_withinName_iff.mp h
        exact ⟨bs, .star hbs, rfl⟩
    | leading =>
        rcases List.mem_cons.mp h with rfl | hbelow
        · exact ⟨[], .leadingNone, rfl⟩
        · obtain ⟨directories, rfl⟩ := mem_afterSlashes_iff.mp hbelow
          exact ⟨directories ++ [slash], .leadingSome directories, by simp⟩
    | trailing =>
        cases s with
        | nil => simp [rests] at h
        | cons c s =>
            obtain ⟨rfl, bs, rfl⟩ : c = slash ∧ r <:+ s := by simpa [rests, mem_ends_iff] using h
            exact ⟨slash :: bs, .trailing bs, rfl⟩
    | between =>
        cases s with
        | nil => simp [rests] at h
        | cons c s =>
            obtain ⟨rfl, hbelow⟩ : c = slash ∧ (r = s ∨ ∃ bs, s = bs ++ slash :: r) := by
              simpa [rests, mem_afterSlashes_iff] using h
            rcases hbelow with rfl | ⟨directories, rfl⟩
            · exact ⟨[slash], .betweenNone, rfl⟩
            · exact ⟨slash :: directories ++ [slash], .betweenSome directories, by simp⟩
    | oneOf negated ranges =>
        cases s with
        | nil => simp [rests] at h
        | cons c s =>
            obtain ⟨hc, rfl⟩ : ranges.any (inRange c) ≠ negated ∧ r = s := by
              simpa [rests, -List.any_eq_true] using h
            exact ⟨[c], .oneOf hc, rfl⟩
  · rintro ⟨bs, hbs, rfl⟩
    cases hbs with
    | byte b => simp [rests]
    | any hb => simp [rests, hb]
    | star hbs => exact mem_withinName_iff.mpr ⟨bs, hbs, rfl⟩
    | leadingNone => simp [rests]
    | leadingSome directories =>
        refine List.mem_cons_of_mem _ (mem_afterSlashes_iff.mpr ⟨directories, ?_⟩)
        simp
    | trailing bs => simp [rests, mem_ends_iff]
    | betweenNone => simp [rests]
    | betweenSome directories =>
        have hbelow : r ∈ afterSlashes (directories ++ slash :: r) :=
          mem_afterSlashes_iff.mpr ⟨directories, rfl⟩
        simp [rests, hbelow]
    | oneOf hb => simp [rests, hb]

end GlobPiece

namespace Glob

/-! ## What a pattern stands for -/

/-- The bytes that the pieces of a pattern stand for in a row. -/
inductive Spells : List GlobPiece → List UInt8 → Prop
  | nil : Spells [] []
  | cons
      {p : GlobPiece}
      {pattern : List GlobPiece}
      {front back : List UInt8}
      (hp : p.Spells front)
      (hpattern : Spells pattern back) :
      Spells (p :: pattern) (front ++ back)

variable {s r : List UInt8} {texts : List (List UInt8)}

/-- Two ends of one text with the same length are the same. -/
theorem eq_of_isSuffix {t u : List UInt8} (ht : t <:+ s) (hu : u <:+ s) (h : u.length = t.length) :
    u = t :=
  (List.suffix_of_suffix_length_le hu ht h.le).eq_of_length h

/-- So none of them is lost where one of each length is kept. -/
theorem mem_foldl_distinct_iff
    {kept : List (List UInt8)}
    (h : ∀ t ∈ kept ++ texts, t <:+ s) :
    r ∈ texts.foldl
        (fun kept t => if kept.any fun u => u.length = t.length then kept else kept ++ [t]) kept ↔
      r ∈ kept ++ texts := by
  induction texts generalizing kept with
  | nil => simp
  | cons t texts ih =>
      rw [List.foldl_cons]
      split
      · rename_i hany
        obtain ⟨u, hu, hlength⟩ := List.any_eq_true.mp hany
        have hsame : u = t :=
          eq_of_isSuffix (h t (by simp)) (h u (by simp [hu])) (by simpa using hlength)
        have hends : ∀ v ∈ kept ++ texts, v <:+ s := by
          intro v hv
          refine h v (List.mem_append.mpr ?_)
          exact (List.mem_append.mp hv).imp_right fun hrest => List.mem_cons_of_mem t hrest
        rw [ih hends]
        simp only [List.mem_append, List.mem_cons]
        constructor
        · rintro (hkept | hrest)
          · exact .inl hkept
          · exact .inr (.inr hrest)
        · rintro (hkept | rfl | hrest)
          · exact .inl hkept
          · exact .inl (hsame ▸ hu)
          · exact .inr hrest
      · rw [ih (by simpa using h)]
        simp

theorem mem_distinct_iff (h : ∀ t ∈ texts, t <:+ s) : r ∈ distinct texts ↔ r ∈ texts := by
  rw [distinct, mem_foldl_distinct_iff (by simpa using h), List.nil_append]

/-- The texts that a pattern leaves of some ends of one text. -/
theorem mem_foldl_rests_iff
    {pattern : List GlobPiece}
    (h : ∀ t ∈ texts, t <:+ s) :
    r ∈ pattern.foldl (fun texts p => distinct (texts.flatMap p.rests)) texts ↔
      ∃ t ∈ texts, ∃ bs, Spells pattern bs ∧ t = bs ++ r := by
  induction pattern generalizing texts with
  | nil =>
      rw [List.foldl_nil]
      constructor
      · intro hr
        exact ⟨r, hr, [], .nil, rfl⟩
      · rintro ⟨t, ht, bs, hbs, rfl⟩
        cases hbs
        exact ht
  | cons p pattern ih =>
      have hends : ∀ u ∈ texts.flatMap p.rests, u <:+ s := by
        intro u hu
        obtain ⟨t, ht, hu⟩ := List.mem_flatMap.mp hu
        obtain ⟨bs, -, rfl⟩ := (p.mem_rests_iff).mp hu
        exact (List.suffix_append bs u).trans (h _ ht)
      rw [List.foldl_cons, ih fun u hu => hends u ((mem_distinct_iff hends).mp hu)]
      constructor
      · rintro ⟨u, hu, back, hback, rfl⟩
        obtain ⟨t, ht, hu⟩ := List.mem_flatMap.mp ((mem_distinct_iff hends).mp hu)
        obtain ⟨front, hfront, rfl⟩ := (p.mem_rests_iff).mp hu
        exact ⟨_, ht, front ++ back, .cons hfront hback, by rw [List.append_assoc]⟩
      · rintro ⟨t, ht, bs, hbs, rfl⟩
        cases hbs with
        | @cons _ _ front back hfront hback =>
            have hleft : back ++ r ∈ p.rests (front ++ back ++ r) :=
              (p.mem_rests_iff).mpr ⟨front, hfront, by rw [List.append_assoc]⟩
            refine ⟨back ++ r, ?_, back, hback, rfl⟩
            exact (mem_distinct_iff hends).mpr (List.mem_flatMap.mpr ⟨_, ht, hleft⟩)

theorem mem_rests_iff {pattern : List GlobPiece} :
    r ∈ rests pattern s ↔ ∃ bs, Spells pattern bs ∧ s = bs ++ r := by
  have hself : ∀ t ∈ [s], t <:+ s := by simp
  rw [rests, mem_foldl_rests_iff hself]
  constructor
  · rintro ⟨t, ht, hspells⟩
    rwa [List.mem_singleton.mp ht] at hspells
  · intro hspells
    exact ⟨s, List.mem_singleton_self s, hspells⟩

/-- The bytes of a text as a glob compares them. -/
def seen (g : Glob) (text : String) : List UInt8 :=
  if g.anyCase then (bytes text).map lowerByte else bytes text

/-- A glob matches what one of its patterns stands for. -/
theorem isMatch_iff {g : Glob} {text : String} :
    g.isMatch text = true ↔ ∃ pattern ∈ g.patterns, Spells pattern (g.seen text) := by
  have hwhole : ∀ pattern : List GlobPiece,
      (rests pattern (g.seen text)).any List.isEmpty = true ↔ Spells pattern (g.seen text) := by
    intro pattern
    rw [List.any_eq_true]
    constructor
    · rintro ⟨r, hr, hempty⟩
      rw [List.isEmpty_iff] at hempty
      obtain ⟨bs, hbs, htext⟩ := mem_rests_iff.mp hr
      rwa [htext, hempty, List.append_nil]
    · intro h
      exact ⟨[], mem_rests_iff.mpr ⟨_, h, (List.append_nil _).symm⟩, rfl⟩
  rw [isMatch, List.any_eq_true]
  exact exists_congr fun pattern => and_congr_right fun _ => hwhole pattern

/-! ## Letter case -/

theorem toNat_lowerByte (b : UInt8) :
    (lowerByte b).toNat = if 65 ≤ b.toNat ∧ b.toNat ≤ 90 then b.toNat + 32 else b.toNat := by
  simp only [lowerByte, Bool.and_eq_true, decide_eq_true_eq, UInt8.le_iff_toNat_le]
  change (if 65 ≤ b.toNat ∧ b.toNat ≤ 90 then b + 32 else b).toNat = _
  split
  · rw [UInt8.toNat_add]
    change (b.toNat + 32) % 256 = _
    omega
  · rfl

theorem toNat_ofNat_of_lt {n : Nat} (h : n < 128) : (Char.ofNat n).toNat = n := by
  have hvalid : n.isValidChar := Or.inl (by omega)
  rw [Char.ofNat, dif_pos hvalid]
  rfl

/-- The small letters of a range are those of the capitals in it. -/
theorem exists_lowerRange?_iff {r : Char × Char} {b : UInt8} :
    (∃ small, lowerRange? r = some small ∧ GlobPiece.inRange b small = true) ↔
      97 ≤ b.toNat ∧ b.toNat ≤ 122 ∧ r.1.toNat + 32 ≤ b.toNat ∧ b.toNat ≤ r.2.toNat + 32 := by
  unfold lowerRange?
  dsimp only
  split
  · have hfirst := toNat_ofNat_of_lt (show max r.1.toNat 65 + 32 < 128 by omega)
    have hlast := toNat_ofNat_of_lt (show min r.2.toNat 90 + 32 < 128 by omega)
    simp only [Option.some.injEq, exists_eq_left', GlobPiece.inRange, Bool.and_eq_true,
      decide_eq_true_eq, hfirst, hlast]
    omega
  · simp only [reduceCtorEq, false_and, exists_false, false_iff]
    omega

/-- Where letter case does not count, a class accepts the bytes that have the same small letter as
one that it names. -/
theorem any_inRange_lowered_iff {ranges : List (Char × Char)} {b : UInt8} :
    (ranges ++ ranges.filterMap lowerRange?).any (GlobPiece.inRange (lowerByte b)) = true ↔
      ∃ c, lowerByte c = lowerByte b ∧ ranges.any (GlobPiece.inRange c) = true := by
  simp only [List.any_append, Bool.or_eq_true, List.any_eq_true, List.mem_filterMap]
  constructor
  · rintro (⟨r, hr, hin⟩ | ⟨small, ⟨r, hr, hsmall⟩, hin⟩)
    · refine ⟨lowerByte b, UInt8.toNat_inj.mp ?_, r, hr, hin⟩
      rw [toNat_lowerByte (lowerByte b), toNat_lowerByte b]
      split_ifs <;> omega
    · obtain ⟨hsmallest, hlargest, hfirst, hlast⟩ := exists_lowerRange?_iff.mp ⟨small, hsmall, hin⟩
      have hcapital : (lowerByte b - 32).toNat = (lowerByte b).toNat - 32 :=
        UInt8.toNat_sub_of_le _ _ (UInt8.le_iff_toNat_le.mpr (le_trans (by decide) hsmallest))
      refine ⟨lowerByte b - 32, UInt8.toNat_inj.mp ?_, r, hr, ?_⟩
      · rw [toNat_lowerByte, hcapital, if_pos (by omega)]
        omega
      · simp only [GlobPiece.inRange, hcapital, Bool.and_eq_true, decide_eq_true_eq]
        omega
  · rintro ⟨c, hc, r, hr, hin⟩
    have hsame := congrArg UInt8.toNat hc
    rw [toNat_lowerByte c] at hsame
    simp only [GlobPiece.inRange, Bool.and_eq_true, decide_eq_true_eq] at hin
    split_ifs at hsame with hcapital
    · have hbounds : 97 ≤ (lowerByte b).toNat ∧ (lowerByte b).toNat ≤ 122 ∧
          r.1.toNat + 32 ≤ (lowerByte b).toNat ∧ (lowerByte b).toNat ≤ r.2.toNat + 32 := by
        omega
      obtain ⟨small, hsmall, hsmallIn⟩ := exists_lowerRange?_iff.mpr hbounds
      exact .inr ⟨small, ⟨r, hr, hsmall⟩, hsmallIn⟩
    · refine .inl ⟨r, hr, ?_⟩
      simp only [GlobPiece.inRange, Bool.and_eq_true, decide_eq_true_eq]
      omega

/-! ## Globs for any directory -/

/-- Every pattern starts with any directories. -/
def IsDeep (g : Glob) : Prop := ∀ pattern ∈ g.patterns, ∃ rest, pattern = .leading :: rest

/-- A pattern that starts with any directories stands for the same below a directory. -/
theorem Spells.inDirectory
    {rest : List GlobPiece}
    (h : Spells (.leading :: rest) s)
    (directory : List UInt8) :
    Spells (.leading :: rest) (directory ++ GlobPiece.slash :: s) := by
  cases h with
  | @cons _ _ front back hfront hback =>
      cases hfront with
      | leadingNone =>
          have hspells := Spells.cons (.leadingSome directory) hback
          simpa using hspells
      | leadingSome directories =>
          have hspells := Spells.cons
            (.leadingSome (directory ++ GlobPiece.slash :: directories)) hback
          simpa using hspells

theorem seen_append (g : Glob) (a b : String) : g.seen (a ++ b) = g.seen a ++ g.seen b := by
  simp only [seen, bytes, Text.toUTF8_append]
  split
  · rw [List.map_append]
  · rfl

theorem seen_slash (g : Glob) : g.seen "/" = [GlobPiece.slash] := by
  have hbytes : bytes "/" = [GlobPiece.slash] := by
    rw [bytes, Text.toList_eq_data]
    rfl
  rw [seen, hbytes]
  split <;> rfl

theorem IsDeep.isMatch_below
    {g : Glob}
    {path : String}
    (hg : g.IsDeep)
    (h : g.isMatch path = true)
    (directory : String) :
    g.isMatch (directory ++ "/" ++ path) = true := by
  obtain ⟨pattern, hmem, hspells⟩ := isMatch_iff.mp h
  obtain ⟨rest, rfl⟩ := hg pattern hmem
  refine isMatch_iff.mpr ⟨_, hmem, ?_⟩
  rw [seen_append, seen_append, seen_slash, List.append_assoc]
  exact hspells.inDirectory (g.seen directory)

section Reading

variable {text : List Char} {l m : Level} {ls : List Level} {tokens : List Token}

/-- The tokens start, in their order, with any directories; they are kept last first. -/
def StartsDeep (tokens : List Token) : Prop := tokens.getLast? = some (.piece .leading)

/-- The pattern outside all braces starts with any directories. -/
def IsDeepInside (levels : List Level) : Prop :=
  ∃ l, levels.getLast? = some l ∧ StartsDeep l.tokens

theorem StartsDeep.append (h : StartsDeep tokens) (more : List Token) :
    StartsDeep (more ++ tokens) := by
  rw [StartsDeep, List.getLast?_append, h]
  rfl

/-- What the pattern starts with is not taken for the name in front of two stars. -/
theorem StartsDeep.putStars (h : StartsDeep tokens) (isSuffix : Bool) :
    StartsDeep (putStars isSuffix tokens) := by
  match tokens, h with
  | [first], h =>
      obtain rfl : first = .piece .leading := by simpa [StartsDeep] using h
      exact h
  | first :: second :: rest, h =>
      have hrest : StartsDeep (second :: rest) := by simpa [StartsDeep] using h
      unfold Glob.putStars
      split
      · rename_i hcons
        cases hcons
        exact hrest.append [_]
      · rename_i hcons
        cases hcons
        exact hrest.append [_]
      · rename_i hcons
        cases hcons
        exact hrest.append [_]
      · rename_i hnil
        cases hnil

theorem StartsDeep.stars (h : StartsDeep tokens) (nested : Bool) (before : Option Char) :
    StartsDeep (stars nested before tokens text).1 := by
  have hne : tokens.isEmpty = false := by
    cases tokens with
    | nil => simp [StartsDeep] at h
    | cons => rfl
  unfold Glob.stars
  simp only [hne, Bool.false_eq_true, if_false]
  split
  · exact h.append [_]
  · split
    · exact h.append [_, _]
    · split
      · exact h.putStars true
      · split
        · exact h.putStars false
        · exact h.append [_, _]

theorem IsDeepInside.of_tokens
    (h : IsDeepInside (l :: ls))
    (htokens : StartsDeep l.tokens → StartsDeep tokens) :
    IsDeepInside ({ l with tokens := tokens } :: ls) := by
  obtain ⟨last, hlast, hdeep⟩ := h
  cases ls with
  | nil =>
      cases hlast
      exact ⟨_, rfl, htokens hdeep⟩
  | cons m ms => exact ⟨last, by simpa using hlast, hdeep⟩

/-- A level of braces does not matter. -/
theorem isDeepInside_cons_cons : IsDeepInside (l :: m :: ls) ↔ IsDeepInside (m :: ls) := by
  simp [IsDeepInside]

/-- Reading goes on from the pattern so far, so it keeps what the pattern starts with. -/
theorem head?_of_parse
    {levels : List Level}
    {before : Option Char}
    {open_ : Option Class}
    (h : parse text levels before open_ = some tokens)
    (hdeep : IsDeepInside levels) :
    tokens.head? = some (.piece .leading) := by
  fun_induction parse text levels before open_ with
  | case1 l before =>
      obtain ⟨last, hlast, hstart⟩ := hdeep
      cases hlast
      cases h
      rw [List.head?_reverse]
      exact hstart
  | case2 | case3 | case5 | case9 | case14 => cases h
  -- Inside a class, and where one is opened, no token is read.
  | case4 _ _ _ _ _ _ _ ih | case6 _ _ _ _ _ _ _ _ _ ih | case12 _ _ _ _ _ _ _ ih =>
      exact ih h hdeep
  -- A token is put behind those of the innermost level.
  | case7 _ _ _ _ _ _ _ _ _ ih | case11 _ _ _ _ _ _ ih =>
      exact ih h (hdeep.of_tokens fun hl => hl.append [_])
  | case8 _ _ _ _ _ _ ih | case17 _ _ _ _ _ _ _ _ _ _ _ _ ih =>
      exact ih h (hdeep.of_tokens fun hl => hl.append _)
  | case10 _ _ _ _ _ _ ih => exact ih h (hdeep.of_tokens fun hl => hl.stars _ _)
  -- A level of braces is opened, closed or goes on with its next branch.
  | case13 _ _ _ _ _ _ _ _ ih => exact ih h (isDeepInside_cons_cons.mpr hdeep)
  | case15 _ _ _ _ _ branches _ _ _ _ _ ih =>
      refine ih (by simpa [branches] using h) ?_
      exact (isDeepInside_cons_cons.mp hdeep).of_tokens fun hm => hm.append [_]
  | case16 _ _ _ ls _ _ _ _ _ _ _ hbranch ih =>
      refine ih (by simpa using h) ?_
      cases ls with
      | nil => simp at hbranch
      | cons m ms => exact isDeepInside_cons_cons.mpr (isDeepInside_cons_cons.mp hdeep)

/-- Braces are multiplied out behind what the pattern starts with. -/
theorem exists_rest_of_mem_expand
    {pattern : List GlobPiece}
    (h : tokens.head? = some (.piece .leading))
    (hpattern : pattern ∈ expand tokens) :
    ∃ rest, pattern = .leading :: rest := by
  cases tokens with
  | nil => cases h
  | cons first others =>
      cases h
      rw [expand, expandToken, List.mem_flatMap] at hpattern
      obtain ⟨front, hfront, hback⟩ := hpattern
      obtain rfl := List.mem_singleton.mp hfront
      obtain ⟨back, -, rfl⟩ := List.mem_map.mp hback
      exact ⟨back, rfl⟩

end Reading

/-- A pattern text that starts with two stars and a slash. -/
def IsDeepText (text : String) : Prop := text.toList.take 3 = ['*', '*', '/']

instance (text : String) : Decidable (IsDeepText text) :=
  inferInstanceAs (Decidable (text.toList.take 3 = ['*', '*', '/']))

/-- What such a text is read into starts with any directories. -/
theorem isDeep_of_ofText?
    {anyCase : Bool}
    {text : String}
    {g : Glob}
    (htext : IsDeepText text)
    (h : ofText? anyCase text = some g) :
    g.IsDeep := by
  obtain ⟨tokens, htokens, rfl⟩ := Option.map_eq_some_iff.mp h
  have hstars : text.toList = '*' :: '*' :: '/' :: text.toList.drop 3 := by
    rw [← List.take_append_drop 3 text.toList, htext]
    rfl
  have hfirst : parse (text.toList.drop 3) [⟨[], [.piece .leading]⟩] (some '/') none =
      some tokens := by
    rw [hstars, parse] at htokens
    simpa [stars] using htokens
  have hhead := head?_of_parse hfirst ⟨_, rfl, rfl⟩
  intro pattern hpattern
  obtain ⟨read, hread, rfl⟩ := List.mem_map.mp hpattern
  obtain ⟨rest, rfl⟩ := exists_rest_of_mem_expand hhead hread
  cases anyCase with
  | true => exact ⟨_, rfl⟩
  | false => exact ⟨rest, rfl⟩

end Glob
end EndpointPayload
