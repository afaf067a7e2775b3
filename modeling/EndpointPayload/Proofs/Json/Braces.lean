import EndpointPayload.Json.Record
import EndpointPayload.Proofs.Json.Spot
import Mathlib.Data.List.TakeWhile

/-!
# Braces of a record's text

Whatever is passed over as a value, and every text that is read as a record, closes each string and
each brace that it opens.

The main result is that an object is the only record at its end: of what stands behind its opening
brace, no part that reaches the end is a record.  Such a part has the closing brace of the object,
so it would have to open it itself.  If it starts inside a string of the object, reading it as a
record takes each string of the object for a gap between strings and each gap for a string, up to
the closing brace.
-/

namespace EndpointPayload
namespace Json

namespace Reader

section Values

variable {cs r rest : List Char} {c : Char}

theorem isPlain_of_isSpace (h : isSpace c = true) : IsPlain c := by
  simp only [isSpace, Bool.or_eq_true, decide_eq_true_eq] at h
  rcases h with ((rfl | rfl) | rfl) | rfl <;> exact ⟨by decide, by decide, by decide, by decide⟩

theorem isPlain_of_isDigit (h : c.isDigit = true) : IsPlain c := by
  refine ⟨?_, ?_, ?_, ?_⟩ <;> rintro rfl <;> exact absurd h (by decide)

theorem reads_skipSpace (cs : List Char) : Reads .between .between cs (skipSpace cs) :=
  Reads.dropWhile (fun _ => isPlain_of_isSpace) cs

theorem reads_of_isEmpty (h : (skipSpace cs).isEmpty = true) : Reads .between .between cs [] := by
  have hspace := reads_skipSpace cs
  rwa [List.isEmpty_iff.mp h] at hspace

theorem reads_skipDigits? (h : skipDigits? cs = some rest) : Reads .between .between cs rest := by
  simp only [skipDigits?] at h
  split at h
  · cases h
  · cases h
    exact Reads.dropWhile (fun _ => isPlain_of_isDigit) cs

theorem reads_skipExponent?
    (h : skipExponent? cs = some rest) :
    Reads .between .between cs rest := by
  unfold skipExponent? at h
  split at h
  · rename_i c r
    split at h
    · rename_i he
      have hc : IsPlain c := by
        simp only [Bool.or_eq_true, decide_eq_true_eq] at he
        rcases he with rfl | rfl <;> exact ⟨by decide, by decide, by decide, by decide⟩
      refine Reads.plain hc ?_
      split at h
      · exact (reads_skipDigits? h).cons fun _ => rfl
      · exact (reads_skipDigits? h).cons fun _ => rfl
      · exact reads_skipDigits? h
    · cases h
      exact Reads.refl _ _
  · cases h
    exact Reads.refl _ _

theorem reads_skipNumber?
    (h : skipNumber? cs = some rest) :
    Reads .between .between cs rest := by
  simp only [skipNumber?] at h
  -- what is in front of a point or an exponent is a zero alone or digits
  split at h
  · cases h
  · rename_i hwhole
    obtain ⟨after, hdigits, hexponent⟩ := Option.bind_eq_some_iff.mp h
    have hfraction := (reads_skipDigits? hdigits).trans (reads_skipExponent? hexponent)
    have hpoint : Reads .between .between ('.' :: _) rest := hfraction.cons fun _ => rfl
    split at hwhole
    · split at hwhole
      · cases hwhole
      · cases hwhole
        exact hpoint.cons fun _ => rfl
    · exact (reads_skipDigits? hwhole).trans hpoint
  · rename_i hwhole
    have hexponent := reads_skipExponent? h
    split at hwhole
    · split at hwhole
      · cases hwhole
      · cases hwhole
        exact hexponent.cons fun _ => rfl
    · exact (reads_skipDigits? hwhole).trans hexponent

end Values

section Strings

variable {cs r rest : List Char} {c : Char}

theorem reads_hexDigit?
    {n : Nat}
    (hc : hexDigit? c = some n)
    (h : Reads .inString .inString r rest) :
    Reads .inString .inString (c :: r) rest := by
  have hquote : hexDigit? '"' = none := by decide
  have hbackslash : hexDigit? '\\' = none := by decide
  refine Reads.inString ?_ ?_ h
  · rintro rfl
    rw [hquote] at hc
    cases hc
  · rintro rfl
    rw [hbackslash] at hc
    cases hc

theorem reads_hex4?
    {n : Nat}
    (h : hex4? cs = some (n, rest)) :
    Reads .inString .inString cs rest := by
  unfold hex4? at h
  split at h
  · simp only [Option.bind_eq_bind, Option.bind_eq_some_iff, Option.some.injEq,
      Prod.mk.injEq] at h
    obtain ⟨_, hw, _, hx, _, hy, _, hz, -, rfl⟩ := h
    exact reads_hexDigit? hw (reads_hexDigit? hx (reads_hexDigit? hy (reads_hexDigit? hz
      (Reads.refl _ _))))
  · cases h

theorem reads_skipString?
    {n : Nat}
    (h : skipString? n cs = some rest) :
    Reads .inString .between cs rest := by
  induction n generalizing cs with
  | zero => cases h
  | succ n ih =>
      unfold skipString? at h
      split at h
      · cases h
        exact (Reads.refl _ _).unquote
      · obtain ⟨⟨_, after⟩, hhex, h⟩ := Option.bind_eq_some_iff.mp h
        exact ((reads_hex4? hhex).trans (ih h)).escape (by decide)
      · split at h
        · rename_i hc
          exact (ih h).escape (List.mem_cons_of_mem _ (List.contains_iff_mem.mp hc))
        · cases h
      · rename_i c r hquote _ hescape
        split at h
        · cases h
        · -- A backslash at the end of the text leaves nothing to read.
          have hbackslash : c ≠ '\\' := by
            rintro rfl
            cases r with
            | nil => cases n <;> simp [skipString?] at h
            | cons d r => exact hescape d r rfl rfl
          exact (ih h).inString hquote hbackslash
      · cases h

theorem reads_escape?
    {d : Char}
    (h : escape? cs = some (d, rest)) :
    Reads .escaped .inString cs rest := by
  unfold escape? at h
  split at h
  case h_9 r =>
      simp only [Option.bind_eq_bind, Option.bind_eq_some_iff] at h
      obtain ⟨⟨n, after⟩, hhex, h⟩ := h
      refine Reads.cons (fun _ => rfl) ((reads_hex4? hhex).trans ?_)
      simp only at h
      split at h
      · split at h
        · simp only [Option.bind_eq_some_iff] at h
          obtain ⟨⟨m, last⟩, hlow, h⟩ := h
          simp only at h
          split at h
          · obtain ⟨-, rfl⟩ := Prod.mk.inj (Option.some.inj h)
            exact (reads_hex4? hlow).escape (by decide)
          · cases h
        · cases h
      · split at h
        · cases h
        · obtain ⟨-, rfl⟩ := Prod.mk.inj (Option.some.inj h)
          exact Reads.refl _ _
  case h_10 => cases h
  all_goals
    cases h
    exact (Reads.refl _ _).cons fun _ => rfl

theorem reads_string?
    {n : Nat}
    {acc : List Char}
    {text : String}
    (h : string? n acc cs = some (text, rest)) :
    Reads .inString .between cs rest := by
  induction n generalizing acc cs with
  | zero => cases h
  | succ n ih =>
      cases cs with
      | nil => cases h
      | cons c r =>
          simp only [string?] at h
          split at h
          · rename_i hquote
            cases h
            exact hquote ▸ (Reads.refl _ _).unquote
          · rename_i hquote
            split at h
            · rename_i hbackslash
              split at h
              · rename_i hescape
                exact hbackslash ▸ ((reads_escape? hescape).trans (ih h)).cons fun _ => rfl
              · cases h
            · rename_i hbackslash
              split at h
              · cases h
              · exact (ih h).inString hquote hbackslash

end Strings

/-- Every reading of a value, and of the items or fields behind an opening mark, closes what it
opens. -/
structure IsClosed (n : Nat) : Prop where
  value : ∀ cs rest, skip? n cs = some rest → Reads .between .between cs rest
  items : ∀ cs rest, skipItems? n cs = some rest → Reads .between .between cs rest
  fields : ∀ cs rest, skipFields? n cs = some rest → Reads .between .between cs ('\x7d' :: rest)

theorem isClosed_zero : IsClosed 0 := by
  constructor <;> intro cs rest h <;> simp [skip?, skipItems?, skipFields?] at h

variable {n : Nat}

theorem IsClosed.skip?_succ
    (ih : IsClosed n)
    {cs rest : List Char}
    (h : skip? (n + 1) cs = some rest) :
    Reads .between .between cs rest := by
  refine (reads_skipSpace cs).trans ?_
  simp only [skip?] at h
  split at h
  case h_1 r hword | h_2 r hword | h_3 r hword =>
      cases h
      rw [hword]
      repeat refine Reads.cons (fun _ => rfl) ?_
      exact Reads.refl _ _
  case h_4 r hquote =>
      rw [hquote]
      exact (reads_skipString? h).quote
  case h_5 r hminus =>
      rw [hminus]
      exact (reads_skipNumber? h).cons fun _ => rfl
  case h_6 r hopen =>
      rw [hopen]
      refine Reads.cons (fun _ => rfl) ((reads_skipSpace r).trans ?_)
      split at h
      · rename_i hclose
        cases h
        rw [hclose]
        exact (Reads.refl _ _).cons fun _ => rfl
      · exact ih.items _ _ h
  case h_7 r hopen =>
      rw [hopen]
      refine Reads.braces ((reads_skipSpace r).trans ?_)
      split at h
      · rename_i hclose
        cases h
        rw [hclose]
        exact Reads.refl _ _
      · exact ih.fields _ _ h
  case h_8 => exact reads_skipNumber? h

theorem IsClosed.spaced
    (ih : IsClosed n)
    {cs rest : List Char}
    (h : (skip? n cs).map skipSpace = some rest) :
    Reads .between .between cs rest := by
  obtain ⟨after, hvalue, rfl⟩ := Option.map_eq_some_iff.mp h
  exact (ih.value _ _ hvalue).trans (reads_skipSpace after)

theorem IsClosed.skipItems?_succ
    (ih : IsClosed n)
    {cs rest : List Char}
    (h : skipItems? (n + 1) cs = some rest) :
    Reads .between .between cs rest := by
  simp only [skipItems?] at h
  split at h
  · rename_i hcomma
    exact (ih.spaced hcomma).trans ((ih.items _ _ h).cons fun _ => rfl)
  · rename_i hclose
    cases h
    exact (ih.spaced hclose).trans ((Reads.refl _ _).cons fun _ => rfl)
  · cases h

theorem IsClosed.skipFields?_succ
    (ih : IsClosed n)
    {cs rest : List Char}
    (h : skipFields? (n + 1) cs = some rest) :
    Reads .between .between cs ('\x7d' :: rest) := by
  refine (reads_skipSpace cs).trans ?_
  simp only [skipFields?] at h
  split at h
  · rename_i r hquote
    rw [hquote]
    split at h
    · rename_i hcolon
      obtain ⟨after, hkey, hspace⟩ := Option.map_eq_some_iff.mp hcolon
      refine Reads.quote ((reads_skipString? hkey).trans ((reads_skipSpace after).trans ?_))
      rw [hspace]
      refine Reads.cons (fun _ => rfl) ?_
      split at h
      · rename_i hcomma
        exact (ih.spaced hcomma).trans ((ih.fields _ _ h).cons fun _ => rfl)
      · rename_i hclose
        cases h
        exact ih.spaced hclose
      · cases h
    · cases h
  · cases h

theorem isClosed : ∀ n, IsClosed n
  | 0 => isClosed_zero
  | n + 1 => ⟨fun _ _ => (isClosed n).skip?_succ, fun _ _ => (isClosed n).skipItems?_succ,
      fun _ _ => (isClosed n).skipFields?_succ⟩

section Records

variable {cs rest v : List Char}

theorem reads_valueText?
    (h : valueText? cs = some (v, rest)) :
    Reads .between .between cs rest := by
  obtain ⟨after, hskip, hpair⟩ := Option.map_eq_some_iff.mp h
  obtain ⟨-, rfl⟩ := Prod.mk.inj hpair
  exact (isClosed _).value _ _ hskip

theorem reads_itemTexts?
    {n : Nat}
    {items : List (List Char)}
    (h : itemTexts? n cs = some items) :
    Reads .between .between cs [] := by
  induction n generalizing cs items with
  | zero => cases h
  | succ n ih =>
      simp only [itemTexts?] at h
      split at h
      · cases h
      · rename_i hvalue
        refine (reads_valueText? hvalue).trans ((reads_skipSpace _).trans ?_)
        split at h
        · rename_i hcomma
          obtain ⟨others, hothers, -⟩ := Option.map_eq_some_iff.mp h
          rw [hcomma]
          exact (ih hothers).cons fun _ => rfl
        · rename_i hclose
          rw [hclose]
          split at h
          · rename_i hend
            exact (reads_of_isEmpty hend).cons fun _ => rfl
          · cases h
        · cases h

/-- From a key on an object goes to its closing brace, behind which there are blanks only. -/
theorem reads_fieldTexts?
    {n : Nat}
    {fields : List (String × List Char)}
    (h : fieldTexts? n cs = some fields) :
    ∃ blanks, Reads .between .between cs ('\x7d' :: blanks) ∧ (skipSpace blanks).isEmpty := by
  induction n generalizing cs fields with
  | zero => cases h
  | succ n ih =>
      simp only [fieldTexts?] at h
      split at h
      · rename_i r hquote
        split at h
        · cases h
        · rename_i hkey
          split at h
          · rename_i hcolon
            split at h
            · cases h
            · rename_i item after hvalue
              have hfield : Reads .between .between cs (skipSpace after) := by
                refine (reads_skipSpace cs).trans ?_
                rw [hquote]
                refine Reads.quote ((reads_string? hkey).trans ((reads_skipSpace _).trans ?_))
                rw [hcolon]
                exact ((reads_valueText? hvalue).trans (reads_skipSpace _)).cons fun _ => rfl
              split at h
              · rename_i hcomma
                obtain ⟨others, hothers, -⟩ := Option.map_eq_some_iff.mp h
                obtain ⟨blanks, hread, hblanks⟩ := ih hothers
                rw [hcomma] at hfield
                exact ⟨blanks, hfield.trans (hread.cons fun _ => rfl), hblanks⟩
              · rename_i hclose
                split at h
                · rename_i hend
                  rw [hclose] at hfield
                  exact ⟨_, hfield, hend⟩
                · cases h
              · cases h
          · cases h
      · cases h

end Records

end Reader

open Reader

section Records

variable {cs rest : List Char} {c : Char}

theorem skipSpace_of_head (h : isSpace c = false) : skipSpace (c :: rest) = c :: rest := by
  simp [skipSpace, h]

theorem object?_eq_none_of_head
    (hspace : isSpace c = false)
    (hc : c ≠ '\x7b') :
    object? (c :: rest) = none := by
  rw [object?, skipSpace_of_head hspace]
  split
  · rename_i heq
    exact absurd (List.cons.inj heq).1 hc
  · rfl

theorem array?_eq_none_of_head
    (hspace : isSpace c = false)
    (hc : c ≠ '[') :
    array? (c :: rest) = none := by
  rw [array?, skipSpace_of_head hspace]
  split
  · rename_i heq
    exact absurd (List.cons.inj heq).1 hc
  · rfl

/-- The text of an object: between its braces every string and every brace is closed, and behind
them there are blanks only. -/
theorem exists_body_of_object?
    {fields : List (String × List Char)}
    (h : object? ('\x7b' :: rest) = some fields) :
    ∃ body blanks, rest = body ++ '\x7d' :: blanks ∧ (skipSpace blanks).isEmpty = true ∧
      ∀ d, Spot.run? ⟨.between, d⟩ body = some ⟨.between, d⟩ := by
  have hfields : ∃ blanks, Reads .between .between rest ('\x7d' :: blanks) ∧
      (skipSpace blanks).isEmpty = true := by
    rw [object?, skipSpace_of_head (by decide)] at h
    simp only at h
    split at h
    · rename_i after hclose
      split at h
      · rename_i hend
        exact ⟨after, hclose ▸ reads_skipSpace rest, hend⟩
      · cases h
    · obtain ⟨blanks, hread, hblanks⟩ := reads_fieldTexts? h
      exact ⟨blanks, (reads_skipSpace rest).trans hread, hblanks⟩
  obtain ⟨blanks, ⟨body, hrest, hbody⟩, hblanks⟩ := hfields
  exact ⟨body, blanks, hrest, hblanks, hbody⟩

theorem reads_array?
    {items : List (List Char)}
    (h : array? cs = some items) :
    Reads .between .between cs [] := by
  refine (reads_skipSpace cs).trans ?_
  unfold array? at h
  split at h
  · rename_i r hopen
    rw [hopen]
    refine Reads.cons (fun _ => rfl) ((reads_skipSpace r).trans ?_)
    split at h
    · rename_i hclose
      split at h
      · rename_i hend
        rw [hclose]
        exact (reads_of_isEmpty hend).cons fun _ => rfl
      · cases h
    · exact reads_itemTexts? h
  · cases h

/-- A record starts with a brace or a bracket and closes what it opens. -/
theorem reads_of_record?
    {keys : List String}
    {texts : List (Option (List Char))}
    (h : record? keys (c :: rest) = some texts)
    (hspace : isSpace c = false) :
    (c = '\x7b' ∨ c = '[') ∧ Reads .between .between (c :: rest) [] := by
  by_cases hbrace : c = '\x7b'
  · subst hbrace
    refine ⟨.inl rfl, ?_⟩
    simp only [record?, array?_eq_none_of_head hspace (by decide : '\x7b' ≠ '[')] at h
    split at h
    · rename_i fields hfields
      obtain ⟨body, blanks, rfl, hblanks, hbody⟩ := exists_body_of_object? hfields
      exact (Reads.braces ⟨body, rfl, hbody⟩).trans (reads_of_isEmpty hblanks)
    · cases h
  · simp only [record?, object?_eq_none_of_head hspace hbrace] at h
    split at h
    · rename_i items hitems
      refine ⟨.inr ?_, reads_array? hitems⟩
      by_contra hbracket
      rw [array?_eq_none_of_head hspace hbracket] at hitems
      cases hitems
    · cases h

/-- What leads to the end of an object's body is, with the closing brace, no closed text. -/
theorem not_reads_of_run?
    {u : Spot}
    {part blanks : List Char}
    (hmode : u.mode ≠ .escaped)
    (hpart : u.run? part = some ⟨.between, 0⟩)
    (hblanks : Reads .between .between blanks []) :
    ¬ Reads .between .between (part ++ '\x7d' :: blanks) [] := by
  intro hclosed
  obtain ⟨m, d⟩ := u
  have hrun := hclosed.run? d
  rw [Spot.run?_append, Option.bind_eq_some_iff] at hrun
  obtain ⟨v, hpart', hlast⟩ := hrun
  cases m with
  | between =>
      -- Both runs are one, and end the part where no brace is open.
      rw [hpart] at hpart'
      cases hpart'
      exact absurd hlast (by simp [Spot.run?_cons, Spot.step?])
  | inString =>
      -- The strings of one run are the gaps of the other, also behind the body.
      have hclose : Spot.run? ⟨.between, 1⟩ ('\x7d' :: blanks) = some ⟨.between, 0⟩ :=
        (Spot.run?_cons _ _ _).trans (hblanks.run? 0)
      have hstart : Spot.AreOpposite ⟨.inString, d⟩ ⟨.between, d⟩ := .inl ⟨rfl, rfl⟩
      rcases hstart.run hpart hpart' with ⟨hv, -⟩ | ⟨-, hv⟩
      · cases hv
      · have hend : Spot.AreOpposite ⟨.between, 1⟩ v := .inr ⟨rfl, hv⟩
        rcases hend.run hclose hlast with ⟨hm, -⟩ | ⟨-, hm⟩ <;> cases hm
  | escaped => exact hmode rfl

/-- Behind the opening brace of an object no record starts that reaches its end. -/
theorem record?_eq_none_of_object?
    {keys : List String}
    {front : List Char}
    {fields : List (String × List Char)}
    (h : object? ('\x7b' :: (front ++ c :: rest)) = some fields)
    (hspace : isSpace c = false) :
    record? keys (c :: rest) = none := by
  by_contra hrecord
  obtain ⟨texts, htexts⟩ := Option.ne_none_iff_exists'.mp hrecord
  obtain ⟨hc, hclosed⟩ := reads_of_record? htexts hspace
  obtain ⟨body, blanks, hwhole, hblanks, hbody⟩ := exists_body_of_object? h
  rcases List.append_eq_append_iff.mp hwhole with ⟨part, rfl, htext⟩ | ⟨part, -, hend⟩
  · -- The record starts in the body of the object.
    have hobject := hbody 0
    rw [Spot.run?_append, Option.bind_eq_some_iff] at hobject
    obtain ⟨u, -, hpart⟩ := hobject
    rw [htext] at hclosed
    refine not_reads_of_run? ?_ hpart (reads_of_isEmpty hblanks) hclosed
    -- Neither a brace nor a bracket can be escaped.
    intro hescaped
    obtain ⟨m, d⟩ := u
    obtain rfl : m = .escaped := hescaped
    cases part with
    | nil => cases hpart
    | cons b part =>
        obtain rfl : c = b := (List.cons.inj htext).1
        rcases hc with rfl | rfl <;> cases hpart
  · -- It starts at the closing brace, or in the blanks behind it.
    cases part with
    | nil =>
        obtain rfl : '\x7d' = c := (List.cons.inj hend).1
        rcases hc with hc | hc <;> exact absurd hc (by decide)
    | cons b part =>
        have hmem : c ∈ blanks := by
          rw [(List.cons.inj hend).2]
          exact List.mem_append_right part List.mem_cons_self
        have hblank := List.dropWhile_eq_nil_iff.mp (List.isEmpty_iff.mp hblanks) c hmem
        rw [hblank] at hspace
        cases hspace

end Records

end Json
end EndpointPayload
