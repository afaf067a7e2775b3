import EndpointPayload.Proofs.Text.Trim
import EndpointPayload.Proofs.Time.Written

/-!
# Reading dates

Every part of the reader takes one part of the grammar from the front of a text: what it takes is
such a part, and such a part is taken in front of whatever may follow it.  So a text is read if it
writes an instant, and the timestamp is that instant to the millisecond.
-/

namespace EndpointPayload
namespace Timestamp

open Decimal

section Readers

/-- An offset behind its sign. -/
def shift? (negative : Bool) (cs : List Char) : Option Int := do
  let (hours, r) ← twoDigits? cs
  let r ← expect? ':' r
  let (minutes, r) ← twoDigits? r
  if !r.isEmpty || 59 < minutes || 23 < hours then none
  else
    let total : Int := hours * 60 + minutes
    some (if negative then -total else total)

theorem offset?_cons (sign c : Char) (r : List Char) :
    offset? (sign :: c :: r) =
      if sign = '+' then shift? false (c :: r)
      else if sign = '-' || sign = '\u2212' then shift? true (c :: r)
      else none := by
  rw [offset?.eq_def]
  dsimp only
  split
  · rfl
  · split
    · rfl
    · rfl

/-- A date with four digits for the year, and what follows it. -/
def fullDate? (cs : List Char) : Option (Date × List Char) := do
  let (century, r) ← twoDigits? cs
  let (yearOfCentury, r) ← twoDigits? r
  let r ← expect? '-' r
  let (month, r) ← twoDigits? r
  let r ← expect? '-' r
  let (day, r) ← twoDigits? r
  some (⟨century * 100 + yearOfCentury, month, day⟩, r)

/-- The mark between a date and a time. -/
def separator? (cs : List Char) : Option (List Char) :=
  match cs with
  | c :: r => if c = 'T' || c = 't' || c = ' ' then some r else none
  | [] => none

/-- A time of some day with its offset, and nothing after it. -/
def clock? (date : Date) (cs : List Char) : Option Timestamp := do
  let (hour, r) ← twoDigits? cs
  let r ← expect? ':' r
  let (minute, r) ← twoDigits? r
  let r ← expect? ':' r
  let (second, r) ← twoDigits? r
  let (millisecond, r) ← fraction? r
  let offset ← offset? r
  if !date.isValid || 23 < hour || 59 < minute || 60 < second then none
  else
    let total := date.toDays * 1440 + hour * 60 + minute - offset
    some ⟨total / 1440, (total % 1440).toNat, second, millisecond⟩

theorem ofDateTime?_eq (s : String) :
    ofDateTime? s = (fullDate? s.toList).bind fun p => (separator? p.2).bind (clock? p.1) := by
  refine (Option.bind_congr fun p _ => ?_).trans (Option.bind_assoc _ _ _).symm
  refine (Option.bind_congr fun p _ => ?_).trans (Option.bind_assoc _ _ _).symm
  refine (Option.bind_congr fun r _ => ?_).trans (Option.bind_assoc _ _ _).symm
  refine (Option.bind_congr fun p _ => ?_).trans (Option.bind_assoc _ _ _).symm
  refine (Option.bind_congr fun r _ => ?_).trans (Option.bind_assoc _ _ _).symm
  refine (Option.bind_congr fun p _ => ?_).trans (Option.bind_assoc _ _ _).symm
  obtain ⟨day, rest⟩ := p
  cases rest with
  | nil => rfl
  | cons c rest =>
      simp only [separator?, Option.bind_some]
      split
      · rfl
      · rfl

end Readers

section Parts

variable {cs r digits fraction zone : List Char} {c : Char} {n width : Nat}
variable {offset : Int} {part : ℚ} {date : Date} {t : Timestamp}

theorem twoDigits?_append
    (h : IsNumeral 2 digits n)
    (rest : List Char) :
    twoDigits? (digits ++ rest) = some (n, rest) := by
  obtain ⟨hlength, hdigits, rfl⟩ := h
  obtain ⟨a, b, rfl⟩ := List.length_eq_two.mp hlength
  simp [twoDigits?, hdigits a, hdigits b]

theorem exists_of_twoDigits? (h : twoDigits? cs = some (n, r)) :
    ∃ digits, cs = digits ++ r ∧ IsNumeral 2 digits n := by
  unfold twoDigits? at h
  split at h
  · rename_i a b rest
    split at h
    · rename_i hdigits
      cases h
      rw [Bool.and_eq_true] at hdigits
      exact ⟨[a, b], rfl, rfl, by simpa using hdigits, rfl⟩
    · cases h
  · cases h

theorem expect?_cons (c : Char) (rest : List Char) : expect? c (c :: rest) = some rest := by
  simp [expect?]

theorem eq_of_expect? (h : expect? c cs = some r) : cs = c :: r := by
  unfold expect? at h
  split at h
  · split at h
    · rename_i hc
      cases h
      rw [hc]
    · cases h
  · cases h

/-- An offset starts with no digit and no point. -/
theorem exists_cons_of_isOffset (h : IsOffset zone offset) :
    ∃ c rest, zone = c :: rest ∧ c.isDigit = false ∧ c ≠ '.' := by
  cases h with
  | universal hmark => rcases hmark with rfl | rfl <;> exact ⟨_, _, rfl, by decide, by decide⟩
  | ahead => exact ⟨_, _, rfl, by decide, by decide⟩
  | behind hsign => rcases hsign with rfl | rfl <;> exact ⟨_, _, rfl, by decide, by decide⟩

theorem fraction?_append
    (h : IsFraction fraction part)
    (hzone : IsOffset zone offset) :
    fraction? (fraction ++ zone) = some (wholeMilliseconds part, zone) := by
  obtain ⟨c, rest, rfl, hc, hpoint⟩ := exists_cons_of_isOffset hzone
  have hhead : ∀ d ∈ (c :: rest).head?, d.isDigit = false := by simpa using hc
  cases h with
  | whole => simp [fraction?, wholeMilliseconds, hpoint]
  | @digits width n digits hwidth hdigits =>
      have hne : digits ≠ [] := by
        obtain ⟨d, others, rfl, -⟩ := hdigits.exists_cons hwidth
        exact List.cons_ne_nil d others
      rw [wholeMilliseconds_digits hdigits]
      simp [fraction?, hdigits.takeWhile_append hhead, hdigits.dropWhile_append hhead, hne]

theorem exists_of_fraction? (h : fraction? cs = some (n, r)) :
    ∃ fraction part, cs = fraction ++ r ∧ IsFraction fraction part ∧
      wholeMilliseconds part = n := by
  unfold fraction? at h
  split at h
  · rename_i rest
    dsimp only at h
    split at h
    · cases h
    · rename_i hne
      cases h
      have hdigits : IsNumeral (rest.takeWhile Char.isDigit).length (rest.takeWhile Char.isDigit)
          (ofDigits (rest.takeWhile Char.isDigit)) :=
        ⟨rfl, fun d hd => List.mem_takeWhile_imp hd, rfl⟩
      have hwidth : 0 < (rest.takeWhile Char.isDigit).length := by
        rw [List.length_pos_iff]
        simpa using hne
      refine ⟨_, _, ?_, .digits hwidth hdigits, wholeMilliseconds_digits hdigits⟩
      rw [List.cons_append, List.takeWhile_append_dropWhile]
  · cases h
    exact ⟨[], 0, rfl, .whole, by simp [wholeMilliseconds]⟩

theorem shift?_append
    {hours minutes : List Char}
    {h m : Nat}
    (negative : Bool)
    (hhours : IsNumeral 2 hours h)
    (hminutes : IsNumeral 2 minutes m)
    (hh : h ≤ 23)
    (hm : m ≤ 59) :
    shift? negative (hours ++ ':' :: minutes) =
      some (if negative then -(h * 60 + m : Int) else h * 60 + m) := by
  have hminute : twoDigits? minutes = some (m, []) := by
    simpa using twoDigits?_append hminutes []
  simp [shift?, twoDigits?_append hhours, expect?_cons, hminute, Nat.not_lt.mpr hh,
    Nat.not_lt.mpr hm]

theorem exists_of_shift?
    {negative : Bool}
    (hshift : shift? negative cs = some offset) :
    ∃ hours minutes hour minute, cs = hours ++ ':' :: minutes ∧ IsNumeral 2 hours hour ∧
      IsNumeral 2 minutes minute ∧ hour ≤ 23 ∧ minute ≤ 59 ∧
      offset = if negative then -(hour * 60 + minute : Int) else hour * 60 + minute := by
  obtain ⟨⟨hour, _⟩, hhour, hrest⟩ := Option.bind_eq_some_iff.mp hshift
  obtain ⟨_, hcolon, hrest'⟩ := Option.bind_eq_some_iff.mp hrest
  obtain ⟨⟨minute, r⟩, hminute, h⟩ := Option.bind_eq_some_iff.mp hrest'
  obtain ⟨hours, rfl, hhours⟩ := exists_of_twoDigits? hhour
  obtain rfl := eq_of_expect? hcolon
  obtain ⟨minutes, rfl, hminutes⟩ := exists_of_twoDigits? hminute
  dsimp only at h
  split at h
  · cases h
  · rename_i hbounds
    simp only [Bool.or_eq_true, Bool.not_eq_true', decide_eq_true_eq, not_or, Bool.not_eq_false,
      List.isEmpty_iff, Nat.not_lt] at hbounds
    obtain ⟨⟨rfl, hm⟩, hh⟩ := hbounds
    rw [List.append_nil]
    exact ⟨hours, minutes, hour, minute, rfl, hhours, hminutes, hh, hm, (Option.some.inj h).symm⟩

theorem offset?_of_isOffset (h : IsOffset zone offset) : offset? zone = some offset := by
  cases h with
  | universal hmark => rcases hmark with rfl | rfl <;> rfl
  | ahead hhours hminutes hh hm =>
      have hshift := shift?_append false hhours hminutes hh hm
      obtain ⟨c, rest, rfl, -⟩ := hhours.exists_cons (by decide)
      rw [List.cons_append] at hshift ⊢
      rw [offset?_cons, if_pos rfl, hshift]
      rfl
  | @behind sign _ _ _ _ hsign hhours hminutes hh hm =>
      have hshift := shift?_append true hhours hminutes hh hm
      have hplus : sign ≠ '+' := by rcases hsign with rfl | rfl <;> decide
      obtain ⟨c, rest, rfl, -⟩ := hhours.exists_cons (by decide)
      rw [List.cons_append] at hshift ⊢
      rw [offset?_cons, if_neg hplus, if_pos (by simpa using hsign), hshift]
      rfl

theorem isOffset_of_offset? (h : offset? zone = some offset) : IsOffset zone offset := by
  match zone, h with
  | [], h => cases h
  | [mark], h =>
      rw [offset?] at h
      split at h
      · rename_i hmark
        cases h
        exact .universal (by simpa using hmark)
      · cases h
  | sign :: c :: rest, h =>
      rw [offset?_cons] at h
      split at h
      · rename_i hplus
        obtain ⟨_, _, _, _, htext, hhours, hminutes, hh, hm, rfl⟩ := exists_of_shift? h
        rw [hplus, htext]
        exact .ahead hhours hminutes hh hm
      · split at h
        · rename_i hminus
          obtain ⟨_, _, _, _, htext, hhours, hminutes, hh, hm, rfl⟩ := exists_of_shift? h
          rw [htext]
          exact .behind (by simpa using hminus) hhours hminutes hh hm
        · cases h

theorem fullDate?_append
    (h : IsFullDate cs date)
    (rest : List Char) :
    fullDate? (cs ++ rest) = some (date, rest) := by
  obtain ⟨hyear, hmonth, hday⟩ := h
  obtain ⟨front, back, c, y, rfl, hcentury, hback, rfl⟩ :=
    @IsNumeral.exists_append 2 2 _ _ hyear
  have hvalue : (c : Int) * 100 + y = (10 ^ 2 * c + y : Nat) := by push_cast; ring
  simp only [List.append_assoc, List.cons_append]
  simp [fullDate?, twoDigits?_append hcentury, twoDigits?_append hback, expect?_cons,
    twoDigits?_append hmonth, twoDigits?_append hday, hvalue]

theorem exists_of_fullDate? (h : fullDate? cs = some (date, r)) :
    ∃ front, cs = front ++ r ∧ IsFullDate front date := by
  obtain ⟨⟨c, _⟩, hcentury, h⟩ := Option.bind_eq_some_iff.mp h
  obtain ⟨⟨y, _⟩, hyear, h⟩ := Option.bind_eq_some_iff.mp h
  obtain ⟨_, hdash, h⟩ := Option.bind_eq_some_iff.mp h
  obtain ⟨⟨mo, _⟩, hmonth, h⟩ := Option.bind_eq_some_iff.mp h
  obtain ⟨_, hdash', h⟩ := Option.bind_eq_some_iff.mp h
  obtain ⟨⟨d, _⟩, hday, h⟩ := Option.bind_eq_some_iff.mp h
  cases h
  obtain ⟨front, rfl, hfront⟩ := exists_of_twoDigits? hcentury
  obtain ⟨back, rfl, hback⟩ := exists_of_twoDigits? hyear
  obtain rfl := eq_of_expect? hdash
  obtain ⟨month, rfl, hmonths⟩ := exists_of_twoDigits? hmonth
  obtain rfl := eq_of_expect? hdash'
  obtain ⟨day, rfl, hdays⟩ := exists_of_twoDigits? hday
  have hvalue : (c : Int) * 100 + y = (10 ^ 2 * c + y : Nat) := by push_cast; ring
  refine ⟨(front ++ back) ++ '-' :: (month ++ '-' :: day), by simp, ?_⟩
  rw [hvalue]
  exact ⟨hfront.append hback, hmonths, hdays⟩

theorem separator?_cons
    (h : c = 'T' ∨ c = 't' ∨ c = ' ')
    (rest : List Char) :
    separator? (c :: rest) = some rest := by
  simp [separator?, or_assoc, h]

theorem exists_of_separator? (h : separator? cs = some r) :
    ∃ c, (c = 'T' ∨ c = 't' ∨ c = ' ') ∧ cs = c :: r := by
  unfold separator? at h
  split at h
  · split at h
    · rename_i hmark
      cases h
      exact ⟨_, by simpa [or_assoc] using hmark, rfl⟩
    · cases h
  · cases h

/-- The timestamp of an instant of some day. -/
theorem timestamp_onDay (date : Date) (i : Instant) :
    (i.onDay date).timestamp =
      ⟨(date.toDays * 1440 + i.minute) / 1440, ((date.toDays * 1440 + i.minute) % 1440).toNat,
        i.second, wholeMilliseconds i.part⟩ :=
  rfl

theorem clock?_of_isClock
    {time : Instant}
    (h : IsClock cs time)
    (hvalid : date.isValid = true) :
    clock? date cs = some (time.onDay date).timestamp := by
  cases h with
  | @mk _ _ _ _ _ h m s part offset hhour hminute hsecond hfraction hzone hh hm hs =>
      have hminutes : date.toDays * 1440 + (h * 60 + m - offset) =
          date.toDays * 1440 + h * 60 + m - offset := by ring
      simp [clock?, twoDigits?_append hhour, expect?_cons, twoDigits?_append hminute,
        twoDigits?_append hsecond, fraction?_append hfraction hzone, offset?_of_isOffset hzone,
        hvalid, Nat.not_lt.mpr hh, Nat.not_lt.mpr hm, Nat.not_lt.mpr hs, timestamp_onDay, hminutes]

theorem exists_of_clock? (h : clock? date cs = some t) :
    ∃ time, IsClock cs time ∧ date.isValid = true ∧ (time.onDay date).timestamp = t := by
  obtain ⟨⟨hour, _⟩, hhour, h⟩ := Option.bind_eq_some_iff.mp h
  obtain ⟨_, hcolon, h⟩ := Option.bind_eq_some_iff.mp h
  obtain ⟨⟨minute, _⟩, hminute, h⟩ := Option.bind_eq_some_iff.mp h
  obtain ⟨_, hcolon', h⟩ := Option.bind_eq_some_iff.mp h
  obtain ⟨⟨second, _⟩, hsecond, h⟩ := Option.bind_eq_some_iff.mp h
  obtain ⟨⟨milliseconds, _⟩, hfraction, h⟩ := Option.bind_eq_some_iff.mp h
  obtain ⟨offset, hoffset, h⟩ := Option.bind_eq_some_iff.mp h
  obtain ⟨_, rfl, hhours⟩ := exists_of_twoDigits? hhour
  obtain rfl := eq_of_expect? hcolon
  obtain ⟨_, rfl, hminutes⟩ := exists_of_twoDigits? hminute
  obtain rfl := eq_of_expect? hcolon'
  obtain ⟨_, rfl, hseconds⟩ := exists_of_twoDigits? hsecond
  obtain ⟨_, part, rfl, hpart, rfl⟩ := exists_of_fraction? hfraction
  dsimp only at h
  split at h
  · cases h
  · rename_i hbounds
    simp only [Bool.or_eq_true, Bool.not_eq_true', decide_eq_true_eq, not_or, Bool.not_eq_false,
      Nat.not_lt] at hbounds
    obtain ⟨⟨⟨hvalid, hh⟩, hm⟩, hs⟩ := hbounds
    refine ⟨_, ⟨hhours, hminutes, hseconds, hpart, isOffset_of_offset? hoffset, hh, hm, hs⟩,
      hvalid, ?_⟩
    have htotal : date.toDays * 1440 + (hour * 60 + minute - offset) =
        date.toDays * 1440 + hour * 60 + minute - offset := by ring
    rw [timestamp_onDay, htotal]
    exact Option.some.inj h

end Parts

/-- What is read as a date with a time. -/
theorem ofDateTime?_eq_some_iff {s : String} {t : Timestamp} :
    ofDateTime? s = some t ↔
      ∃ dateText clockText separator date time,
        s.toList = dateText ++ separator :: clockText ∧ IsFullDate dateText date ∧
        date.isValid = true ∧ (separator = 'T' ∨ separator = 't' ∨ separator = ' ') ∧
        IsClock clockText time ∧ (time.onDay date).timestamp = t := by
  rw [ofDateTime?_eq]
  constructor
  · intro h
    obtain ⟨⟨date, r⟩, hdate, h⟩ := Option.bind_eq_some_iff.mp h
    obtain ⟨clockText, hseparator, hclock⟩ := Option.bind_eq_some_iff.mp h
    obtain ⟨dateText, htext, hfull⟩ := exists_of_fullDate? hdate
    obtain ⟨separator, hmark, rfl⟩ := exists_of_separator? hseparator
    obtain ⟨time, htime, hvalid, ht⟩ := exists_of_clock? hclock
    exact ⟨dateText, clockText, separator, date, time, htext, hfull, hvalid, hmark, htime, ht⟩
  · rintro ⟨dateText, clockText, separator, date, time, htext, hdate, hvalid, hmark, htime, rfl⟩
    rw [htext, fullDate?_append hdate, Option.bind_some, separator?_cons hmark, Option.bind_some]
    exact clock?_of_isClock htime hvalid

section PlainDates

variable {cs r blanks digits year rest : List Char} {y : Int} {n width most : Nat}

theorem not_isBlank_of_isDigit {c : Char} (h : c.isDigit = true) : Text.isBlank c = false := by
  have hbounds := Char.isDigit_iff_toNat.mp h
  have hlow : 48 ≤ c.toNat := hbounds.1
  have hhigh : c.toNat ≤ 57 := hbounds.2
  simp [Text.isBlank, Text.blankRanges]
  omega

theorem upToDigits?_append
    (h : IsNumeral width digits n)
    (hwidth : 0 < width)
    (hmost : width ≤ most)
    (hrest : ∀ c ∈ rest.head?, c.isDigit = false) :
    upToDigits? most (digits ++ rest) = some (n, rest) := by
  obtain ⟨c, others, hcons, -⟩ := h.exists_cons hwidth
  have hlength : digits.length ≤ most := h.length_eq.trans_le hmost
  have htake : digits.take most = digits := List.take_of_length_le hlength
  have hne : digits.isEmpty = false := by rw [hcons]; rfl
  simp [upToDigits?, h.takeWhile_append hrest, htake, hne, h.value]

/-- All the digits at the front of a text are read where their number is not bounded. -/
theorem upToDigits?_length_append
    (h : IsNumeral width digits n)
    (hwidth : 0 < width)
    (hrest : ∀ c ∈ rest.head?, c.isDigit = false) :
    upToDigits? (digits ++ rest).length (digits ++ rest) = some (n, rest) := by
  have hlength : width ≤ (digits ++ rest).length := by
    rw [List.length_append, h.length_eq]
    exact Nat.le_add_right _ _
  exact upToDigits?_append h hwidth hlength hrest

theorem exists_of_upToDigits? (h : upToDigits? most cs = some (n, r)) :
    ∃ digits width, cs = digits ++ r ∧ 0 < width ∧ width ≤ most ∧ IsNumeral width digits n := by
  unfold upToDigits? at h
  dsimp only at h
  split at h
  · cases h
  · rename_i hne
    cases h
    have hprefix : (cs.takeWhile Char.isDigit).take most <+: cs :=
      (List.take_prefix most _).trans (List.takeWhile_prefix _)
    refine ⟨(cs.takeWhile Char.isDigit).take most, _, ?_, ?_, List.length_take_le _ _, rfl, ?_, rfl⟩
    · exact (List.prefix_iff_eq_append.mp hprefix).symm
    · rw [List.length_pos_iff]
      simpa using hne
    · exact fun c hc => List.mem_takeWhile_imp (List.mem_of_mem_take hc)

/-- Blanks in front of a number are dropped, and no more. -/
theorem trimStart_append_digits
    (hblanks : ∀ c ∈ blanks, Text.isBlank c = true)
    (h : IsNumeral width digits n)
    (hwidth : 0 < width)
    (rest : List Char) :
    Text.trimStart (blanks ++ (digits ++ rest)) = digits ++ rest := by
  obtain ⟨c, others, rfl, hc⟩ := h.exists_cons hwidth
  rw [Text.trimStart_append_of_blank hblanks, List.cons_append,
    Text.trimStart_cons (not_isBlank_of_isDigit hc)]

/-- A text is its blanks in front and the rest. -/
theorem exists_trimStart (cs : List Char) :
    ∃ blanks, (∀ c ∈ blanks, Text.isBlank c = true) ∧ cs = blanks ++ Text.trimStart cs :=
  ⟨cs.takeWhile Text.isBlank, fun _ hc => List.mem_takeWhile_imp hc,
    List.takeWhile_append_dropWhile.symm⟩

theorem spacedNumber_append
    (h : IsSpacedNumber cs n)
    (rest : List Char)
    (hrest : ∀ c ∈ rest.head?, c.isDigit = false) :
    upToDigits? 2 (Text.trimStart (cs ++ rest)) = some (n, rest) := by
  obtain ⟨hblanks, hwidth, htwo, hdigits⟩ := h
  rw [List.append_assoc, trimStart_append_digits hblanks hdigits hwidth,
    upToDigits?_append hdigits hwidth htwo hrest]

theorem exists_of_spacedNumber (h : upToDigits? 2 (Text.trimStart cs) = some (n, r)) :
    ∃ front, cs = front ++ r ∧ IsSpacedNumber front n := by
  obtain ⟨digits, width, htrim, hwidth, htwo, hdigits⟩ := exists_of_upToDigits? h
  obtain ⟨blanks, hblanks, hcs⟩ := exists_trimStart cs
  refine ⟨blanks ++ digits, ?_, hblanks, hwidth, htwo, hdigits⟩
  rw [List.append_assoc, ← htrim, ← hcs]

theorem year?_append
    (hblanks : ∀ c ∈ blanks, Text.isBlank c = true)
    (h : IsYear year y)
    (rest : List Char) :
    year? (blanks ++ (year ++ '-' :: rest)) = some (y, '-' :: rest) := by
  have hdash : ∀ c ∈ ('-' :: rest).head?, c.isDigit = false := by simp
  unfold year?
  cases h with
  | unsigned hwidth hfour hdigits =>
      rw [trimStart_append_digits hblanks hdigits hwidth]
      have hread := upToDigits?_append hdigits hwidth hfour hdash
      obtain ⟨c, others, rfl, hc⟩ := hdigits.exists_cons hwidth
      split
      · rename_i heq
        cases heq
        cases hc
      · rename_i heq
        cases heq
        cases hc
      · rw [hread]
        rfl
  | positive hwidth hdigits =>
      rw [Text.trimStart_append_of_blank hblanks, List.cons_append, Text.trimStart_cons (by decide)]
      simp only [upToDigits?_length_append hdigits hwidth hdash, Option.map_some]
  | negative hwidth hdigits =>
      rw [Text.trimStart_append_of_blank hblanks, List.cons_append, Text.trimStart_cons (by decide)]
      simp only [upToDigits?_length_append hdigits hwidth hdash, Option.map_some]

theorem exists_of_year? (h : year? cs = some (y, r)) :
    ∃ blanks year, (∀ c ∈ blanks, Text.isBlank c = true) ∧ IsYear year y ∧
      cs = blanks ++ (year ++ r) := by
  obtain ⟨blanks, hblanks, hcs⟩ := exists_trimStart cs
  unfold year? at h
  split at h
  · rename_i rest htrim
    obtain ⟨⟨n, _⟩, hread, heq⟩ := Option.map_eq_some_iff.mp h
    cases heq
    obtain ⟨digits, width, rfl, hwidth, -, hdigits⟩ := exists_of_upToDigits? hread
    exact ⟨blanks, '-' :: digits, hblanks, .negative hwidth hdigits, by rw [hcs, htrim]; rfl⟩
  · rename_i rest htrim
    obtain ⟨⟨n, _⟩, hread, heq⟩ := Option.map_eq_some_iff.mp h
    cases heq
    obtain ⟨digits, width, rfl, hwidth, -, hdigits⟩ := exists_of_upToDigits? hread
    exact ⟨blanks, '+' :: digits, hblanks, .positive hwidth hdigits, by rw [hcs, htrim]; rfl⟩
  · obtain ⟨⟨n, _⟩, hread, heq⟩ := Option.map_eq_some_iff.mp h
    cases heq
    obtain ⟨digits, width, htrim, hwidth, hfour, hdigits⟩ := exists_of_upToDigits? hread
    exact ⟨blanks, digits, hblanks, .unsigned hwidth hfour hdigits, by rw [hcs, htrim]⟩

end PlainDates

section Texts

variable {s : String} {t : Timestamp} {cs : List Char} {date : Date}

/-- What is read as a date alone. -/
theorem ofPlainDate?_eq_some_iff :
    ofPlainDate? s = some t ↔
      ∃ date, IsPlainDate s.toList date ∧ date.isValid = true ∧ ofDate date = t := by
  constructor
  · intro h
    obtain ⟨⟨y, _⟩, hyear, h⟩ := Option.bind_eq_some_iff.mp h
    obtain ⟨_, hdash, h⟩ := Option.bind_eq_some_iff.mp h
    obtain ⟨⟨mo, _⟩, hmonth, h⟩ := Option.bind_eq_some_iff.mp h
    obtain ⟨_, hdash', h⟩ := Option.bind_eq_some_iff.mp h
    obtain ⟨⟨d, r⟩, hday, h⟩ := Option.bind_eq_some_iff.mp h
    dsimp only at h
    split at h
    · rename_i hend
      rw [Bool.and_eq_true, List.isEmpty_iff] at hend
      obtain ⟨rfl, hvalid⟩ := hend
      have ht := Option.some.inj h
      obtain ⟨blanks, year, hblanks, hy, htext⟩ := exists_of_year? hyear
      obtain rfl := eq_of_expect? hdash
      obtain ⟨month, rfl, hmonths⟩ := exists_of_spacedNumber hmonth
      obtain rfl := eq_of_expect? hdash'
      obtain ⟨day, rfl, hdays⟩ := exists_of_spacedNumber hday
      rw [htext, List.append_nil]
      exact ⟨⟨y, mo, d⟩, ⟨hblanks, hy, hmonths, hdays⟩, hvalid, ht⟩
    · cases h
  · rintro ⟨date, hdate, hvalid, rfl⟩
    obtain ⟨cs, hcs⟩ : ∃ cs, cs = s.toList := ⟨_, rfl⟩
    rw [← hcs] at hdate
    cases hdate with
    | @mk blanks year month day y mo d hblanks hyear hmonth hday =>
        have hdayEnd : upToDigits? 2 (Text.trimStart day) = some (d, []) := by
          simpa using spacedNumber_append hday [] (by simp)
        have hmonthDash := spacedNumber_append hmonth ('-' :: day) (by simp)
        simp [ofPlainDate?, ← hcs, year?_append hblanks hyear, expect?_cons, hmonthDash, hdayEnd,
          hvalid]

theorem colon_not_mem_of_isNumeral
    {width n : Nat}
    (h : Decimal.IsNumeral width cs n) :
    ':' ∉ cs :=
  fun hmem => absurd (h.areDigits _ hmem) (by decide)

theorem colon_not_mem_of_blank (h : ∀ c ∈ cs, Text.isBlank c = true) : ':' ∉ cs :=
  fun hmem => absurd (h _ hmem) (by decide)

theorem colon_not_mem_of_isSpacedNumber
    {n : Nat}
    (h : IsSpacedNumber cs n) :
    ':' ∉ cs := by
  obtain ⟨hblanks, -, -, hdigits⟩ := h
  rw [List.mem_append, not_or]
  exact ⟨colon_not_mem_of_blank hblanks, colon_not_mem_of_isNumeral hdigits⟩

theorem colon_not_mem_of_isYear
    {y : Int}
    (h : IsYear cs y) :
    ':' ∉ cs := by
  cases h with
  | unsigned _ _ hdigits => exact colon_not_mem_of_isNumeral hdigits
  | positive _ hdigits => simpa using colon_not_mem_of_isNumeral hdigits
  | negative _ hdigits => simpa using colon_not_mem_of_isNumeral hdigits

/-- No colon stands in a date alone. -/
theorem colon_not_mem_of_isPlainDate (h : IsPlainDate cs date) : ':' ∉ cs := by
  obtain ⟨hblanks, hyear, hmonth, hday⟩ := h
  simp [colon_not_mem_of_blank hblanks, colon_not_mem_of_isYear hyear,
    colon_not_mem_of_isSpacedNumber hmonth, colon_not_mem_of_isSpacedNumber hday]

theorem colon_mem_of_isClock
    {time : Instant}
    (h : IsClock cs time) :
    ':' ∈ cs := by
  cases h with
  | mk => simp

theorem timestamp_startOfDay (date : Date) :
    (Instant.onDay date ⟨0, 0, 0⟩).timestamp = ofDate date := by
  simp [Instant.timestamp, Instant.onDay, ofDate, wholeMilliseconds]

/-- A text is read exactly if it writes an instant, as that instant to the millisecond. -/
theorem ofText?_eq_some_iff :
    ofText? s = some t ↔ ∃ i, Writes s.toList i ∧ i.timestamp = t := by
  rw [ofText?, Option.or_eq_some_iff]
  constructor
  · rintro (h | ⟨-, h⟩)
    · obtain ⟨_, _, _, date, time, htext, hdate, hvalid, hmark, hclock, ht⟩ :=
        ofDateTime?_eq_some_iff.mp h
      exact ⟨time.onDay date, htext ▸ .dateTime hdate hvalid hmark hclock, ht⟩
    · obtain ⟨date, hdate, hvalid, ht⟩ := ofPlainDate?_eq_some_iff.mp h
      exact ⟨_, .date hdate hvalid, (timestamp_startOfDay date).trans ht⟩
  · rintro ⟨i, hwrites, rfl⟩
    obtain ⟨cs, hcs⟩ : ∃ cs, cs = s.toList := ⟨_, rfl⟩
    rw [← hcs] at hwrites
    cases hwrites with
    | dateTime hdate hvalid hmark hclock =>
        exact .inl (ofDateTime?_eq_some_iff.mpr
          ⟨_, _, _, _, _, hcs.symm, hdate, hvalid, hmark, hclock, rfl⟩)
    | date hdate hvalid =>
        refine .inr ⟨?_, ?_⟩
        · -- A date with a time has a colon, a date alone has none.
          by_contra hsome
          obtain ⟨u, hu⟩ := Option.ne_none_iff_exists'.mp hsome
          obtain ⟨_, _, _, _, _, htext, -, -, -, hclock, -⟩ := ofDateTime?_eq_some_iff.mp hu
          have hnone := colon_not_mem_of_isPlainDate hdate
          have hcolon := colon_mem_of_isClock hclock
          rw [hcs, htext] at hnone
          exact hnone (List.mem_append_right _ (List.mem_cons_of_mem _ hcolon))
        · exact ofPlainDate?_eq_some_iff.mpr
            ⟨_, hcs ▸ hdate, hvalid, (timestamp_startOfDay _).symm⟩

end Texts

end Timestamp
end EndpointPayload
