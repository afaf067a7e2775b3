import EndpointPayload.Proofs.Decimal.Digits
import EndpointPayload.Text.Blank
import EndpointPayload.Time.Timestamp
import Mathlib.Algebra.Order.Floor.Semifield

/-!
# Written dates

An instant has the whole fraction of its second.  `Writes` is the grammar of the texts that denote
one: a date with a time, any number of digits for the fraction and an offset from universal time, or
a date alone.  A timestamp is an instant without the digits behind the millisecond.
-/

namespace EndpointPayload

open Decimal

/-- A point in time: the minutes since 1970 in universal time, the second, which is 60 in a leap
second, and the part of the second that has passed. -/
structure Instant where
  minute : Int
  second : Nat
  part : ℚ

/-- The milliseconds in a part of a second. -/
def wholeMilliseconds (part : ℚ) : Nat := ⌊part * 1000⌋₊

namespace Instant

/-- So many milliseconds after the start of 1970. -/
def ofMilliseconds (n : Int) : Instant :=
  ⟨n / 60000, (n / 1000 % 60).toNat, (n % 1000).toNat / 1000⟩

/-- The instant so long after the start of a day. -/
def onDay (date : Date) (i : Instant) : Instant := ⟨date.toDays * 1440 + i.minute, i.second, i.part⟩

/-- The year in universal time. -/
def year (i : Instant) : Int := (Date.ofDays (i.minute / 1440)).year

/-- The instant without what has passed of its millisecond. -/
def truncated (i : Instant) : Instant := ⟨i.minute, i.second, wholeMilliseconds i.part / 1000⟩

/-- The instant to the millisecond. -/
def timestamp (i : Instant) : Timestamp :=
  ⟨i.minute / 1440, (i.minute % 1440).toNat, i.second, wholeMilliseconds i.part⟩

/-- A year that four digits can write. -/
def HasCommonYear (i : Instant) : Prop := 0 ≤ i.year ∧ i.year ≤ 9999

end Instant

/-- The instant of a timestamp. -/
def Timestamp.instant (t : Timestamp) : Instant :=
  ⟨t.days * 1440 + t.minuteOfDay, t.second, t.millisecond / 1000⟩

/-- A point behind a second and any number of digits, or nothing. -/
inductive IsFraction : List Char → ℚ → Prop
  | whole : IsFraction [] 0
  | digits
      {width n : Nat}
      {digits : List Char}
      (hwidth : 0 < width)
      (hdigits : IsNumeral width digits n) :
      IsFraction ('.' :: digits) (n / 10 ^ width)

/-- The offset of a local time from universal time in minutes. -/
inductive IsOffset : List Char → Int → Prop
  | universal
      {mark : Char}
      (hmark : mark = 'Z' ∨ mark = 'z') :
      IsOffset [mark] 0
  | ahead
      {hours minutes : List Char}
      {h m : Nat}
      (hhours : IsNumeral 2 hours h)
      (hminutes : IsNumeral 2 minutes m)
      (hh : h ≤ 23)
      (hm : m ≤ 59) :
      IsOffset ('+' :: (hours ++ ':' :: minutes)) (h * 60 + m)
  | behind
      {sign : Char}
      {hours minutes : List Char}
      {h m : Nat}
      (hsign : sign = '-' ∨ sign = '\u2212')
      (hhours : IsNumeral 2 hours h)
      (hminutes : IsNumeral 2 minutes m)
      (hh : h ≤ 23)
      (hm : m ≤ 59) :
      IsOffset (sign :: (hours ++ ':' :: minutes)) (-(h * 60 + m))

/-- The year of a date alone: up to four digits, or a sign and any number of them. -/
inductive IsYear : List Char → Int → Prop
  | unsigned
      {width n : Nat}
      {digits : List Char}
      (hwidth : 0 < width)
      (hfour : width ≤ 4)
      (hdigits : IsNumeral width digits n) :
      IsYear digits n
  | positive
      {width n : Nat}
      {digits : List Char}
      (hwidth : 0 < width)
      (hdigits : IsNumeral width digits n) :
      IsYear ('+' :: digits) n
  | negative
      {width n : Nat}
      {digits : List Char}
      (hwidth : 0 < width)
      (hdigits : IsNumeral width digits n) :
      IsYear ('-' :: digits) (-n)

/-- Blanks and a number of one or two digits. -/
inductive IsSpacedNumber : List Char → Nat → Prop
  | mk
      {width n : Nat}
      {blanks digits : List Char}
      (hblanks : ∀ c ∈ blanks, Text.isBlank c = true)
      (hwidth : 0 < width)
      (htwo : width ≤ 2)
      (hdigits : IsNumeral width digits n) :
      IsSpacedNumber (blanks ++ digits) n

/-- A date with four digits for the year and two for each of the others. -/
inductive IsFullDate : List Char → Date → Prop
  | mk
      {year month day : List Char}
      {y mo d : Nat}
      (hyear : IsNumeral 4 year y)
      (hmonth : IsNumeral 2 month mo)
      (hday : IsNumeral 2 day d) :
      IsFullDate (year ++ '-' :: (month ++ '-' :: day)) ⟨y, mo, d⟩

/-- A time of day with its offset, as the time after the start of the day in universal time. -/
inductive IsClock : List Char → Instant → Prop
  | mk
      {hour minute second fraction zone : List Char}
      {h m s : Nat}
      {part : ℚ}
      {offset : Int}
      (hhour : IsNumeral 2 hour h)
      (hminute : IsNumeral 2 minute m)
      (hsecond : IsNumeral 2 second s)
      (hfraction : IsFraction fraction part)
      (hzone : IsOffset zone offset)
      (hh : h ≤ 23)
      (hm : m ≤ 59)
      (hs : s ≤ 60) :
      IsClock (hour ++ ':' :: (minute ++ ':' :: (second ++ (fraction ++ zone))))
        ⟨h * 60 + m - offset, s, part⟩

/-- A date alone; blanks may stand before each number. -/
inductive IsPlainDate : List Char → Date → Prop
  | mk
      {blanks year month day : List Char}
      {y : Int}
      {mo d : Nat}
      (hblanks : ∀ c ∈ blanks, Text.isBlank c = true)
      (hyear : IsYear year y)
      (hmonth : IsSpacedNumber month mo)
      (hday : IsSpacedNumber day d) :
      IsPlainDate (blanks ++ (year ++ '-' :: (month ++ '-' :: day))) ⟨y, mo, d⟩

/-- The texts that denote an instant. -/
inductive Writes : List Char → Instant → Prop
  | dateTime
      {dateText clockText : List Char}
      {separator : Char}
      {date : Date}
      {time : Instant}
      (hdate : IsFullDate dateText date)
      (hvalid : date.isValid = true)
      (hseparator : separator = 'T' ∨ separator = 't' ∨ separator = ' ')
      (hclock : IsClock clockText time) :
      Writes (dateText ++ separator :: clockText) (time.onDay date)
  | date
      {dateText : List Char}
      {date : Date}
      (hdate : IsPlainDate dateText date)
      (hvalid : date.isValid = true) :
      Writes dateText (Instant.onDay date ⟨0, 0, 0⟩)

section Instants

variable {width n : Nat} {digits fraction : List Char} {part : ℚ}

/-- A fraction of a second is less than a second. -/
theorem IsFraction.bounds (h : IsFraction fraction part) : 0 ≤ part ∧ part < 1 := by
  cases h with
  | whole => norm_num
  | @digits width n digits hwidth hdigits =>
      have hlt : n < 10 ^ width := by
        rw [← hdigits.value, ← hdigits.length_eq]
        exact ofDigits_lt hdigits.areDigits
      refine ⟨by positivity, ?_⟩
      rw [div_lt_one (by positivity)]
      exact_mod_cast hlt

/-- The milliseconds of a fraction are its first three digits, zeros standing for missing ones. -/
theorem wholeMilliseconds_digits (h : IsNumeral width digits n) :
    wholeMilliseconds (n / 10 ^ width) = ofDigits ((digits ++ ['0', '0', '0']).take 3) := by
  have hzeros : IsNumeral 3 ['0', '0', '0'] 0 := ⟨rfl, by simp, rfl⟩
  have hall := h.append hzeros
  rw [Nat.add_comm] at hall
  obtain ⟨front, rest, m, k, heq, hfront, hrest, hn⟩ := hall.exists_append
  have hk : k < 10 ^ width := by
    rw [← hrest.value, ← hrest.length_eq]
    exact ofDigits_lt hrest.areDigits
  have htake : (digits ++ ['0', '0', '0']).take 3 = front := by
    rw [heq, List.take_append_of_le_length (by rw [hfront.length_eq]), List.take_of_length_le]
    rw [hfront.length_eq]
  have hquotient :
      (n : ℚ) / 10 ^ width * 1000 = ((1000 * n : Nat) : ℚ) / ((10 ^ width : Nat) : ℚ) := by
    push_cast
    ring
  have hvalue : 1000 * n = 10 ^ width * m + k := by omega
  rw [htake, hfront.value, wholeMilliseconds, hquotient, Nat.floor_div_eq_div, hvalue,
    Nat.mul_add_div (by positivity), Nat.div_eq_of_lt hk, Nat.add_zero]

end Instants

end EndpointPayload
