import EndpointPayload.Proofs.Time.Calendar
import EndpointPayload.Proofs.Time.Reading

/-!
# Texts of timestamps

The text of a timestamp writes its instant if four digits can write the year.  Any other year has a
sign in front: such a text starts with no digit and is no date with a time, and it has a colon and
is no date alone, so nothing reads it.
-/

namespace EndpointPayload

open Decimal

namespace Timestamp

section Padded

theorem toList_padded (width n : Nat) :
    (padded width n).toList =
      List.replicate (width - (Nat.toDigits 10 n).length) '0' ++ Nat.toDigits 10 n := by
  simp [padded]

/-- A number with no more digits than the width is padded to the width. -/
theorem isNumeral_padded
    (width n : Nat)
    (hwidth : 0 < width)
    (hn : n < 10 ^ width) :
    IsNumeral width (padded width n).toList n where
  length_eq := by
    have hlength := (Nat.length_toDigits_le_iff (by decide) hwidth).mpr hn
    rw [toList_padded, List.length_append, List.length_replicate, Nat.sub_add_cancel hlength]
  areDigits := by
    intro c hc
    rw [toList_padded, List.mem_append] at hc
    rcases hc with hzero | hdigit
    · rw [List.eq_of_mem_replicate hzero]
      rfl
    · exact Nat.isDigit_of_mem_toDigits (by decide) (by decide) hdigit
  value := by
    rw [ofDigits_eq, toList_padded, Nat.ofDigitChars_append, Nat.ofDigitChars_replicate_zero,
      mul_zero, Nat.ofDigitChars_ten_toDigits]

end Padded

/-- A timestamp within a day, a minute and a second. -/
structure IsProper (t : Timestamp) : Prop where
  minute_lt : t.minuteOfDay < 1440
  second_le : t.second ≤ 60
  millisecond_lt : t.millisecond < 1000

section Instants

variable {t : Timestamp} {i : Instant} {cs : List Char}

theorem instant_timestamp (i : Instant) : i.timestamp.instant = i.truncated := by
  have hminute : i.minute / 1440 * 1440 + ((i.minute % 1440).toNat : Int) = i.minute := by omega
  simp only [Instant.timestamp, instant, Instant.truncated, hminute]

theorem IsProper.timestamp_instant (h : t.IsProper) : t.instant.timestamp = t := by
  have hminute := h.minute_lt
  have hdays : (t.days * 1440 + t.minuteOfDay) / 1440 = t.days := by omega
  have hrest : ((t.days * 1440 + t.minuteOfDay) % 1440).toNat = t.minuteOfDay := by omega
  have hmilliseconds : wholeMilliseconds (t.millisecond / 1000) = t.millisecond := by
    simp [wholeMilliseconds]
  simp only [instant, Instant.timestamp, hdays, hrest, hmilliseconds]

theorem wholeMilliseconds_lt {part : ℚ} (h : part < 1) : wholeMilliseconds part < 1000 := by
  rw [wholeMilliseconds, Nat.floor_lt' (by decide)]
  push_cast
  linarith

theorem IsClock.bounds (h : IsClock cs i) : i.second ≤ 60 ∧ i.part < 1 := by
  cases h with
  | mk _ _ _ hfraction _ _ _ hs => exact ⟨hs, hfraction.bounds.2⟩

/-- What a text writes is a proper timestamp. -/
theorem isProper_of_writes (h : Writes cs i) : i.timestamp.IsProper := by
  have hminute : (i.minute % 1440).toNat < 1440 := by omega
  cases h with
  | dateTime _ _ _ hclock =>
      exact ⟨hminute, (IsClock.bounds hclock).1, wholeMilliseconds_lt (IsClock.bounds hclock).2⟩
  | @date _ date =>
      have hpart : (Instant.onDay date ⟨0, 0, 0⟩).part < 1 := by norm_num [Instant.onDay]
      exact ⟨hminute, by simp [Instant.timestamp, Instant.onDay], wholeMilliseconds_lt hpart⟩

end Instants

section Texts

variable {t : Timestamp} {i : Instant} {cs : List Char}

/-- The characters of a timestamp's text, part by part. -/
theorem toList_text (t : Timestamp) :
    t.text.toList =
      ((yearText (Date.ofDays t.days).year).toList ++
        '-' :: ((padded 2 (Date.ofDays t.days).month).toList ++
          '-' :: (padded 2 (Date.ofDays t.days).day).toList)) ++
      'T' :: ((padded 2 (t.minuteOfDay / 60)).toList ++
        ':' :: ((padded 2 (t.minuteOfDay % 60)).toList ++
          ':' :: ((padded 2 t.second).toList ++
            ('.' :: (padded 3 t.millisecond).toList ++ ['Z'])))) := by
  simp [text]

theorem isClock_text (h : t.IsProper) :
    IsClock ((padded 2 (t.minuteOfDay / 60)).toList ++
        ':' :: ((padded 2 (t.minuteOfDay % 60)).toList ++
          ':' :: ((padded 2 t.second).toList ++
            ('.' :: (padded 3 t.millisecond).toList ++ ['Z']))))
      ⟨t.minuteOfDay, t.second, t.millisecond / 1000⟩ := by
  obtain ⟨hminute, hsecond, hmillisecond⟩ := h
  have hclock : IsClock _ _ := .mk
    (isNumeral_padded 2 (t.minuteOfDay / 60) (by decide) (by omega))
    (isNumeral_padded 2 (t.minuteOfDay % 60) (by decide) (by omega))
    (isNumeral_padded 2 t.second (by decide) (by omega))
    (.digits (by decide) (isNumeral_padded 3 t.millisecond (by decide) hmillisecond))
    (.universal (.inl rfl)) (by omega) (by omega) hsecond
  have hminutes : ((t.minuteOfDay / 60 : Nat) : Int) * 60 + (t.minuteOfDay % 60 : Nat) - 0 =
      t.minuteOfDay := by omega
  have hpart : (t.millisecond : ℚ) / 10 ^ 3 = t.millisecond / 1000 := by norm_num
  rw [hminutes, hpart] at hclock
  exact hclock

theorem IsProper.year_instant (h : t.IsProper) : t.instant.year = (Date.ofDays t.days).year := by
  have hminute := h.minute_lt
  have hdays : (t.days * 1440 + t.minuteOfDay) / 1440 = t.days := by omega
  rw [instant, Instant.year, hdays]

/-- A common year is written with four digits. -/
theorem isFullDate_text
    {date : Date}
    (hmin : 0 ≤ date.year)
    (hmax : date.year ≤ 9999)
    (hvalid : date.isValid = true) :
    IsFullDate ((yearText date.year).toList ++
      '-' :: ((padded 2 date.month).toList ++ '-' :: (padded 2 date.day).toList)) date := by
  obtain ⟨year, month, day⟩ := date
  obtain ⟨y, rfl⟩ := Int.eq_ofNat_of_zero_le hmin
  simp only [Date.isValid, Bool.and_eq_true, decide_eq_true_eq] at hvalid hmax
  obtain ⟨⟨⟨⟨-, -⟩, hmonth⟩, -⟩, hday⟩ := hvalid
  have hdays : Date.daysInMonth y month ≤ 31 := by
    unfold Date.daysInMonth
    split
    · split <;> omega
    · split <;> omega
  have htext : yearText y = padded 4 y := by simp [yearText, hmax]
  have hy : y < 10 ^ 4 := by omega
  have hm : month < 10 ^ 2 := lt_of_le_of_lt hmonth (by decide)
  have hd : day < 10 ^ 2 := lt_of_le_of_lt (hday.trans hdays) (by decide)
  rw [htext]
  exact .mk (isNumeral_padded 4 y (by decide) hy) (isNumeral_padded 2 month (by decide) hm)
    (isNumeral_padded 2 day (by decide) hd)

theorem writes_text
    (h : t.IsProper)
    (hyear : t.instant.HasCommonYear) :
    Writes t.text.toList t.instant := by
  have hvalid : (Date.ofDays t.days).isValid = true := by
    rw [Instant.HasCommonYear, h.year_instant] at hyear
    refine Date.isValid_ofDays ?_ ?_
    · simp only [Date.minYear]
      omega
    · simp only [Date.maxYear]
      omega
  rw [Instant.HasCommonYear, h.year_instant] at hyear
  have hwrites := Writes.dateTime (isFullDate_text hyear.1 hyear.2 hvalid) hvalid (.inl rfl)
    (isClock_text h)
  rw [Instant.onDay, Date.toDays_ofDays] at hwrites
  rw [toList_text]
  exact hwrites

/-- What writes an instant starts with a digit or has no colon. -/
theorem isDigit_or_colon_not_mem (h : Writes cs i) :
    (∃ c rest, cs = c :: rest ∧ c.isDigit = true) ∨ ':' ∉ cs := by
  cases h with
  | dateTime hdate =>
      cases hdate with
      | mk hyear =>
          obtain ⟨c, rest, rfl, hc⟩ := hyear.exists_cons (by decide)
          exact .inl ⟨c, _, rfl, hc⟩
  | date hdate => exact .inr (colon_not_mem_of_isPlainDate hdate)

/-- The text of any other year starts with a sign. -/
theorem exists_sign
    {y : Int}
    (h : ¬ (0 ≤ y ∧ y ≤ 9999)) :
    ∃ c rest, (yearText y).toList = c :: rest ∧ c.isDigit = false := by
  unfold yearText
  rw [if_neg (by simpa using h)]
  split
  · exact ⟨'-', (padded 4 y.natAbs).toList, by simp, by decide⟩
  · exact ⟨'+', (padded 4 y.natAbs).toList, by simp, by decide⟩

/-- A text with another year writes nothing. -/
theorem not_writes_text
    (h : t.IsProper)
    (hyear : ¬ t.instant.HasCommonYear) :
    ¬ Writes t.text.toList i := by
  rw [Instant.HasCommonYear, h.year_instant] at hyear
  obtain ⟨sign, rest, hsign, hnot⟩ := exists_sign hyear
  intro hwrites
  rcases isDigit_or_colon_not_mem hwrites with ⟨c, others, hcons, hc⟩ | hcolon
  · rw [toList_text, hsign] at hcons
    obtain rfl : sign = c := List.head_eq_of_cons_eq hcons
    simp [hnot] at hc
  · exact hcolon (by simp [toList_text])

end Texts

end Timestamp
end EndpointPayload
