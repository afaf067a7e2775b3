import EndpointPayload.Time.Calendar
import Mathlib.Tactic

/-!
# Days and their numbers

Eras of four hundred years, centuries, cycles of four years and years that start in March have all
the same number of days but for the last of each kind.  `Date.IsPlace` puts a day in its place among
them.  From its place the number of a day is computed and found again, and the day is one of the
calendar.
-/

namespace EndpointPayload
namespace Date

/-- Where a day stands in the calendar, with years that start in March: so many days after the
first of March, in a year of a cycle of four, in a cycle of a century, in a century of an era. -/
structure IsPlace (n era century cycle year day : Int) : Prop where
  number : n = 146097 * era + 36524 * century + 1461 * cycle + 365 * year + day - 719468
  centuries : 0 ≤ century ∧ century ≤ 3
  cycles : 0 ≤ cycle ∧ cycle ≤ 24
  years : 0 ≤ year ∧ year ≤ 3
  days : 0 ≤ day ∧ day ≤ 365
  leap : day = 365 → year = 3 ∧ (cycle = 24 → century = 3)

/-- Every day has a place; the last day of an era and of a cycle are leap days. -/
theorem exists_isPlace (n : Int) :
    ∃ era century cycle year day, IsPlace n era century cycle year day := by
  obtain ⟨d, hd⟩ : ∃ d, d = (n + 719468) % 146097 := ⟨_, rfl⟩
  have hcentury : ∃ c r, d = 36524 * c + r ∧ 0 ≤ c ∧ c ≤ 3 ∧ 0 ≤ r ∧ r ≤ 36524 ∧
      (r = 36524 → c = 3) := by
    by_cases hlast : d = 146096
    · exact ⟨3, 36524, by omega⟩
    · exact ⟨d / 36524, d % 36524, by omega⟩
  obtain ⟨c, r, hcr, hc, hc', hr, hr', hlast⟩ := hcentury
  have hyear : ∃ k s, r % 1461 = 365 * k + s ∧ 0 ≤ k ∧ k ≤ 3 ∧ 0 ≤ s ∧ s ≤ 365 ∧
      (s = 365 → k = 3) := by
    by_cases hlast : r % 1461 = 1460
    · exact ⟨3, 365, by omega⟩
    · exact ⟨r % 1461 / 365, r % 1461 % 365, by omega⟩
  obtain ⟨k, s, hs, hk, hk', hs0, hs1, hleap⟩ := hyear
  exact ⟨(n + 719468) / 146097, c, r / 1461, k, s,
    by omega, by omega, by omega, by omega, by omega, by omega⟩

/-- The day so many days after the first of March. -/
def ofMarch (year day : Int) : Date :=
  let m := (5 * day + 2) / 153
  let month := (if m < 10 then m + 3 else m - 9).toNat
  { year := if month ≤ 2 then year + 1 else year
    month := month
    day := (day - (153 * m + 2) / 5 + 1).toNat }

section Place

variable {n era century cycle year day : Int}

theorem IsPlace.dayOfEra (h : IsPlace n era century cycle year day) :
    (n + 719468) / 146097 = era ∧
      (n + 719468) % 146097 = 36524 * century + 1461 * cycle + 365 * year + day := by
  obtain ⟨hn, ⟨hc, hc'⟩, ⟨hq, hq'⟩, ⟨hk, hk'⟩, ⟨hs, hs'⟩, hleap⟩ := h
  omega

/-- The years of an era before a day of it. -/
theorem IsPlace.yearOfEra (h : IsPlace n era century cycle year day) :
    let d := (n + 719468) % 146097
    (d - d / 1460 + d / 36524 - d / 146096) / 365 = 100 * century + 4 * cycle + year := by
  intro d
  obtain ⟨-, hd⟩ := h.dayOfEra
  obtain ⟨hn, ⟨hc, hc'⟩, ⟨hq, hq'⟩, ⟨hk, hk'⟩, ⟨hs, hs'⟩, hleap⟩ := h
  change d = _ at hd
  have hcenturies : d / 36524 - d / 146096 = century := by
    by_cases hlast : d = 146096
    · omega
    · have : century < 3 → d < 36524 * (century + 1) := by omega
      omega
  have hcycles : d / 1460 = 25 * century + cycle +
      if 1460 ≤ 24 * century + cycle + 365 * year + day then 1 else 0 := by
    split <;> omega
  split at hcycles
  · omega
  · omega

theorem IsPlace.ofDays_eq (h : IsPlace n era century cycle year day) :
    ofDays n = ofMarch (100 * century + 4 * cycle + year + era * 400) day := by
  have hyear := h.yearOfEra
  obtain ⟨hera, hday⟩ := h.dayOfEra
  obtain ⟨-, ⟨hc, hc'⟩, ⟨hq, hq'⟩, ⟨hk, hk'⟩, -, -⟩ := h
  have hcycles : (100 * century + 4 * cycle + year) / 4 = 25 * century + cycle := by omega
  have hcenturies : (100 * century + 4 * cycle + year) / 100 = century := by omega
  have hrest : 36524 * century + 1461 * cycle + 365 * year + day -
      (365 * (100 * century + 4 * cycle + year) + (25 * century + cycle) - century) = day := by
    ring
  simp only [ofDays, ofMarch] at hyear ⊢
  rw [hyear, hera, hcycles, hcenturies, hday, hrest]

/-- The number of the day so many days after the first of March. -/
theorem toDays_ofMarch (hday : 0 ≤ day ∧ day ≤ 365) :
    (ofMarch year day).toDays =
      365 * year + year / 4 - year / 100 + year / 400 + day - 719468 := by
  obtain ⟨m, hm⟩ : ∃ m, m = (5 * day + 2) / 153 := ⟨_, rfl⟩
  simp only [toDays, ofMarch, daysBeforeMonth, ← hm]
  by_cases hyear : m < 10
  · have hmonth : 2 < (m + 3).toNat := by omega
    rw [if_pos hyear, if_neg (Nat.not_le.mpr hmonth), if_neg (Nat.not_le.mpr hmonth), if_pos hmonth]
    omega
  · have hmonth : (m - 9).toNat ≤ 2 := by omega
    rw [if_neg hyear, if_pos hmonth, if_pos hmonth, if_neg (Nat.not_lt.mpr hmonth)]
    omega

end Place

/-- A number is the number of its day. -/
theorem toDays_ofDays (n : Int) : (ofDays n).toDays = n := by
  obtain ⟨era, century, cycle, year, day, h⟩ := exists_isPlace n
  rw [h.ofDays_eq, toDays_ofMarch h.days]
  obtain ⟨hn, ⟨hc, hc'⟩, ⟨hq, hq'⟩, ⟨hk, hk'⟩, ⟨hs, hs'⟩, hleap⟩ := h
  omega

/-- The day of a number is a day of the calendar if its year is in range. -/
theorem isValid_ofDays
    {n : Int}
    (hmin : minYear ≤ (ofDays n).year)
    (hmax : (ofDays n).year ≤ maxYear) :
    (ofDays n).isValid = true := by
  obtain ⟨era, century, cycle, year, day, h⟩ := exists_isPlace n
  rw [h.ofDays_eq] at hmin hmax ⊢
  obtain ⟨-, hc, hq, hk, hs, hleap⟩ := h
  obtain ⟨m, hm⟩ : ∃ m, m = (5 * day + 2) / 153 := ⟨_, rfl⟩
  have hm0 : 0 ≤ m := by omega
  have hm1 : m ≤ 11 := by omega
  simp only [isValid, Bool.and_eq_true, decide_eq_true_eq]
  refine ⟨⟨⟨⟨⟨hmin, hmax⟩, ?_⟩, ?_⟩, ?_⟩, ?_⟩
  · simp only [ofMarch, ← hm]
    omega
  · simp only [ofMarch, ← hm]
    omega
  · simp only [ofMarch, ← hm]
    omega
  · simp only [ofMarch, ← hm, daysInMonth, isLeapYear]
    -- the rule of the months is a table, so each month is its own case
    interval_cases m <;> simp <;> omega

end Date
end EndpointPayload
