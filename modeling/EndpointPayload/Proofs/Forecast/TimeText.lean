import EndpointPayload.Forecast.Body
import EndpointPayload.Proofs.Time.Text

/-!
# Dates of a body read back

`Denotes` gives a value its instant: a text that writes it, milliseconds since 1970, or a `$date`
wrapper around either.  The body sends the instant to the millisecond.  What it sends denotes that
instant if four digits can write the year in universal time; with any other year it denotes nothing,
and a second reading gives the current time.
-/

namespace EndpointPayload

namespace Decimal

theorem fitsWord_of_wholeOf?
    {s : String}
    {n : Int}
    (h : wholeOf? s = some n) :
    fitsWord n = true := by
  simp only [wholeOf?, Option.ite_none_left_eq_some, Option.ite_none_right_eq_some,
    Option.some.injEq] at h
  obtain ⟨-, hfits, rfl⟩ := h
  exact hfits

end Decimal

namespace Body

open Json Timestamp

variable {now s : String} {n : Int} {i : Instant} {t : Timestamp} {v w : Json}

/-- The instant of a text or of milliseconds since 1970. -/
inductive DenotesScalar : Json → Instant → Prop
  | text
      {s : String}
      {i : Instant}
      (hwrites : Writes s.toList i) :
      DenotesScalar (.str s) i
  | milliseconds
      {n : Int}
      (hword : Decimal.fitsWord n = true)
      (hmin : Date.minYear ≤ (Instant.ofMilliseconds n).year)
      (hmax : (Instant.ofMilliseconds n).year ≤ Date.maxYear) :
      DenotesScalar (.int n) (Instant.ofMilliseconds n)

/-- The instant of a value, wrapped or not. -/
inductive Denotes : Json → Instant → Prop
  | scalar
      {v : Json}
      {i : Instant}
      (h : DenotesScalar v i) :
      Denotes v i
  | wrapped
      {fields : List (String × Json)}
      {v : Json}
      {i : Instant}
      (hdate : lookup "$date" fields = some v)
      (h : DenotesScalar v i) :
      Denotes (.obj fields) i
  | wrappedTwice
      {fields inner : List (String × Json)}
      {s : String}
      {n : Int}
      {i : Instant}
      (hdate : lookup "$date" fields = some (.obj inner))
      (hlong : lookup "$numberLong" inner = some (.str s))
      (hn : Decimal.wholeOf? s = some n)
      (h : DenotesScalar (.int n) i) :
      Denotes (.obj fields) i

theorem ofMilliseconds?_eq_some_iff :
    ofMilliseconds? n = some t ↔
      (Date.minYear ≤ (Instant.ofMilliseconds n).year ∧
        (Instant.ofMilliseconds n).year ≤ Date.maxYear) ∧
      (Instant.ofMilliseconds n).timestamp = t := by
  have hdays : n / 60000 / 1440 = n / 86400000 := by omega
  have hmilliseconds : wholeMilliseconds (((n % 1000).toNat : ℚ) / 1000) = (n % 1000).toNat := by
    simp [wholeMilliseconds]
  have htimestamp : (Instant.ofMilliseconds n).timestamp =
      ⟨n / 86400000, (n % 86400000).toNat / 60000, (n % 86400000).toNat / 1000 % 60,
        (n % 86400000).toNat % 1000⟩ := by
    simp only [Instant.ofMilliseconds, Instant.timestamp, hmilliseconds, Timestamp.mk.injEq]
    omega
  rw [htimestamp]
  simp only [ofMilliseconds?, Instant.year, Instant.ofMilliseconds, hdays]
  split
  · rename_i hyear
    simp only [Bool.and_eq_true, decide_eq_true_eq] at hyear
    simp [hyear]
  · rename_i hyear
    simp only [Bool.and_eq_true, decide_eq_true_eq] at hyear
    simp [hyear]

theorem scalarTime?_eq_some_iff :
    scalarTime? v = some t ↔ ∃ i, DenotesScalar v i ∧ i.timestamp = t := by
  constructor
  · intro h
    cases v with
    | str s =>
        obtain ⟨i, hwrites, ht⟩ := ofText?_eq_some_iff.mp h
        exact ⟨i, .text hwrites, ht⟩
    | int n =>
        rw [scalarTime?] at h
        split at h
        · rename_i hword
          obtain ⟨⟨hmin, hmax⟩, ht⟩ := ofMilliseconds?_eq_some_iff.1 h
          exact ⟨_, .milliseconds hword hmin hmax, ht⟩
        · cases h
    | _ => cases h
  · rintro ⟨i, h, rfl⟩
    cases h with
    | text hwrites => exact ofText?_eq_some_iff.mpr ⟨i, hwrites, rfl⟩
    | milliseconds hword hmin hmax =>
        rw [scalarTime?, if_pos hword]
        exact ofMilliseconds?_eq_some_iff.2 ⟨⟨hmin, hmax⟩, rfl⟩

theorem wrappedMilliseconds?_eq_some_iff {inner : List (String × Json)} :
    wrappedMilliseconds? inner = some t ↔
      ∃ s n i, lookup "$numberLong" inner = some (.str s) ∧ Decimal.wholeOf? s = some n ∧
        DenotesScalar (.int n) i ∧ i.timestamp = t := by
  unfold wrappedMilliseconds?
  constructor
  · intro h
    split at h
    · rename_i s hlong
      obtain ⟨n, hn, hread⟩ := Option.bind_eq_some_iff.mp h
      obtain ⟨⟨hmin, hmax⟩, ht⟩ := ofMilliseconds?_eq_some_iff.1 hread
      exact ⟨s, n, _, hlong, hn, .milliseconds (Decimal.fitsWord_of_wholeOf? hn) hmin hmax, ht⟩
    · cases h
  · rintro ⟨s, n, i, hlong, hn, h, rfl⟩
    rw [hlong]
    cases h with
    | milliseconds hword hmin hmax =>
        have hread := ofMilliseconds?_eq_some_iff.2 ⟨⟨hmin, hmax⟩, rfl⟩
        exact Option.bind_eq_some_iff.mpr ⟨n, hn, hread⟩

theorem not_denotesScalar_obj {fields : List (String × Json)} :
    ¬ DenotesScalar (.obj fields) i := by
  intro h
  cases h

/-- A value is read as a point in time exactly if it denotes an instant, to the millisecond. -/
theorem time?_eq_some_iff :
    time? v = some t ↔ ∃ i, Denotes v i ∧ i.timestamp = t := by
  constructor
  · intro h
    unfold time? at h
    split at h
    · split at h
      · rename_i fields _ inner hdate
        obtain ⟨s, n, i, hlong, hn, hscalar, ht⟩ := wrappedMilliseconds?_eq_some_iff.1 h
        exact ⟨i, .wrappedTwice hdate hlong hn hscalar, ht⟩
      · rename_i fields _ w _ hdate
        obtain ⟨i, hscalar, ht⟩ := scalarTime?_eq_some_iff.1 h
        exact ⟨i, .wrapped hdate hscalar, ht⟩
      · cases h
    · obtain ⟨i, hscalar, ht⟩ := scalarTime?_eq_some_iff.1 h
      exact ⟨i, .scalar hscalar, ht⟩
  · rintro ⟨i, h, rfl⟩
    cases h with
    | scalar h =>
        unfold time?
        split
        · exact absurd h not_denotesScalar_obj
        · exact scalarTime?_eq_some_iff.2 ⟨i, h, rfl⟩
    | @wrapped fields w _ hdate h =>
        unfold time?
        dsimp only
        rw [hdate]
        split
        · rename_i heq
          cases heq
          exact absurd h not_denotesScalar_obj
        · rename_i heq
          cases heq
          exact scalarTime?_eq_some_iff.2 ⟨i, h, rfl⟩
        · rename_i heq
          cases heq
    | wrappedTwice hdate hlong hn h =>
        unfold time?
        dsimp only
        rw [hdate]
        exact wrappedMilliseconds?_eq_some_iff.2 ⟨_, _, i, hlong, hn, h, rfl⟩

theorem isProper_of_denotesScalar (h : DenotesScalar v i) : i.timestamp.IsProper := by
  cases h with
  | text hwrites => exact isProper_of_writes hwrites
  | @milliseconds n =>
      have hpart : (Instant.ofMilliseconds n).part < 1 := by
        rw [Instant.ofMilliseconds, div_lt_one (by norm_num)]
        exact_mod_cast show (n % 1000).toNat < 1000 by omega
      refine ⟨?_, ?_, wholeMilliseconds_lt hpart⟩
      · simp only [Instant.timestamp]
        omega
      · simp only [Instant.timestamp, Instant.ofMilliseconds]
        omega

theorem isProper_of_denotes (h : Denotes v i) : i.timestamp.IsProper := by
  cases h with
  | scalar h => exact isProper_of_denotesScalar h
  | wrapped _ h => exact isProper_of_denotesScalar h
  | wrappedTwice _ _ _ h => exact isProper_of_denotesScalar h

/-- The text that the body sends for a value with an instant. -/
theorem timeText_of_denotes
    (now : String)
    (h : Denotes v i) :
    timeText now v = i.timestamp.text := by
  rw [timeText, time?_eq_some_iff.2 ⟨i, h, rfl⟩]

theorem hasCommonYear_truncated : i.truncated.HasCommonYear ↔ i.HasCommonYear := Iff.rfl

/-- The text of a common year is read as what it was made of. -/
theorem time?_text_of_common
    (h : t.IsProper)
    (hyear : t.instant.HasCommonYear) :
    time? (.str t.text) = some t :=
  time?_eq_some_iff.2 ⟨t.instant, .scalar (.text (writes_text h hyear)), h.timestamp_instant⟩

/-- A text with another year is not read. -/
theorem time?_text_of_not_common
    (h : t.IsProper)
    (hyear : ¬ t.instant.HasCommonYear) :
    time? (.str t.text) = none := by
  rw [Option.eq_none_iff_forall_ne_some]
  intro u hu
  obtain ⟨i, hdenotes, -⟩ := time?_eq_some_iff.1 hu
  have hnone : ¬ Writes t.text.toList i := not_writes_text h hyear
  generalize t.text = s at hdenotes hnone
  cases hdenotes with
  | scalar hscalar =>
      cases hscalar with
      | text hwrites => exact hnone hwrites

/-- A value that is read as a date has an instant.  Its text in the body is read again exactly if
four digits can write the year in universal time; it then denotes the same instant without what has
passed of the millisecond, and the body sends it as it is. -/
theorem time?_timeText_iff
    (now : String)
    (h : (time? v).isSome = true) :
    (∃ i, Denotes v i) ∧
      ∀ i, Denotes v i →
        ((time? (.str (timeText now v))).isSome = true ↔ i.HasCommonYear) ∧
        (i.HasCommonYear →
          Denotes (.str (timeText now v)) i.truncated ∧
          timeText now (.str (timeText now v)) = timeText now v) := by
  obtain ⟨t, ht⟩ := Option.isSome_iff_exists.mp h
  obtain ⟨j, hj, -⟩ := time?_eq_some_iff.mp ht
  refine ⟨⟨j, hj⟩, fun i hi => ?_⟩
  have hproper := isProper_of_denotes hi
  have hinstant : i.timestamp.instant = i.truncated := instant_timestamp i
  rw [timeText_of_denotes now hi]
  by_cases hyear : i.HasCommonYear
  · have hcommon : i.timestamp.instant.HasCommonYear := by rwa [hinstant, hasCommonYear_truncated]
    have hread := time?_text_of_common hproper hcommon
    refine ⟨iff_of_true (by rw [hread]; rfl) hyear, fun _ => ⟨?_, ?_⟩⟩
    · rw [← hinstant]
      exact .scalar (.text (writes_text hproper hcommon))
    · rw [timeText, hread]
  · have hother : ¬ i.timestamp.instant.HasCommonYear := by rwa [hinstant, hasCommonYear_truncated]
    have hread := time?_text_of_not_common hproper hother
    exact ⟨iff_of_false (by rw [hread]; decide) hyear, fun hcommon => absurd hcommon hyear⟩

/-- A leap second with an offset and seven digits for its fraction. -/
def leapSecond : Json := .obj [("$date", .str "2017-01-01T05:29:60.9998877+05:30")]

/-- A leap second is sent to the millisecond in universal time and read back. -/
theorem time?_timeText_leapSecond :
    (time? leapSecond).isSome = true ∧ timeText "" leapSecond = "2016-12-31T23:59:60.999Z" ∧
      ∃ i, Denotes leapSecond i ∧ i.HasCommonYear ∧
        Denotes (.str (timeText "" leapSecond)) i.truncated := by
  have htime : time? leapSecond = some ⟨17166, 1439, 60, 999⟩ := by decide +kernel
  have hread : (time? leapSecond).isSome = true := by rw [htime]; rfl
  have htext : timeText "" leapSecond = "2016-12-31T23:59:60.999Z" := by decide +kernel
  obtain ⟨i, hi, hi'⟩ := time?_eq_some_iff.mp htime
  have hdays : i.minute / 1440 = 17166 := congrArg Timestamp.days hi'
  have hyear : i.HasCommonYear := by
    rw [Instant.HasCommonYear, Instant.year, hdays]
    decide +kernel
  exact ⟨hread, htext, i, hi, hyear, (((time?_timeText_iff "" hread).2 i hi).2 hyear).1⟩

/-- The first millisecond of the year 10000. -/
def farDate : Json := .obj [("$date", .obj [("$numberLong", .str "253402300800000")])]

/-- Not every date that is sent can be read back: a year of five digits cannot. -/
theorem not_forall_time?_timeText :
    ¬ ∀ (now : String) (v : Json) (i : Instant),
      Denotes v i →
      (time? (.str (timeText now v))).isSome = true ∧
        Denotes (.str (timeText now v)) i.truncated ∧
        timeText now (.str (timeText now v)) = timeText now v := by
  intro hall
  have htime : time? farDate = some ⟨2932897, 0, 0, 0⟩ := by decide +kernel
  obtain ⟨i, hi, -⟩ := time?_eq_some_iff.mp htime
  have hread := (hall "" farDate i hi).1
  rw [timeText, htime] at hread
  revert hread
  decide +kernel

end Body
end EndpointPayload
