import Mathlib.Algebra.GroupWithZero.Nat
import Mathlib.Algebra.Order.Ring.Rat

/-!
# Calendar dates

Dates and times of the proleptic Gregorian calendar, years 1 to 9999, to the microsecond.  A
`DateTime` is valid by construction; `DateTime.new` is the check.  `micros` counts microseconds from
the beginning of year 1, and a `TimeZone` maps between such wall clocks and universal time.
-/

namespace Calendar

def isLeap (year : ℕ) : Bool :=
  year % 4 == 0 && (year % 100 != 0 || year % 400 == 0)

def daysInMonth (year month : ℕ) : ℕ :=
  match month with
  | 2 => if isLeap year then 29 else 28
  | 4 | 6 | 9 | 11 => 30
  | _ => 31

def daysBeforeYear (year : ℕ) : ℕ :=
  let y := year - 1
  y * 365 + y / 4 - y / 100 + y / 400

def daysBeforeMonth (year month : ℕ) : ℕ :=
  ((List.range (month - 1)).map fun m => daysInMonth year (m + 1)).sum

structure DateTime where
  year : ℕ
  month : ℕ
  day : ℕ
  hour : ℕ := 0
  minute : ℕ := 0
  second : ℕ := 0
  microsecond : ℕ := 0
  year_valid : 1 ≤ year ∧ year ≤ 9999
  month_valid : 1 ≤ month ∧ month ≤ 12
  day_valid : 1 ≤ day ∧ day ≤ daysInMonth year month
  time_valid : hour < 24 ∧ minute < 60 ∧ second < 60 ∧ microsecond < 1000000
deriving DecidableEq

/-- The constructor: `none` where a field is out of range. -/
def DateTime.new (year month day hour minute second microsecond : ℕ) : Option DateTime :=
  if h : (1 ≤ year ∧ year ≤ 9999) ∧ (1 ≤ month ∧ month ≤ 12) ∧
      (1 ≤ day ∧ day ≤ daysInMonth year month) ∧
      (hour < 24 ∧ minute < 60 ∧ second < 60 ∧ microsecond < 1000000)
  then some ⟨year, month, day, hour, minute, second, microsecond, h.1, h.2.1, h.2.2.1, h.2.2.2⟩
  else none

/-- The same date and time in another year, if there is one. -/
def DateTime.replaceYear (d : DateTime) (year : ℕ) : Option DateTime :=
  DateTime.new year d.month d.day d.hour d.minute d.second d.microsecond

/-- Days since the end of the year before year 1. -/
def DateTime.ordinal (d : DateTime) : ℕ :=
  daysBeforeYear d.year + daysBeforeMonth d.year d.month + d.day

def microsPerDay : ℕ := 86400000000

/-- Microseconds since the beginning of year 1. -/
def DateTime.micros (d : DateTime) : ℕ :=
  (d.ordinal - 1) * microsPerDay
    + ((d.hour * 60 + d.minute) * 60 + d.second) * 1000000 + d.microsecond

/-- The days of the years 1 to 9999. -/
def maxOrdinal : ℕ := 3652059

/-- 1970-01-01, in days from the beginning of year 1. -/
def epochDays : ℕ := 719162

/-- The POSIX timestamp of a universal time given in microseconds. -/
def posix (utcMicros : ℤ) : ℚ := (utcMicros - (epochDays * microsPerDay : ℕ) : ℤ) / 1000000

/-- A time zone: the local time of a universal time, or `none` if it is out of range, and the
offset from universal time, in seconds, of a local time. -/
structure TimeZone where
  fromUtc : DateTime → Option DateTime
  utcOffset : DateTime → ℤ

/-- What `datetime` demands of a time zone: its offsets are less than a day, so that a universal
time away from the ends of the calendar has a local time, less than a day from it. -/
structure TimeZone.Regular (tz : TimeZone) : Prop where
  utcOffset : ∀ d, -86400 < tz.utcOffset d ∧ tz.utcOffset d < 86400
  fromUtc : ∀ d, 2 ≤ d.year → d.year ≤ 9998 → ∃ localTime, tz.fromUtc d = some localTime ∧
    localTime.micros < d.micros + microsPerDay ∧ d.micros < localTime.micros + microsPerDay

def utc : TimeZone where
  fromUtc := some
  utcOffset _ := 0

lemma utc_regular : utc.Regular := by
  refine ⟨?_, ?_⟩
  · intro d
    simp [utc]
  · intro d _ _
    refine ⟨d, rfl, ?_, ?_⟩ <;> simp [microsPerDay]

/-- The universal time, in microseconds, of a local time; `none` if it is out of range. -/
def toUtc (d : DateTime) (offsetSeconds : ℤ) : Option ℤ :=
  let t := (d.micros : ℤ) - offsetSeconds * 1000000
  if 0 ≤ t ∧ t < (maxOrdinal * microsPerDay : ℕ) then some t else none

/-! ## Rough bounds

Every month counts for at most 31 days and every year for at least 365, which is enough to tell
times apart that are years from the ends of the calendar. -/

lemma daysInMonth_le (year month : ℕ) : daysInMonth year month ≤ 31 := by
  unfold daysInMonth
  split
  case h_1 => split_ifs <;> omega
  all_goals omega

lemma daysBeforeMonth_le (year month : ℕ) : daysBeforeMonth year month ≤ 31 * (month - 1) := by
  rw [daysBeforeMonth]
  induction month - 1 with
  | zero => simp
  | succ n ih =>
      have hmonth := daysInMonth_le year (n + 1)
      rw [List.range_succ, List.map_append, List.sum_append, List.map_singleton, List.sum_singleton]
      omega

lemma le_daysBeforeYear (year : ℕ) : 365 * (year - 1) ≤ daysBeforeYear year := by
  simp only [daysBeforeYear]
  omega

lemma daysBeforeYear_le (year : ℕ) : daysBeforeYear year ≤ 366 * (year - 1) := by
  simp only [daysBeforeYear]
  omega

lemma DateTime.micros_lt (d : DateTime) : d.micros < 372 * d.year * microsPerDay := by
  have hyear := daysBeforeYear_le d.year
  have hmonth := daysBeforeMonth_le d.year d.month
  have hday := d.day_valid.2.trans (daysInMonth_le d.year d.month)
  have hvalid := d.year_valid
  have hvalid' := d.month_valid
  have hvalid'' := d.day_valid.1
  have htime := d.time_valid
  have hordinal : d.ordinal ≤ 372 * d.year := by
    unfold DateTime.ordinal
    omega
  have hpos : 1 ≤ d.ordinal := by
    unfold DateTime.ordinal
    omega
  unfold DateTime.micros microsPerDay
  omega

lemma DateTime.le_micros (d : DateTime) : 365 * (d.year - 1) * microsPerDay ≤ d.micros := by
  have hyear := le_daysBeforeYear d.year
  have hday := d.day_valid.1
  have hordinal : 365 * (d.year - 1) ≤ d.ordinal - 1 := by
    unfold DateTime.ordinal
    omega
  unfold DateTime.micros microsPerDay
  omega

lemma DateTime.year_of_new {year month day hour minute second microsecond : ℕ} {d : DateTime}
    (h : DateTime.new year month day hour minute second microsecond = some d) : d.year = year := by
  unfold DateTime.new at h
  split_ifs at h
  rw [← Option.some.inj h]

/-- Far from the ends of the calendar, every offset of less than a day leads to a universal time. -/
lemma exists_toUtc {d : DateTime} {offset : ℤ} (hyear : 2 ≤ d.year ∧ d.year ≤ 9500)
    (hoffset : -86400 < offset ∧ offset < 86400) : ∃ t, toUtc d offset = some t := by
  have hlt := d.micros_lt
  have hle := d.le_micros
  have hrange : 0 ≤ (d.micros : ℤ) - offset * 1000000 ∧
      (d.micros : ℤ) - offset * 1000000 < (maxOrdinal * microsPerDay : ℕ) := by
    unfold microsPerDay at hlt hle ⊢
    unfold maxOrdinal
    omega
  exact ⟨_, if_pos hrange⟩

/-! ## The same date in two years -/

/-- The days of a year beyond 365. -/
def leapDay (year : ℕ) : ℕ := if isLeap year then 1 else 0

lemma leapDay_le (year : ℕ) : leapDay year ≤ 1 := by
  unfold leapDay
  split_ifs <;> omega

lemma daysBeforeYear_succ {year : ℕ} (h : 1 ≤ year) :
    daysBeforeYear (year + 1) = daysBeforeYear year + 365 + leapDay year := by
  obtain ⟨n, rfl⟩ := Nat.exists_eq_add_of_le' h
  have hleap : leapDay (n + 1) + (if 100 ∣ n + 1 then 1 else 0) =
      (if 4 ∣ n + 1 then 1 else 0) + (if 400 ∣ n + 1 then 1 else 0) := by
    rw [leapDay, isLeap]
    simp only [Bool.and_eq_true, Bool.or_eq_true, beq_iff_eq, bne_iff_ne, ← Nat.dvd_iff_mod_eq_zero,
      ne_eq]
    split_ifs <;> omega
  have hcentury : n / 100 ≤ n := Nat.div_le_self n 100
  have hone : (if 100 ∣ n + 1 then 1 else 0) ≤ 1 := by split_ifs <;> omega
  simp only [daysBeforeYear, Nat.add_sub_cancel, Nat.succ_div]
  omega

lemma daysBeforeYear_mono {year year' : ℕ} (hpos : 1 ≤ year) (h : year ≤ year') :
    daysBeforeYear year ≤ daysBeforeYear year' := by
  induction year', h using Nat.le_induction with
  | base => exact Nat.le_refl _
  | succ y hy ih =>
      rw [daysBeforeYear_succ (hpos.trans hy)]
      omega

lemma daysInMonth_eq (year month : ℕ) :
    daysInMonth year month = daysInMonth 1 month + (if month = 2 then leapDay year else 0) := by
  by_cases h : month = 2
  · rw [if_pos h, h, leapDay]
    simp only [daysInMonth]
    split_ifs <;> simp_all [isLeap]
  · rw [if_neg h, daysInMonth.eq_def, daysInMonth.eq_def]
    split <;> simp_all

/-- Only the months after February depend on the year. -/
lemma daysBeforeMonth_eq (year : ℕ) {month : ℕ} (h : 1 ≤ month) :
    daysBeforeMonth year month =
      daysBeforeMonth 1 month + (if 2 < month then leapDay year else 0) := by
  have hsucc : ∀ y m, 1 ≤ m →
      daysBeforeMonth y (m + 1) = daysBeforeMonth y m + daysInMonth y m := by
    intro y m hm
    obtain ⟨n, rfl⟩ := Nat.exists_eq_add_of_le' hm
    simp [daysBeforeMonth, List.range_succ]
  induction month, h using Nat.le_induction with
  | base => rfl
  | succ m hm ih =>
      rw [hsucc year m hm, hsucc 1 m hm, ih, daysInMonth_eq year m]
      split_ifs <;> omega

/-- A date is in its year. -/
lemma daysBeforeMonth_add_le {year month day : ℕ} (h : 1 ≤ month ∧ month ≤ 12)
    (hday : day ≤ daysInMonth year month) :
    daysBeforeMonth year month + day ≤ 365 + leapDay year := by
  have hplain : ∀ m ≤ 12, daysBeforeMonth 1 m + daysInMonth 1 m ≤ 365 := by decide
  have hle := hplain month h.2
  rw [daysInMonth_eq] at hday
  rw [daysBeforeMonth_eq year h.1]
  split_ifs at hday ⊢ <;> omega

namespace DateTime

/-- Microseconds since the beginning of the day. -/
def clockMicros (d : DateTime) : ℕ :=
  ((d.hour * 60 + d.minute) * 60 + d.second) * 1000000 + d.microsecond

lemma clockMicros_lt (d : DateTime) : d.clockMicros < microsPerDay := by
  have htime := d.time_valid
  unfold clockMicros microsPerDay
  omega

lemma micros_eq (d : DateTime) : d.micros = (d.ordinal - 1) * microsPerDay + d.clockMicros := by
  unfold micros clockMicros
  omega

lemma ordinal_pos (d : DateTime) : 1 ≤ d.ordinal := by
  have hday := d.day_valid
  unfold ordinal
  omega

lemma ordinal_bounds (d : DateTime) :
    daysBeforeYear d.year + 1 ≤ d.ordinal ∧ d.ordinal ≤ daysBeforeYear (d.year + 1) := by
  have hday := d.day_valid
  have hle := daysBeforeMonth_add_le d.month_valid hday.2
  rw [daysBeforeYear_succ d.year_valid.1]
  unfold ordinal
  omega

/-- A time is in its year. -/
lemma micros_bounds (d : DateTime) : daysBeforeYear d.year * microsPerDay ≤ d.micros ∧
    d.micros < daysBeforeYear (d.year + 1) * microsPerDay := by
  have hordinal := d.ordinal_bounds
  have hclock := d.clockMicros_lt
  have hpos := d.ordinal_pos
  rw [d.micros_eq]
  unfold microsPerDay at hclock ⊢
  omega

/-- With a year between them, two times are more than 365 days apart. -/
lemma micros_lt_of_year (d d' : DateTime) (h : d.year + 2 ≤ d'.year) :
    d.micros + 365 * microsPerDay < d'.micros := by
  have hlt := d.micros_bounds.2
  have hle := d'.micros_bounds.1
  have hyear := daysBeforeYear_succ (Nat.le_add_left 1 d.year)
  have hmono := daysBeforeYear_mono (Nat.le_add_left 1 (d.year + 1)) h
  unfold microsPerDay at hlt hle ⊢
  omega

lemma new_self (d : DateTime) :
    DateTime.new d.year d.month d.day d.hour d.minute d.second d.microsecond = some d :=
  dif_pos ⟨d.year_valid, d.month_valid, d.day_valid, d.time_valid⟩

lemma replaceYear_self (d : DateTime) : d.replaceYear d.year = some d := d.new_self

lemma replaceYear_spec {d d' : DateTime} {year : ℕ} (h : d.replaceYear year = some d') :
    d'.year = year ∧ d'.month = d.month ∧ d'.day = d.day ∧ d'.clockMicros = d.clockMicros := by
  unfold replaceYear DateTime.new at h
  split_ifs at h
  rw [← Option.some.inj h]
  exact ⟨rfl, rfl, rfl, rfl⟩

/-- Changing the year back and forth. -/
lemma replaceYear_replaceYear {d d' : DateTime} {year : ℕ} (h : d.replaceYear year = some d') :
    d'.replaceYear d.year = some d := by
  unfold replaceYear DateTime.new at h
  split_ifs at h
  rw [← Option.some.inj h]
  exact d.new_self

/-- Every date but the 29th of February is a date of every year. -/
lemma exists_replaceYear {d : DateTime} {year : ℕ} (hyear : 1 ≤ year ∧ year ≤ 9999)
    (hdate : ¬ (d.month = 2 ∧ d.day = 29)) : ∃ d', d.replaceYear year = some d' := by
  have hday : 1 ≤ d.day ∧ d.day ≤ daysInMonth year d.month := by
    refine ⟨d.day_valid.1, ?_⟩
    have hle := d.day_valid.2
    have hleap := leapDay_le d.year
    rw [daysInMonth_eq] at hle ⊢
    by_cases hmonth : d.month = 2
    · have hfebruary : daysInMonth 1 2 = 28 := by decide
      rw [if_pos hmonth] at hle
      rw [hmonth, hfebruary] at hle ⊢
      omega
    · rw [if_neg hmonth] at hle ⊢
      omega
  exact ⟨_, dif_pos ⟨hyear, d.month_valid, hday, d.time_valid⟩⟩

/-- From a date to the same date of the next year it is at least 365 days. -/
lemma micros_replaceYear_succ {d d' : DateTime} (h : d.replaceYear (d.year + 1) = some d') :
    d.micros + 365 * microsPerDay ≤ d'.micros := by
  obtain ⟨hyear, hmonth, hday, hclock⟩ := replaceYear_spec h
  have hpos := d.ordinal_pos
  have hordinal : d.ordinal + 365 ≤ d'.ordinal := by
    have hsucc := daysBeforeYear_succ d.year_valid.1
    have hbefore := daysBeforeMonth_eq d.year d.month_valid.1
    have hbefore' := daysBeforeMonth_eq (d.year + 1) d.month_valid.1
    unfold ordinal
    rw [hyear, hmonth, hday, hsucc, hbefore, hbefore']
    split_ifs <;> omega
  rw [d.micros_eq, d'.micros_eq, hclock]
  unfold microsPerDay
  omega

end DateTime

/-- Up to the year 9500, a day later is still in the calendar. -/
lemma DateTime.micros_add_lt {d : DateTime} (h : d.year ≤ 9500) :
    d.micros + microsPerDay < maxOrdinal * microsPerDay := by
  have hlt := d.micros_lt
  unfold microsPerDay at hlt ⊢
  unfold maxOrdinal
  omega

/-- A universal time is its own. -/
lemma toUtc_zero {d : DateTime} (h : d.micros < maxOrdinal * microsPerDay) :
    toUtc d 0 = some (d.micros : ℤ) := by
  have hrange : 0 ≤ (d.micros : ℤ) - 0 * 1000000 ∧
      (d.micros : ℤ) - 0 * 1000000 < (maxOrdinal * microsPerDay : ℕ) := by
    omega
  rw [toUtc]
  simp only [if_pos hrange]
  simp

end Calendar
