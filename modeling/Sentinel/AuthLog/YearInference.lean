import Sentinel.AuthLog.Exceptions

/-!
# The year of a BSD timestamp

A BSD timestamp has no year, and `_parse_bsd_timestamp` infers it from the clock: the current year,
or the one before if that would be more than a day ahead.  A `render`ed time is read back as it was
if it is from the current or the previous year (`parseBsdTimestamp_render`).  The next year is never
inferred, so a time shortly after New Year that is read shortly before it is taken for the beginning
of the current year.
-/

namespace Sentinel.AuthLog

open Calendar PyText

/-! ## Rendering -/

/-- The name of a month. -/
def monthName (month : ℕ) : List Char :=
  ((months.find? fun entry => entry.2 == month).map fun entry => entry.1.toList).getD []

def twoDigits (n : ℕ) : List Char := [Nat.digitChar (n / 10), Nat.digitChar (n % 10)]

/-- The day, with a leading zero or without one. -/
def dayText (padded : Bool) (day : ℕ) : List Char :=
  if padded || 10 ≤ day then twoDigits day else [Nat.digitChar day]

def clockText (t : DateTime) : List Char :=
  twoDigits t.hour ++ ':' :: (twoDigits t.minute ++ ':' :: twoDigits t.second)

/-- `Mon DD HH:MM:SS`, with one blank before the day or two. -/
def render (double padded : Bool) (t : DateTime) : List Char :=
  monthName t.month ++
    ' ' :: ((if double then [' '] else []) ++ (dayText padded t.day ++ ' ' :: clockText t))

lemma twoDigits_spec : ∀ n < 100, (∀ ch ∈ twoDigits n, ascii.isDigit ch = true) ∧
    ascii.int (twoDigits n) = n := by
  decide +kernel

lemma dayText_spec : ∀ padded, ∀ n < 32, (∀ ch ∈ dayText padded n, ascii.isDigit ch = true) ∧
    ascii.int (dayText padded n) = n ∧ dayText padded n ≠ [] := by
  decide +kernel

lemma monthName_spec : ∀ n < 13, 1 ≤ n → (∀ ch ∈ monthName n, isSpace ch = false) ∧
    monthName n ≠ [] ∧ months.lookup (String.ofList (monthName n)) = some n := by
  decide +kernel

lemma day_lt (t : DateTime) : t.day < 32 := by
  have hday := t.day_valid.2.trans (daysInMonth_le t.year t.month)
  omega

/-- A rendered time has the three parts it is made of. -/
lemma splitSpace_render (double padded : Bool) (t : DateTime) :
    splitSpace (render double padded t) =
      [monthName t.month, dayText padded t.day, clockText t] := by
  have hmonth := t.month_valid
  have htime := t.time_valid
  obtain ⟨hname, hname', -⟩ := monthName_spec t.month (by omega) hmonth.1
  obtain ⟨hday, -, hday'⟩ := dayText_spec padded t.day (day_lt t)
  have hclock : ∀ ch ∈ clockText t, isSpace ch = false := by
    intro ch hch
    simp only [clockText, List.mem_append, List.mem_cons] at hch
    rcases hch with hch | rfl | hch | rfl | hch
    · exact isSpace_of_ascii_digit ((twoDigits_spec t.hour (by omega)).1 ch hch)
    · rfl
    · exact isSpace_of_ascii_digit ((twoDigits_spec t.minute (by omega)).1 ch hch)
    · rfl
    · exact isSpace_of_ascii_digit ((twoDigits_spec t.second (by omega)).1 ch hch)
  have hclock' : clockText t ≠ [] := List.cons_ne_nil _ _
  rw [render, splitSpace_word hname' hname rfl, splitSpace_spaces ?_,
    splitSpace_word hday' (fun ch hch => isSpace_of_ascii_digit (hday ch hch)) rfl,
    splitSpace_last hclock' hclock]
  cases double <;> decide

/-! ## Reading -/

variable {c : Context} {now t : DateTime}

/-- The digits are read as the time in the current year. -/
lemma bsdLocal_render (hu : c.unicode.Lawful) (hyear : c.year = none) (hsecond : t.microsecond = 0)
    (padded : Bool) :
    bsdLocal c now t.month (dayText padded t.day) (clockText t) = t.replaceYear now.year := by
  have htime := t.time_valid
  obtain ⟨hday, hday', -⟩ := dayText_spec padded t.day (day_lt t)
  obtain ⟨hhour, hhour'⟩ := twoDigits_spec t.hour (by omega)
  obtain ⟨hminute, hminute'⟩ := twoDigits_spec t.minute (by omega)
  obtain ⟨hsec, hsec'⟩ := twoDigits_spec t.second (by omega)
  have hcolon : ∀ {digits : List Char}, (∀ ch ∈ digits, ascii.isDigit ch = true) →
      ':' ∉ digits := fun hdigits hmem => absurd (hdigits ':' hmem) (by decide)
  have hsplit : (clockText t).splitOn ':' =
      [twoDigits t.hour, twoDigits t.minute, twoDigits t.second] := by
    rw [clockText, List.splitOn_append_cons_self_of_not_mem (hcolon hhour),
      List.splitOn_append_cons_self_of_not_mem (hcolon hminute),
      List.splitOn_eq_singleton (hcolon hsec)]
  rw [bsdLocal, hsplit]
  simp only [List.map_cons, List.map_nil, hu.int_eq hhour, hu.int_eq hminute, hu.int_eq hsec,
    hu.int_eq hday, hhour', hminute', hsec', hday', hyear, DateTime.replaceYear, hsecond]
  rfl

/-- What a collector in universal time without a fixed year reads. -/
structure InUtc (c : Context) : Prop where
  unicode : c.unicode.Lawful
  year : c.year = none
  tz : c.tz = utc

/-- The time is read in the current year, or in the year before if that is too far ahead. -/
lemma parseBsdTimestamp_eq (hc : InUtc c) (hnow : now.year ≤ 9000) (hsecond : t.microsecond = 0)
    (double padded : Bool) {localTime : DateTime}
    (hlocal : t.replaceYear now.year = some localTime) :
    parseBsdTimestamp c now (render double padded t) =
      if moreThanADayAhead localTime now then
        match localTime.replaceYear (now.year - 1) with
        | none => some none
        | some earlier => some (some (earlier.micros : ℤ))
      else some (some (localTime.micros : ℤ)) := by
  have hrange : ∀ {d : DateTime}, d.year ≤ 9500 → d.micros < maxOrdinal * microsPerDay :=
    fun hd => (Nat.le_add_right _ _).trans_lt (DateTime.micros_add_lt hd)
  have hend : ¬ maxOrdinal * microsPerDay ≤ now.micros + microsPerDay :=
    Nat.not_le.mpr (DateTime.micros_add_lt (hnow.trans (by decide)))
  have hmonth := t.month_valid
  have hname := (monthName_spec t.month (by omega) hmonth.1).2.2
  rw [parseBsdTimestamp, splitSpace_render]
  simp only [hname, hc.tz, utc, Option.bind_some, bsdLocal_render hc.unicode hc.year hsecond,
    hlocal, inferYear, hc.year, Option.isSome_none, Bool.false_eq_true, if_false, if_neg hend]
  have hyear := (DateTime.replaceYear_spec hlocal).1
  split_ifs with hahead
  · rw [Option.bind_some]
    cases hearlier : localTime.replaceYear (now.year - 1) with
    | none => rfl
    | some earlier =>
        have hyear' := (DateTime.replaceYear_spec hearlier).1
        dsimp only
        rw [toUtc_zero (hrange (by omega)), Option.map_some]
  · rw [Option.bind_some]
    dsimp only
    rw [toUtc_zero (hrange (by omega)), Option.map_some]

section Window

variable (hold : now.micros < t.micros + 364 * microsPerDay)
  (hnew : t.micros ≤ now.micros + microsPerDay)
include hnew

/-- A time of the next year that is at most a day ahead is on New Year's Day. -/
lemma day_of_nextYear (hyear : t.year = now.year + 1) : t.day = 1 := by
  have hlt := now.micros_bounds.2
  have hordinal : t.ordinal ≤ daysBeforeYear t.year + 1 := by
    rw [t.micros_eq] at hnew
    rw [hyear]
    have hpos := t.ordinal_pos
    unfold microsPerDay at hlt hnew
    omega
  have hpos := t.day_valid.1
  unfold DateTime.ordinal at hordinal
  omega

include hold

lemma year_of_window : now.year ≤ t.year + 1 ∧ t.year ≤ now.year + 1 := by
  constructor
  · by_contra hlt
    have hapart := DateTime.micros_lt_of_year t now (by omega)
    unfold microsPerDay at hold hapart
    omega
  · by_contra hlt
    have hapart := DateTime.micros_lt_of_year now t (by omega)
    unfold microsPerDay at hnew hapart
    omega

/-- **A time of the last 364 days or the next day is read back, in the current year at the latest.**
The 29th of February of the previous year is left out. -/
theorem parseBsdTimestamp_render (hc : InUtc c) (hnow : 1972 ≤ now.year ∧ now.year ≤ 9000)
    (hsecond : t.microsecond = 0)
    (hfebruary : ¬ (t.year < now.year ∧ t.month = 2 ∧ t.day = 29)) (double padded : Bool) :
    (t.year ≤ now.year →
      parseBsdTimestamp c now (render double padded t) = some (some (t.micros : ℤ))) ∧
    (now.year < t.year → ∃ early, t.replaceYear now.year = some early ∧
      parseBsdTimestamp c now (render double padded t) = some (some (early.micros : ℤ))) := by
  obtain ⟨hlo, hhi⟩ := year_of_window hold hnew
  constructor
  · intro hle
    rcases Nat.lt_or_eq_of_le hle with hlt | heq
    · -- the current year is too far ahead
      obtain ⟨localTime, hlocal⟩ := DateTime.exists_replaceYear (d := t)
        (⟨by omega, by omega⟩ : 1 ≤ now.year ∧ now.year ≤ 9999) fun hdate => hfebruary ⟨hlt, hdate⟩
      have hsucc : t.year + 1 = now.year := by omega
      have hlate := DateTime.micros_replaceYear_succ (hsucc ▸ hlocal)
      have hahead : moreThanADayAhead localTime now = true := by
        rw [moreThanADayAhead, decide_eq_true_eq]
        unfold microsPerDay at hold hlate ⊢
        omega
      have hback : localTime.replaceYear (now.year - 1) = some t := by
        rw [← hsucc, Nat.add_sub_cancel]
        exact DateTime.replaceYear_replaceYear hlocal
      rw [parseBsdTimestamp_eq hc hnow.2 hsecond double padded hlocal, if_pos hahead, hback]
    · have hlocal : t.replaceYear now.year = some t := heq ▸ t.replaceYear_self
      have hahead : ¬ moreThanADayAhead t now = true := by
        rw [moreThanADayAhead, decide_eq_true_eq]
        exact Nat.not_lt.mpr hnew
      rw [parseBsdTimestamp_eq hc hnow.2 hsecond double padded hlocal, if_neg hahead]
  · intro hlt
    have hsucc : t.year = now.year + 1 := by omega
    have hday := day_of_nextYear hnew hsucc
    obtain ⟨early, hearly⟩ := DateTime.exists_replaceYear (d := t)
      (⟨by omega, by omega⟩ : 1 ≤ now.year ∧ now.year ≤ 9999) fun hdate => by omega
    have hback : early.replaceYear (early.year + 1) = some t := by
      rw [(DateTime.replaceYear_spec hearly).1, ← hsucc]
      exact DateTime.replaceYear_replaceYear hearly
    have hlate := DateTime.micros_replaceYear_succ hback
    have hahead : ¬ moreThanADayAhead early now = true := by
      rw [moreThanADayAhead, decide_eq_true_eq]
      unfold microsPerDay at hnew hlate ⊢
      omega
    refine ⟨early, hearly, ?_⟩
    rw [parseBsdTimestamp_eq hc hnow.2 hsecond double padded hearly, if_neg hahead]

end Window

/-! ## Two New Years -/

def lastSecond : DateTime :=
  ⟨2025, 12, 31, 23, 59, 59, 0, by decide, by decide, by decide, by decide⟩

lemma inUtc_plainContext : InUtc plainContext := ⟨ascii_lawful, rfl, rfl⟩

theorem parseBsdTimestamp_render_lastSecond :
    render true false lastSecond = "Dec  31 23:59:59".toList ∧
    (lastSecond.year ≤ noon.year →
      parseBsdTimestamp plainContext noon (render true false lastSecond) =
        some (some (lastSecond.micros : ℤ))) ∧
    (noon.year < lastSecond.year → ∃ early, lastSecond.replaceYear noon.year = some early ∧
      parseBsdTimestamp plainContext noon (render true false lastSecond) =
        some (some (early.micros : ℤ))) :=
  ⟨by decide +kernel, parseBsdTimestamp_render (by decide +kernel) (by decide +kernel)
    inUtc_plainContext (by decide) rfl (by decide) true false⟩

def newYearsEve : DateTime :=
  ⟨2025, 12, 31, 12, 0, 0, 0, by decide, by decide, by decide, noonTime_valid⟩

/-- Not a day later. -/
def newYearsDay : DateTime :=
  ⟨2026, 1, 1, 6, 0, 0, 0, noonYear_valid, by decide, by decide, by decide⟩

theorem next_year_not_inferred :
    ¬ ∀ (c : Context) (now t : DateTime) (double padded : Bool), InUtc c →
      (1972 ≤ now.year ∧ now.year ≤ 9000) → t.microsecond = 0 →
      now.micros < t.micros + 364 * microsPerDay → t.micros ≤ now.micros + microsPerDay →
      parseBsdTimestamp c now (render double padded t) = some (some (t.micros : ℤ)) := by
  intro hclaim
  have hread := hclaim plainContext newYearsEve newYearsDay true false inUtc_plainContext
    (by decide) rfl (by decide +kernel) (by decide +kernel)
  have hwrong : parseBsdTimestamp plainContext newYearsEve (render true false newYearsDay) ≠
      some (some (newYearsDay.micros : ℤ)) := by
    decide +kernel
  exact hwrong hread

end Sentinel.AuthLog
