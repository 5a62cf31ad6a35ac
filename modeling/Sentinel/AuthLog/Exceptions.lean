import Sentinel.AuthLog.Collector
import Sentinel.AuthLog.Header

/-!
# Lines that make the parser raise

`parse_auth_records` is meant to return a list for every line.  The BSD timestamps keep that: a text
of that shape always has three parts (`splitSpace_of_bsd`), and with the year inferred from the
clock no time comes near the ends of the calendar (`parseBsdTimestamp_ne_none`).  An RFC 3339
timestamp has its own year and offset.  `_parse_iso_timestamp` catches the `ValueError` of a text
that is no time, but not the `OverflowError` of a time whose universal time is before year 1 or
after year 9999, and that exception leaves `_drain_once` with all the lines after it
(`hostile_line`).

`delivers_iff` says that these lines are the only ones: a batch without them is parsed to its end
and every record is passed on.
-/

namespace Sentinel.AuthLog

open Regex Regex.Pattern Calendar PyText

/-! ## BSD timestamps -/

section Bsd

variable {u : Unicode}

/-- **A BSD timestamp has three parts.** -/
lemma splitSpace_of_bsd (hdigits : ∀ ch, u.isDigit ch = true → isSpace ch = false)
    {raw : List Char} (h : (bsdRe u).Accepts raw) :
    ∃ monthName day clock, splitSpace raw = [monthName, day, clock] := by
  obtain ⟨first, letters, gap, spaces, day, gap', clock, rfl, -, hmonth, hspaces, hday, hday',
    hgap', hclock, hclock'⟩ := parts_of_bsd hdigits h
  refine ⟨first :: letters, day, clock, ?_⟩
  rw [splitSpace_word (List.cons_ne_nil _ _) hmonth (hspaces gap List.mem_cons_self),
    splitSpace_spaces (fun ch hch => hspaces ch (List.mem_cons_of_mem _ hch)),
    splitSpace_word hday hday' hgap', splitSpace_last hclock hclock']

variable {c : Context} {now : DateTime}

/-- The clock of the zone is near the clock. -/
lemma year_of_current (hnow : 1971 ≤ now.year ∧ now.year ≤ 9000) {current : DateTime}
    (hlt : current.micros < now.micros + microsPerDay)
    (hgt : now.micros < current.micros + microsPerDay) :
    3 ≤ current.year ∧ current.year ≤ 9500 ∧
      current.micros + microsPerDay < maxOrdinal * microsPerDay := by
  have hnow₁ := now.micros_lt
  have hnow₂ := now.le_micros
  have hcurrent₁ := current.micros_lt
  have hcurrent₂ := current.le_micros
  unfold microsPerDay at *
  unfold maxOrdinal
  omega

/-- The inferred year is the one of the clock or the one before. -/
lemma exists_inferYear (hyear : c.year = none) {current localTime : DateTime}
    (hcurrent : current.micros + microsPerDay < maxOrdinal * microsPerDay)
    (hlocal : localTime.year = current.year) :
    ∃ inferred, inferYear c current localTime = some inferred ∧
      ∀ d ∈ inferred, current.year - 1 ≤ d.year ∧ d.year ≤ current.year := by
  have hnone : ¬ c.year.isSome = true := by simp [hyear]
  rw [inferYear, if_neg hnone, if_neg (Nat.not_le.mpr hcurrent)]
  split_ifs
  · refine ⟨_, rfl, ?_⟩
    intro d hd
    rw [DateTime.year_of_new hd]
    omega
  · refine ⟨_, rfl, ?_⟩
    intro d hd
    rw [← Option.some.inj hd, hlocal]
    omega

lemma year_of_bsdLocal (hyear : c.year = none) {current localTime : DateTime} {month : ℕ}
    {day clock : List Char} (h : bsdLocal c current month day clock = some localTime) :
    localTime.year = current.year := by
  unfold bsdLocal at h
  split at h
  · rw [DateTime.year_of_new h, hyear]
    rfl
  · cases h

/-- **A BSD timestamp never raises.** -/
lemma parseBsdTimestamp_ne_none (hyear : c.year = none) (htz : c.tz.Regular)
    (hnow : 1971 ≤ now.year ∧ now.year ≤ 9000) {raw monthName day clock : List Char}
    (hraw : splitSpace raw = [monthName, day, clock]) : parseBsdTimestamp c now raw ≠ none := by
  obtain ⟨current, hcurrent, hlt, hgt⟩ := htz.fromUtc now (by omega) (by omega)
  obtain ⟨hlo, hhi, hend⟩ := year_of_current hnow hlt hgt
  rw [parseBsdTimestamp, hraw]
  dsimp only
  cases months.lookup (String.ofList monthName) with
  | none => exact Option.some_ne_none _
  | some month =>
      dsimp only
      rw [hcurrent, Option.bind_some]
      cases hlocal : bsdLocal c current month day clock with
      | none => exact Option.some_ne_none _
      | some localTime =>
          dsimp only
          obtain ⟨inferred, hinferred, hbounds⟩ :=
            exists_inferYear hyear hend (year_of_bsdLocal hyear hlocal)
          rw [hinferred, Option.bind_some]
          cases inferred with
          | none => exact Option.some_ne_none _
          | some d =>
              have hd : 2 ≤ d.year ∧ d.year ≤ 9500 := by
                have hyears := hbounds d rfl
                omega
              obtain ⟨t, ht⟩ := exists_toUtc hd (htz.utcOffset d)
              dsimp only
              rw [ht]
              exact Option.some_ne_none _

end Bsd

/-! ## Hostile lines -/

/-- The universal time of a local time is before year 1 or after year 9999. -/
def leavesCalendar (d : DateTime) (offset : ℤ) : Bool :=
  decide ((d.micros : ℤ) < offset * 1000000 ∨
    (maxOrdinal * microsPerDay : ℕ) ≤ (d.micros : ℤ) - offset * 1000000)

lemma toUtc_eq_none (d : DateTime) (offset : ℤ) :
    toUtc d offset = none ↔ leavesCalendar d offset = true := by
  rw [toUtc, leavesCalendar, decide_eq_true_eq]
  split_ifs with hrange
  · refine ⟨fun hnone => (by cases hnone), ?_⟩
    omega
  · refine ⟨fun _ => ?_, fun _ => rfl⟩
    omega

/-- The line is one of `sshd` with a message that is recognised, and its RFC 3339 timestamp is a
time whose universal time is outside the calendar. -/
def isHostile (u : Unicode) (line : List Char) : Bool :=
  decide (line.length ≤ maxLineLen) &&
    match (syslogRe u).matchText (line.rdropWhile (· == '\n')) with
    | none => false
    | some syslog =>
        decide (String.ofList (Match.text syslog .proc) ∈ sshdProcs) &&
        (matchBody u (unwrapRepeat u (Match.text syslog .msg)).1).isSome &&
        (Match.get syslog .bsd).isNone &&
        match fromIsoFormat (Match.text syslog .iso) with
        | none => false
        | some (d, offset) => leavesCalendar d offset

lemma parseIsoTimestamp_eq_none (raw : List Char) :
    parseIsoTimestamp raw = none ↔
      ∃ d offset, fromIsoFormat raw = some (d, offset) ∧ leavesCalendar d offset = true := by
  rw [parseIsoTimestamp]
  cases fromIsoFormat raw with
  | none => simp
  | some time =>
      obtain ⟨d, offset⟩ := time
      rw [Option.map_eq_none_iff, toUtc_eq_none]
      simp

/-- The arguments the collector passes. -/
structure Collects (c : Context) (now : DateTime) : Prop where
  year : c.year = none
  tz : c.tz.Regular
  digits : ∀ ch, c.unicode.isDigit ch = true → isSpace ch = false
  now : 1971 ≤ now.year ∧ now.year ≤ 9000

/-- The groups of a header. -/
lemma groupsOf_syslogRe (u : Unicode) :
    (syslogRe u).groupsOf =
      [(.bsd, bsdRe u), (.iso, isoRe u), (.host, nonSpaces),
        (.proc, .rep (fun c => u.isWord c || c == '/' || c == '.' || c == '-') 1 none false),
        (.pid, digitsUpTo u 10), (.msg, .rep dot 0 none true)] :=
  rfl

/-- What a match calls `bsd` is accepted by its pattern. -/
lemma accepts_bsd {u : Unicode} {text raw : List Char} {syslog : Match}
    (h : (syslogRe u).matchText text = some syslog) (hraw : Match.get syslog .bsd = some raw) :
    (bsdRe u).Accepts raw := by
  have hmem : (Group.bsd, raw) ∈ syslog := by
    obtain ⟨before, after, hsplit, -⟩ := List.lookup_eq_some_iff.mp hraw
    rw [hsplit]
    simp
  obtain ⟨b, hb, haccepts⟩ := accepts_of_matchText h _ hmem
  rw [groupsOf_syslogRe] at hb
  have hb' : b = bsdRe u := by simpa using hb
  rw [← hb']
  exact haccepts

/-- **Exactly the hostile lines raise.** -/
lemma parseAuthRecords_eq_none {c : Context} {now : DateTime} (hc : Collects c now)
    (line : List Char) : parseAuthRecords c now line = none ↔ isHostile c.unicode line = true := by
  rw [parseAuthRecords, isHostile]
  by_cases hlen : line.length > maxLineLen
  · rw [if_pos hlen, decide_eq_false (Nat.not_le.mpr hlen)]
    simp
  rw [if_neg hlen, decide_eq_true (Nat.not_lt.mp hlen), Bool.true_and]
  cases hsyslog : (syslogRe c.unicode).matchText (line.rdropWhile (· == '\n')) with
  | none => simp
  | some syslog =>
      dsimp only
      by_cases hproc : String.ofList (Match.text syslog .proc) ∈ sshdProcs
      swap
      · rw [if_pos hproc, decide_eq_false hproc]
        simp
      rw [if_neg (not_not.mpr hproc), decide_eq_true hproc, Bool.true_and]
      cases hbody : matchBody c.unicode (unwrapRepeat c.unicode (Match.text syslog .msg)).1 with
      | none => simp
      | some body =>
          dsimp only
          rw [Option.map_eq_none_iff, headerTimestamp]
          cases hbsd : Match.get syslog .bsd with
          | some raw =>
              obtain ⟨monthName, day, clock, hraw⟩ :=
                splitSpace_of_bsd hc.digits (accepts_bsd hsyslog hbsd)
              have hgood := parseBsdTimestamp_ne_none hc.year hc.tz hc.now hraw
              simp [hgood]
          | none =>
              dsimp only
              rw [parseIsoTimestamp_eq_none]
              cases fromIsoFormat (Match.text syslog .iso) with
              | none => simp
              | some time =>
                  obtain ⟨d, offset⟩ := time
                  simp

/-! ## Batches -/

/-- Every line of the batch yields a list of records, and all of them are passed to the normalizer,
in order and up to their numbering. -/
def Delivers (c : Context) (s : Counters) (reads : List Read) : Prop :=
  ∃ records : List (List RawAuthEvent),
    reads.map (fun read => parseAuthRecords c read.now read.line) = records.map some ∧
    (drainLines c s reads).1.map (fun r => withOccurrence r 0) =
      records.flatten.map fun r => withOccurrence r 0

/-- Numbering changes only the occurrences. -/
lemma map_number (s : Counters) (records : List RawAuthEvent) :
    (number s records).1.map (fun r => withOccurrence r 0) =
      records.map fun r => withOccurrence r 0 := by
  cases records with
  | nil => rfl
  | cons first rest =>
      simp only [number]
      split_ifs
      · rfl
      · rw [List.map_map]
        rfl
      · rfl
      · rw [List.map_map]
        rfl

/-- A batch of which no line raises is parsed to its end. -/
lemma delivers_of_some (c : Context) (reads : List Read) :
    ∀ s : Counters, (∀ read ∈ reads, parseAuthRecords c read.now read.line ≠ none) →
      Delivers c s reads := by
  induction reads with
  | nil => exact fun s _ => ⟨[], rfl, rfl⟩
  | cons read reads ih =>
      intro s h
      obtain ⟨records, hrecords⟩ := Option.ne_none_iff_exists'.mp (h read List.mem_cons_self)
      obtain ⟨later, hlater, hdrain⟩ :=
        ih (number s records).2 fun r hr => h r (List.mem_cons_of_mem _ hr)
      refine ⟨records :: later, ?_, ?_⟩
      · rw [List.map_cons, List.map_cons, hrecords, hlater]
      · simp only [drainLines, hrecords]
        rw [List.map_append, List.flatten_cons, List.map_append, map_number, hdrain]

/-- **A batch is delivered exactly if it has no hostile line.** -/
theorem delivers_iff (c : Context) (s : Counters) (reads : List Read)
    (hc : ∀ read ∈ reads, Collects c read.now) :
    Delivers c s reads ↔ ∀ read ∈ reads, isHostile c.unicode read.line = false := by
  constructor
  · rintro ⟨records, hrecords, -⟩ read hread
    rw [Bool.eq_false_iff]
    intro hhostile
    have hmem : parseAuthRecords c read.now read.line ∈ records.map some := by
      rw [← hrecords]
      exact List.mem_map_of_mem hread
    rw [(parseAuthRecords_eq_none (hc read hread) read.line).mpr hhostile] at hmem
    simp at hmem
  · intro h
    refine delivers_of_some c reads s ?_
    intro read hread hnone
    have hhostile := (parseAuthRecords_eq_none (hc read hread) read.line).mp hnone
    rw [h read hread] at hhostile
    cases hhostile

/-! ## Two batches -/

/-- A collector in universal time on a host whose names are ASCII. -/
def plainContext : Context where
  unicode := ascii

lemma noonYear_valid : 1 ≤ 2026 ∧ 2026 ≤ 9999 := by decide

lemma noonTime_valid : 12 < 24 ∧ 0 < 60 ∧ 0 < 60 ∧ 0 < 1000000 := by decide

def noon : DateTime :=
  ⟨2026, 6, 16, 12, 0, 0, 0, noonYear_valid, by decide, by decide, noonTime_valid⟩

def atNoon (line : String) : Read where
  line := line.toList
  now := noon

lemma collects_noon : Collects plainContext noon :=
  ⟨rfl, utc_regular, fun _ => isSpace_of_ascii_digit, by decide⟩

/-- Both kinds of timestamp, a time that does not exist and no header at all. -/
def mixedBatch : List Read :=
  [atNoon "Jun 16 11:59:59 web sshd[9]: Failed password for root from 1.2.3.4 port 22 ssh2",
    atNoon "2026-06-16T13:59:59+02:00 web sshd[9]: Accepted publickey for ann from 1.2.3.4 port 23",
    atNoon "Feb 30 11:59:59 web sshd[9]: Failed password for root from 1.2.3.4 port 22 ssh2",
    atNoon "nothing"]

theorem delivers_iff_mixedBatch :
    (drainLines plainContext {} mixedBatch).1.map (fun r => r.user) = ["root", "ann"] ∧
      Delivers plainContext {} mixedBatch := by
  refine ⟨by decide +kernel, ?_⟩
  have hc : ∀ read ∈ mixedBatch, Collects plainContext read.now := by
    intro read hread
    simp only [mixedBatch, List.mem_cons, List.not_mem_nil, or_false] at hread
    rcases hread with rfl | rfl | rfl | rfl <;> exact collects_noon
  exact (delivers_iff plainContext {} mixedBatch hc).mpr (by decide +kernel)

/-- A time that is in year 1 where it was written, and before it in universal time. -/
def yearZero : Read :=
  atNoon "0001-01-01T00:00:00+23:59 web sshd[9]: Failed password for root from 1.2.3.4 port 22 ssh2"

theorem hostile_line :
    ¬ ∀ (c : Context) (s : Counters) (reads : List Read),
      (∀ read ∈ reads, Collects c read.now) → Delivers c s reads := by
  intro hclaim
  have hc : ∀ read ∈ [yearZero], Collects plainContext read.now := by
    intro read hread
    rw [List.mem_singleton.mp hread]
    exact collects_noon
  obtain ⟨records, hrecords, -⟩ := hclaim plainContext {} [yearZero] hc
  have hraises : (parseAuthRecords plainContext yearZero.now yearZero.line).isNone := by
    decide +kernel
  rw [List.map_singleton, Option.isNone_iff_eq_none.mp hraises] at hrecords
  cases records <;> simp at hrecords

end Sentinel.AuthLog
