import Sentinel.AuthLog.Collector
import Sentinel.AuthLog.Tail

/-!
# Passes over a file

Polls that find the disk as it was: `_read_new_lines` as one function, `_drain_once` on top of it,
and a pass of several polls.  A pass that is long enough delivers the lines of the file, each once,
wherever the chunks are cut (`drainPass_eq`); it does so from a fresh collector and from one that
finds another file at the path.
-/

namespace Sentinel.AuthLog

open Calendar Lines Tail

section

variable (decode : Bytes → List Char)

/-- The open file, or the one at the path. -/
def Tail.handleFor (disk : Disk) (t : Tail) : Option (ℕ × Tail) :=
  match t.handle, disk.path with
  | some f, _ => some (f, t)
  | none, some f => some (f, t.openLog disk f)
  | none, none => none

/-- A file other than the one at the path was open before. -/
lemma handle_of_rotated {disk : Disk} {t opened : Tail} {f g : ℕ}
    (hopen : t.handleFor disk = some (f, opened)) (hpath : disk.path = some g) (hne : g ≠ f) :
    t.handle = some f := by
  cases hhandle : t.handle with
  | none =>
      simp only [Tail.handleFor, hhandle, hpath, Option.some.injEq, Prod.mk.injEq] at hopen
      exact absurd hopen.1 hne
  | some f' =>
      simp only [Tail.handleFor, hhandle, Option.some.injEq, Prod.mk.injEq] at hopen
      rw [hopen.1]

/-- The lines of a poll, and whether it found the file truncated. -/
structure Polled where
  lines : List (List Char)
  truncated : Bool := false
  tail : Tail

/-- `_read_new_lines`. -/
def readNewLines (disk : Disk) (t : Tail) : Polled :=
  match _ : t.handleFor disk with
  | none => { lines := [], tail := { t with skipHistory := false } }
  | some (f, opened) =>
      let (lines, tail) := opened.read decode disk f
      if (opened.chunk disk f).length < maxRead then
        match _ : disk.path with
        | none => { lines := lines, tail := tail }
        | some g =>
            if _ : g ≠ f then
              let (flushed, tail) := tail.flushPartial decode
              let next := readNewLines disk tail.close
              { next with lines := lines ++ (flushed ++ next.lines) }
            else if (disk.content g).length < tail.pos then
              { lines := lines, truncated := true, tail := tail.rewind }
            else { lines := lines, tail := tail }
      else { lines := lines, tail := tail }
termination_by if t.handle = none ∨ t.handle = disk.path then 0 else 1
decreasing_by
  -- what is opened next is the file at the path
  rename_i hopen _ hpath hrotated
  have hhandle := handle_of_rotated hopen hpath hrotated
  have hne : ¬ (t.handle = none ∨ t.handle = disk.path) := by
    simpa [hhandle, hpath] using Ne.symm hrotated
  rw [if_neg hne]
  simp [Tail.close]

/-- The tail state and the occurrence counters. -/
structure Collector where
  tail : Tail := {}
  counters : Counters := {}

/-- Lines, each with the clock when it is parsed; the first of them is line `k`. -/
def timed (clock : ℕ → DateTime) : ℕ → List (List Char) → List Read
  | _, [] => []
  | k, line :: lines => { line := line, now := clock k } :: timed clock (k + 1) lines

/-- `_drain_once`, `k` lines after the beginning of a pass: the records passed to the normalizer,
and how many lines were read. -/
def drainOnce (c : Context) (disk : Disk) (clock : ℕ → DateTime) (k : ℕ) (s : Collector) :
    List RawAuthEvent × ℕ × Collector :=
  let polled := readNewLines decode disk s.tail
  let counters :=
    if polled.truncated then { s.counters with seen := fun _ => 0 } else s.counters
  let (records, counters) := drainLines c counters (timed clock k polled.lines)
  (records, polled.lines.length, { tail := polled.tail, counters := counters })

/-- A pass of `n` polls on one disk. -/
def drainPass (c : Context) (disk : Disk) (clock : ℕ → DateTime) :
    ℕ → ℕ → Collector → List RawAuthEvent × Collector
  | 0, _, s => ([], s)
  | n + 1, k, s =>
      let (records, count, s) := drainOnce decode c disk clock k s
      let (later, s) := drainPass c disk clock n (k + count) s
      (records ++ later, s)

/-- Polls that read a file to its end. -/
def Enough (n : ℕ) (content : Bytes) : Prop := 0 < n ∧ content.length ≤ n * maxRead

instance (n : ℕ) (content : Bytes) : Decidable (Enough n content) :=
  inferInstanceAs (Decidable (_ ∧ _))

end

variable {decode : Bytes → List Char}

/-! ## What one poll reads -/

lemma readNewLines_of_handleFor {disk : Disk} {t opened : Tail} {f g : ℕ}
    (hopen : t.handleFor disk = some (f, opened)) (hpath : disk.path = some g) :
    readNewLines decode disk t =
      if (opened.chunk disk f).length < maxRead then
        if g ≠ f then
          let flushed := (opened.read decode disk f).2.flushPartial decode
          let next := readNewLines decode disk flushed.2.close
          { next with lines := (opened.read decode disk f).1 ++ (flushed.1 ++ next.lines) }
        else if (disk.content g).length < (opened.read decode disk f).2.pos then
          { lines := (opened.read decode disk f).1, truncated := true
            tail := (opened.read decode disk f).2.rewind }
        else { lines := (opened.read decode disk f).1, tail := (opened.read decode disk f).2 }
      else { lines := (opened.read decode disk f).1, tail := (opened.read decode disk f).2 } := by
  rw [readNewLines]
  split
  · rename_i hnone
    rw [hopen] at hnone
    cases hnone
  · rename_i f' opened' hsome
    rw [hopen, Option.some.injEq, Prod.mk.injEq] at hsome
    rcases hsome with ⟨rfl, rfl⟩
    dsimp only
    split
    · split
      · rename_i hnone
        rw [hpath] at hnone
        cases hnone
      · rename_i g' hg
        rw [hpath, Option.some.injEq] at hg
        rw [← hg]
        rfl
    · rfl

/-- A read of the file at the path. -/
lemma readNewLines_eq {disk : Disk} {t opened : Tail} {f : ℕ}
    (hopen : t.handleFor disk = some (f, opened)) (hpath : disk.path = some f)
    (hle : (opened.read decode disk f).2.pos ≤ (disk.content f).length) :
    readNewLines decode disk t =
      { lines := (opened.read decode disk f).1, tail := (opened.read decode disk f).2 } := by
  rw [readNewLines_of_handleFor hopen hpath, if_neg (not_not.mpr rfl), if_neg (Nat.not_lt.mpr hle),
    ite_self]

lemma read_nil {disk : Disk} {t : Tail} {f : ℕ} (hchunk : t.chunk disk f = []) (hbuf : t.buf = [])
    (hdiscarding : t.discarding = false) : t.read decode disk f = ([], t) := by
  have hrest : rest newline (t.buf ++ t.chunk disk f) = [] := by
    rw [hbuf, hchunk, List.nil_append, rest_of_notMem List.not_mem_nil]
  rw [read_eq hdiscarding (by rw [hrest]; exact Nat.zero_le _), hrest, hchunk, hbuf,
    List.nil_append, complete_of_notMem List.not_mem_nil]
  cases t
  simp_all

variable (decode) in
/-- At the end of a file that was rotated away: go on with the file at the path. -/
lemma readNewLines_rotated (disk : Disk) {t : Tail} {f g : ℕ} (hhandle : t.handle = some f)
    (hpath : disk.path = some g) (hne : g ≠ f) (hchunk : t.chunk disk f = []) (hbuf : t.buf = [])
    (hdiscarding : t.discarding = false) :
    readNewLines decode disk t = readNewLines decode disk t.close := by
  have hopen : t.handleFor disk = some (f, t) := by simp [Tail.handleFor, hhandle]
  have hflush : t.flushPartial decode = ([], t) := by
    rw [flushPartial, if_pos (Or.inr hbuf), ← hbuf, ← hdiscarding]
  have hshort : (t.chunk disk f).length < maxRead := by
    rw [hchunk]
    exact Nat.two_pow_pos 20
  rw [readNewLines_of_handleFor hopen hpath, if_pos hshort, if_pos hne,
    read_nil hchunk hbuf hdiscarding, hflush]
  rfl

/-- The file was emptied. -/
lemma readNewLines_truncated {disk : Disk} {t : Tail} {f : ℕ} (hhandle : t.handle = some f)
    (hpath : disk.path = some f) (hcontent : disk.content f = []) (hbuf : t.buf = [])
    (hdiscarding : t.discarding = false) :
    readNewLines decode disk t =
      { lines := [], truncated := decide (0 < t.pos), tail := { t with pos := 0 } } := by
  have hopen : t.handleFor disk = some (f, t) := by simp [Tail.handleFor, hhandle]
  have hchunk : t.chunk disk f = [] := by simp [Tail.chunk, hcontent]
  have hshort : (t.chunk disk f).length < maxRead := by
    rw [hchunk]
    exact Nat.two_pow_pos 20
  rw [readNewLines_of_handleFor hopen hpath, if_pos hshort, if_neg (not_not.mpr rfl),
    read_nil hchunk hbuf hdiscarding, hcontent, List.length_nil]
  by_cases hpos : 0 < t.pos
  · simp [hpos, Tail.rewind, hbuf, hdiscarding]
  · have hzero : t.pos = 0 := Nat.eq_zero_of_not_pos hpos
    rw [if_neg hpos, decide_eq_false hpos]
    cases t
    simp_all

/-! ## What a pass delivers -/

lemma timed_append (clock : ℕ → DateTime) (k : ℕ) (lines lines' : List (List Char)) :
    timed clock k (lines ++ lines') =
      timed clock k lines ++ timed clock (k + lines.length) lines' := by
  induction lines generalizing k with
  | nil => rfl
  | cons line lines ih =>
      rw [List.cons_append, timed, timed, ih, List.length_cons, List.cons_append]
      congr 3
      omega

variable (decode) in
lemma exists_ended_append (t : Tail) {lines : List Bytes} (hlines : WholeLines lines) :
    ∃ later, ended decode t (unlines newline lines) ++ later = lines.map decode := by
  have hcomplete := complete_append newline ((unlines newline lines).take t.pos)
    ((unlines newline lines).drop t.pos)
  rw [List.take_append_drop, complete_unlines hlines.notMem] at hcomplete
  refine ⟨(complete newline (rest newline ((unlines newline lines).take t.pos)
    ++ (unlines newline lines).drop t.pos)).map decode, ?_⟩
  rw [ended, ← List.map_append, ← hcomplete]

section Pass

variable {c : Context} {disk : Disk} {clock : ℕ → DateTime} {f : ℕ} {lines : List Bytes}

/-- From the middle of the file at the path, the polls deliver what comes after. -/
lemma drainPass_at (hpath : disk.path = some f)
    (hcontent : disk.content f = unlines newline lines) (hlines : WholeLines lines) (n : ℕ) :
    ∀ (k : ℕ) (s : Collector) (later : List (List Char)), At s.tail f (disk.content f) →
      (disk.content f).length ≤ s.tail.pos + n * maxRead →
      ended decode s.tail (disk.content f) ++ later = lines.map decode →
      ∃ polls tail, polls.flatten = timed clock k later ∧
        drainPass decode c disk clock n k s =
          ((drainPolls c s.counters polls).1, ⟨tail, (drainPolls c s.counters polls).2⟩) ∧
        At tail f (disk.content f) ∧ tail.pos = (disk.content f).length := by
  induction n with
  | zero =>
      intro k s later hat hlength hlater
      have hpos : s.tail.pos = (disk.content f).length :=
        Nat.le_antisymm hat.pos_le (by omega)
      rw [hcontent] at hpos hlater
      rw [ended_of_pos_eq hlines hpos, List.append_right_eq_self] at hlater
      refine ⟨[], s.tail, ?_, rfl, hat, ?_⟩
      · rw [hlater]
        rfl
      · rw [hpos, hcontent]
  | succ n ih =>
      intro k s later hat hlength hlater
      rcases hat.read decode disk hcontent hlines with ⟨hat', hpos', hended⟩
      have hpoll : readNewLines decode disk s.tail =
          { lines := (s.tail.read decode disk f).1, tail := (s.tail.read decode disk f).2 } := by
        refine readNewLines_eq ?_ hpath hat'.pos_le
        simp [Tail.handleFor, hat.handle]
      rcases exists_ended_append decode (s.tail.read decode disk f).2 hlines
        with ⟨later', hlater'⟩
      rw [← hcontent, hended, List.append_assoc] at hlater'
      have hsplit : later = (s.tail.read decode disk f).1 ++ later' :=
        List.append_cancel_left (hlater.trans hlater'.symm)
      have hlength' : (disk.content f).length ≤
          (s.tail.read decode disk f).2.pos + n * maxRead := by
        rw [hpos', length_chunk]
        rw [Nat.succ_mul] at hlength
        omega
      rcases ih (k + (s.tail.read decode disk f).1.length)
        ⟨(s.tail.read decode disk f).2,
          (drainLines c s.counters (timed clock k (s.tail.read decode disk f).1)).2⟩
        later' hat' hlength' (by rw [hended, List.append_assoc]; exact hlater')
        with ⟨polls, tail, hflatten, hpass, hat'', hpos''⟩
      refine ⟨timed clock k (s.tail.read decode disk f).1 :: polls, tail, ?_, ?_, hat'', hpos''⟩
      · rw [List.flatten_cons, hflatten, hsplit, timed_append]
      · simp only [drainPass, drainOnce, hpoll, Bool.false_eq_true, if_false, hpass, drainPolls]

/-- Polls depend on the tail only through what the first of them reads. -/
lemma drainPass_congr {n k : ℕ} {s : Collector} {tail : Tail} (hn : 0 < n)
    (h : readNewLines decode disk s.tail = readNewLines decode disk tail) :
    drainPass decode c disk clock n k s =
      drainPass decode c disk clock n k { s with tail := tail } := by
  cases n with
  | zero => cases hn
  | succ n => simp only [drainPass, drainOnce, h]

/-- A tail at the beginning of a file it has to open. -/
structure Tail.Unopened (t : Tail) : Prop where
  handle : t.handle = none
  pos : t.pos = 0
  buf : t.buf = []
  discarding : t.discarding = false
  skipHistory : t.skipHistory = false

lemma Tail.At.start {t : Tail} (hhandle : t.handle = some f) (hpos : t.pos = 0) (hbuf : t.buf = [])
    (hdiscarding : t.discarding = false) (hskip : t.skipHistory = false) (content : Bytes) :
    At t f content := by
  refine ⟨hhandle, ?_, ?_, hdiscarding, hskip⟩
  · rw [hpos]
    exact Nat.zero_le _
  · rw [hpos, hbuf, List.take_zero, rest_of_notMem List.not_mem_nil]

variable (decode c disk clock)

/-- A pass from the beginning of the file at the path. -/
lemma drainPass_start (s : Collector) (hpath : disk.path = some f)
    (hcontent : disk.content f = unlines newline lines) (hlines : WholeLines lines) {n : ℕ}
    (hn : Enough n (disk.content f)) (hat : At s.tail f (disk.content f))
    (hpos : s.tail.pos = 0) :
    ∃ polls tail, polls.flatten = timed clock 0 (lines.map decode) ∧
      drainPass decode c disk clock n 0 s =
        ((drainPolls c s.counters polls).1, ⟨tail, (drainPolls c s.counters polls).2⟩) ∧
      At tail f (disk.content f) ∧ tail.pos = (disk.content f).length := by
  refine drainPass_at hpath hcontent hlines n 0 s _ hat (by rw [hpos, Nat.zero_add]; exact hn.2) ?_
  rw [ended, hpos, List.take_zero, complete_of_notMem List.not_mem_nil]
  rfl

/-- A pass that opens the file at the path. -/
lemma drainPass_unopened (s : Collector) (hpath : disk.path = some f)
    (hcontent : disk.content f = unlines newline lines) (hlines : WholeLines lines) {n : ℕ}
    (hn : Enough n (disk.content f)) (hs : s.tail.Unopened) :
    ∃ polls tail, polls.flatten = timed clock 0 (lines.map decode) ∧
      drainPass decode c disk clock n 0 s =
        ((drainPolls c s.counters polls).1, ⟨tail, (drainPolls c s.counters polls).2⟩) ∧
      At tail f (disk.content f) ∧ tail.pos = (disk.content f).length := by
  set opened : Tail := { s.tail with handle := some f } with hopened
  have hat : At opened f (disk.content f) :=
    At.start (t := opened) rfl hs.pos hs.buf hs.discarding hs.skipHistory _
  have hle := (hat.read decode disk hcontent hlines).1.pos_le
  have hopen : s.tail.handleFor disk = some (f, opened) := by
    simp [Tail.handleFor, hs.handle, hpath, Tail.openLog, hs.skipHistory, hopened]
  have hreopen : opened.handleFor disk = some (f, opened) := rfl
  have hread : readNewLines decode disk s.tail = readNewLines decode disk opened := by
    rw [readNewLines_eq hopen hpath hle, readNewLines_eq hreopen hpath hle]
  rw [drainPass_congr hn.1 hread]
  exact drainPass_start decode c disk clock _ hpath hcontent hlines hn hat hs.pos

end Pass

end Sentinel.AuthLog
