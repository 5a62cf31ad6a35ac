import Sentinel.AuthLog.Passes
import Sentinel.AuthLog.Renumbering

/-!
# Reading a log again

A collector reads a file to its end and then reads the same lines again, because the file was
truncated and rewritten or because a file with the same content was rotated in.  The ids of the
second pass are those of the first if its records are numbered alike.  A truncation clears the
occurrence counters; a rotation does not, and they are cleared only when the timestamp changes.  So
after a rotation a record is numbered on from the first pass if it is in the first run of equal
timestamps, that timestamp is also the last one of the file, and the same record is in the last run.
`reread_ids_iff` says that the ids are the same exactly when this does not happen.

Whether a line yields records can depend on the clock, through the year of its timestamp; the lines
are taken to be read at times that make no difference.
-/

namespace Sentinel.AuthLog

open Calendar Lines Tail

section

variable (decode : Bytes → List Char)

/-- The file `f` at the path; every file has the same content. -/
def logDisk (f : ℕ) (content : Bytes) : Disk where
  path := some f
  content _ := content

/-- Why the lines are read again. -/
inductive Again where
  | truncated
  | rotated (g : ℕ)
deriving DecidableEq, Repr

/-- The second pass: a poll that finds the file empty, and the polls of the rewritten file; or the
polls of another file. -/
def readAgain (c : Context) (f : ℕ) (content : Bytes) (again : Again) (clock : ℕ → DateTime) (n : ℕ)
    (s : Collector) : List RawAuthEvent × Collector :=
  match again with
  | .truncated =>
      let (observed, _, s) := drainOnce decode c (logDisk f []) clock 0 s
      let (records, s) := drainPass decode c (logDisk f content) clock n 0 s
      (observed ++ records, s)
  | .rotated g => drainPass decode c (logDisk g content) clock n 0 s

/-- A fresh collector reads the file. -/
def firstPass (c : Context) (f : ℕ) (content : Bytes) (clock : ℕ → DateTime) (n : ℕ) :
    List RawAuthEvent × Collector :=
  drainPass decode c (logDisk f content) clock n 0 {}

end

/-- The timestamps and keys of the lines that yield records. -/
def recordKeys (c : Context) (reads : List Read) : List (String × Key) :=
  (batches c [reads]).filterMap fun batch => batch.head?.map fun r => (r.syslogTs, keyOf r)

variable {decode : Bytes → List Char} {c : Context} {clock clock' : ℕ → DateTime}

/-! ## Lines that do not raise -/

lemma parsed_append {reads reads' : List Read}
    (h : ∀ read ∈ reads, (parseAuthRecords c read.now read.line).isSome) :
    parsed c (reads ++ reads') = parsed c reads ++ parsed c reads' := by
  induction reads with
  | nil => rfl
  | cons read reads ih =>
      rcases Option.isSome_iff_exists.mp (h read List.mem_cons_self) with ⟨records, hrecords⟩
      have htail := ih fun r hr => h r (List.mem_cons_of_mem _ hr)
      simp only [List.cons_append, parsed, hrecords, htail]

lemma flatMap_parsed {polls : List (List Read)}
    (h : ∀ read ∈ polls.flatten, (parseAuthRecords c read.now read.line).isSome) :
    polls.flatMap (parsed c) = parsed c polls.flatten := by
  induction polls with
  | nil => rfl
  | cons poll polls ih =>
      rw [List.flatten_cons] at h ⊢
      rw [List.flatMap_cons, parsed_append fun read hread => h read (List.mem_append_left _ hread),
        ih fun read hread => h read (List.mem_append_right _ hread)]

/-- If nothing raises, the cuts between polls do not matter. -/
lemma drainPolls_eq_parsed {polls : List (List Read)} (s : Counters)
    (h : ∀ read ∈ polls.flatten, (parseAuthRecords c read.now read.line).isSome) :
    drainPolls c s polls = numberBatches s (parsed c polls.flatten) := by
  rw [drainPolls_eq, batches, numberBatches_filter, flatMap_parsed h]

variable (c clock clock') in
/-- Lines that are settled raise at neither reading, and yield the same but for the times. -/
lemma parsed_of_settled (k : ℕ) (lines : List (List Char))
    (h : ∀ i line, lines[i]? = some line → Settled c line (clock (k + i)) (clock' (k + i))) :
    (∀ read ∈ timed clock k lines, (parseAuthRecords c read.now read.line).isSome) ∧
      (∀ read ∈ timed clock' k lines, (parseAuthRecords c read.now read.line).isSome) ∧
      (parsed c (timed clock k lines)).map (fun batch => batch.map untimed) =
        (parsed c (timed clock' k lines)).map (fun batch => batch.map untimed) := by
  induction lines generalizing k with
  | nil => exact ⟨by simp [timed], by simp [timed], rfl⟩
  | cons line lines ih =>
      have hline : Settled c line (clock k) (clock' k) := h 0 line rfl
      have htail := ih (k + 1) (by
        intro i l hl
        have hi := h (i + 1) l hl
        rwa [show k + (i + 1) = k + 1 + i by omega] at hi)
      rcases htail with ⟨hsome, hsome', huntimed⟩
      have hsettled := hline
      rcases hsettled with ⟨records, records', hparse, hparse', -⟩
      refine ⟨?_, ?_, ?_⟩
      · intro read hread
        rcases List.mem_cons.mp hread with rfl | hread
        · exact Option.isSome_iff_exists.mpr ⟨records, hparse⟩
        · exact hsome read hread
      · intro read hread
        rcases List.mem_cons.mp hread with rfl | hread
        · exact Option.isSome_iff_exists.mpr ⟨records', hparse'⟩
        · exact hsome' read hread
      · simp only [timed, parsed, hparse, hparse', List.map_cons, huntimed,
          hline.untimed_eq hparse hparse']

/-! ## The second pass -/

lemma eq_nil_of_length_unlines {lines : List Bytes} (h : (unlines newline lines).length = 0) :
    lines = [] := by
  cases lines with
  | nil => rfl
  | cons line lines => simp [unlines] at h

variable (decode c clock) in
/-- The second pass delivers the lines of the file.  After a truncation the counters have been
cleared, after a rotation they are as they were. -/
lemma readAgain_spec {f n : ℕ} {lines : List Bytes} {again : Again} {s : Collector}
    (hlines : WholeLines lines) (hagain : again ≠ .rotated f)
    (hn : Enough n (unlines newline lines)) (hat : At s.tail f (unlines newline lines))
    (hpos : s.tail.pos = (unlines newline lines).length)
    (hempty : lines = [] → s.counters.seen = fun _ => 0) :
    ∃ polls counters, polls.flatten = timed clock 0 (lines.map decode) ∧
      (readAgain decode c f (unlines newline lines) again clock n s).1 =
        (drainPolls c counters polls).1 ∧
      (again = .truncated → counters.seen = fun _ => 0) ∧
      (again ≠ .truncated → counters = s.counters) := by
  have hbuf := hat.buf_eq_nil hlines hpos
  cases again with
  | truncated =>
      have hpoll : readNewLines decode (logDisk f []) s.tail =
          { lines := [], truncated := decide (0 < s.tail.pos), tail := { s.tail with pos := 0 } } :=
        readNewLines_truncated hat.handle rfl rfl hbuf hat.discarding
      set counters : Counters :=
        if decide (0 < s.tail.pos) = true then { s.counters with seen := fun _ => 0 }
        else s.counters with hcounters
      have hcleared : counters.seen = fun _ => 0 := by
        rw [hcounters]
        split_ifs with hread
        · rfl
        · refine hempty (eq_nil_of_length_unlines ?_)
          rw [decide_eq_true_eq, hpos] at hread
          exact Nat.eq_zero_of_not_pos hread
      set tail : Tail := { s.tail with pos := 0 } with htail
      have hstart : At tail f (unlines newline lines) :=
        At.start (t := tail) hat.handle rfl hbuf hat.discarding hat.skipHistory _
      rcases drainPass_start decode c (logDisk f (unlines newline lines)) clock ⟨tail, counters⟩
        rfl rfl hlines hn hstart rfl with ⟨polls, _, hflatten, hpass, -⟩
      refine ⟨polls, counters, hflatten, ?_, fun _ => hcleared, fun h => absurd rfl h⟩
      simp only [readAgain, drainOnce, hpoll, timed, drainLines, List.nil_append]
      rw [← hcounters, hpass]
  | rotated g =>
      have hne : g ≠ f := fun hgf => hagain (by rw [hgf])
      have hchunk : s.tail.chunk (logDisk g (unlines newline lines)) f = [] := by
        simp [Tail.chunk, logDisk, hpos]
      have hclose : s.tail.close.Unopened := ⟨rfl, rfl, hbuf, hat.discarding, hat.skipHistory⟩
      have hread := readNewLines_rotated decode (logDisk g (unlines newline lines)) hat.handle rfl
        hne hchunk hbuf hat.discarding
      rcases drainPass_unopened decode c (logDisk g (unlines newline lines)) clock
        ⟨s.tail.close, s.counters⟩ rfl rfl hlines hn hclose with ⟨polls, _, hflatten, hpass, -⟩
      refine ⟨polls, s.counters, hflatten, ?_, ?_, fun _ => rfl⟩
      · rw [readAgain, drainPass_congr hn.1 hread, hpass]
      · intro h
        cases h

/-! ## The ids of the two passes -/

lemma fromMessage_of_mem {items : List Item} (h : ∀ a ∈ items, FromMessage c a.1 ∧ 0 < a.2)
    (s : Counters) : ∀ r ∈ (numberBatches s (items.map Item.records)).1, FromMessage c r := by
  induction items generalizing s with
  | nil => intro r hr; cases hr
  | cons a items ih =>
      intro r hr
      have ha := h a List.mem_cons_self
      rw [List.map_cons, numberBatches, number_records s ha.2] at hr
      rcases List.mem_append.mp hr with hr | hr
      · rcases List.mem_map.mp hr with ⟨n, -, rfl⟩
        exact ha.1.withOccurrence _
      · exact ih (fun b hb => h b (List.mem_cons_of_mem _ hb)) _ r hr

/-- The items of some lines. -/
lemma exists_items_parsed (c : Context) (reads : List Read) :
    ∃ items : List Item, (∀ a ∈ items, FromMessage c a.1 ∧ 0 < a.2) ∧
      recordKeys c reads = items.map itemKey ∧
      ∀ s, numberBatches s (parsed c reads) = numberBatches s (items.map Item.records) := by
  rcases exists_items c [reads] with ⟨items, hbatches, hitems⟩
  refine ⟨items, hitems, ?_, ?_⟩
  · rw [recordKeys, hbatches]
    exact filterMap_head_records _ (fun _ _ => rfl) fun a ha => (hitems a ha).2
  · intro s
    rw [← hbatches, batches, numberBatches_filter, List.flatMap_singleton]

/-- The ids of lines that are read at another time and numbered from other counters. -/
lemma emittedIds_eq_iff (hash : TextHash) {reads reads' : List Read} {items : List Item}
    (hitems : ∀ a ∈ items, FromMessage c a.1 ∧ 0 < a.2)
    (hnumber : ∀ s, numberBatches s (parsed c reads) = numberBatches s (items.map Item.records))
    (huntimed : (parsed c reads).map (fun batch => batch.map untimed) =
      (parsed c reads').map (fun batch => batch.map untimed)) (s : Counters)
    (hsha : ∀ r ∈ (numberBatches {} (parsed c reads)).1,
      ∀ r' ∈ (numberBatches s (parsed c reads')).1,
        hash.digest (canonical r.identity) = hash.digest (canonical r'.identity) →
          canonical r.identity = canonical r'.identity) :
    emittedIds hash (numberBatches s (parsed c reads')).1 =
        emittedIds hash (numberBatches {} (parsed c reads)).1 ↔
      (numberBatches s (items.map Item.records)).1 =
        (numberBatches {} (items.map Item.records)).1 := by
  have hsame : (numberBatches s (parsed c reads')).1.map untimed =
      (numberBatches s (items.map Item.records)).1.map untimed := by
    have hpass := numberBatches_untimed s (parsed c reads)
    have hpass' := numberBatches_untimed s (parsed c reads')
    rw [← huntimed, hpass, Prod.mk.injEq] at hpass'
    rw [← hpass'.1, hnumber]
  have hids : ∀ l : List RawAuthEvent, (l.map fun r => computeId hash.digest r.identity) =
      (l.map untimed).map fun r => computeId hash.digest r.identity := by
    intro l
    rw [List.map_map]
    rfl
  rcases exists_items_parsed c reads' with ⟨items', hitems', -, hnumber'⟩
  have hfrom' := fromMessage_of_mem hitems' s
  rw [← hnumber'] at hfrom'
  rw [emittedIds_eq hash hfrom', hids, hsame, ← hids, hnumber,
    emittedIds_eq hash (fromMessage_of_mem hitems {})]
  refine ids_eq_iff hash (forall₂_numberBatches (fun a ha => (hitems a ha).2) _ _) ?_
  intro r hr r' hr'
  -- a record of the second pass with the same identity
  have hmem : untimed r' ∈ (numberBatches s (parsed c reads')).1.map untimed := by
    rw [hsame]
    exact List.mem_map_of_mem hr'
  rcases List.mem_map.mp hmem with ⟨r'', hr'', heq⟩
  have hidentity : (untimed r'').identity = (untimed r').identity := by rw [heq]
  rw [show r'.identity = r''.identity from hidentity.symm]
  rw [← hnumber] at hr
  exact hsha r hr r'' hr''

/-- What the two passes hand to the normalizer. -/
lemma passes_spec {f : ℕ} {lines : List Bytes} {again : Again} {n n' : ℕ}
    {first second : List RawAuthEvent × Collector} (hlines : WholeLines lines)
    (hagain : again ≠ .rotated f) (hn : Enough n (unlines newline lines))
    (hn' : Enough n' (unlines newline lines))
    (hfirst : firstPass decode c f (unlines newline lines) clock n = first)
    (hsecond : readAgain decode c f (unlines newline lines) again clock' n' first.2 = second)
    (hsettled : ∀ i line, (lines.map decode)[i]? = some line →
      Settled c line (clock i) (clock' i)) :
    ∃ counters,
      first.1 = (numberBatches {} (parsed c (timed clock 0 (lines.map decode)))).1 ∧
      second.1 = (numberBatches counters (parsed c (timed clock' 0 (lines.map decode)))).1 ∧
      (again = .truncated → counters.seen = fun _ => 0) ∧
      (again ≠ .truncated →
        counters = (numberBatches {} (parsed c (timed clock 0 (lines.map decode)))).2) := by
  rcases parsed_of_settled c clock clock' 0 (lines.map decode) (by simpa using hsettled) with
    ⟨hsome, hsome', -⟩
  rcases drainPass_unopened decode c (logDisk f (unlines newline lines)) clock {} rfl rfl hlines hn
    ⟨rfl, rfl, rfl, rfl, rfl⟩ with ⟨polls, tail, hflatten, hpass, hat, hend⟩
  rw [← hflatten] at hsome
  have hdrain := drainPolls_eq_parsed {} hsome
  rw [hflatten] at hdrain
  rw [firstPass, hpass, hdrain] at hfirst
  subst hfirst
  have hempty : lines = [] → (numberBatches {} (parsed c (timed clock 0 (lines.map decode)))).2.seen
      = fun _ => 0 := by
    intro hnil
    rw [hnil]
    rfl
  rcases readAgain_spec decode c clock' (s := ⟨tail, _⟩) hlines hagain hn' hat hend hempty with
    ⟨polls', counters, hflatten', hread, htruncated, hrotated⟩
  rw [← hflatten'] at hsome'
  rw [hsecond, drainPolls_eq_parsed counters hsome', hflatten'] at hread
  exact ⟨counters, rfl, hread, htruncated, hrotated⟩

/-- **A second pass emits the ids of the first** exactly when, in case of a rotation, the first and
the last run of equal timestamps have no record in common. -/
theorem reread_ids_iff (c : Context) (hash : TextHash) (decode : Bytes → List Char) (f : ℕ)
    (lines : List Bytes) (hlines : WholeLines lines) (again : Again) (hagain : again ≠ .rotated f)
    (clock clock' : ℕ → DateTime) (n n' : ℕ) (hn : Enough n (unlines newline lines))
    (hn' : Enough n' (unlines newline lines)) (first second : List RawAuthEvent × Collector)
    (hfirst : firstPass decode c f (unlines newline lines) clock n = first)
    (hsecond : readAgain decode c f (unlines newline lines) again clock' n' first.2 = second)
    (hsettled : ∀ i line, (lines.map decode)[i]? = some line →
      Settled c line (clock i) (clock' i))
    (hsha : ∀ r ∈ first.1, ∀ r' ∈ second.1,
      hash.digest (canonical r.identity) = hash.digest (canonical r'.identity) →
        canonical r.identity = canonical r'.identity) :
    emittedIds hash second.1 = emittedIds hash first.1 ↔
      (again ≠ .truncated →
        (firstRun (recordKeys c (timed clock 0 (lines.map decode)))).Disjoint
          (lastRun (recordKeys c (timed clock 0 (lines.map decode))))) := by
  rcases passes_spec hlines hagain hn hn' hfirst hsecond hsettled with
    ⟨counters, hone, htwo, htruncated, hrotated⟩
  rcases parsed_of_settled c clock clock' 0 (lines.map decode) (by simpa using hsettled) with
    ⟨-, -, huntimed⟩
  rcases exists_items_parsed c (timed clock 0 (lines.map decode)) with
    ⟨items, hitems, hkeys, hnumber⟩
  have hpos : ∀ a ∈ items, 0 < a.2 := fun a ha => (hitems a ha).2
  rw [hone, htwo] at hsha ⊢
  rw [emittedIds_eq_iff hash hitems hnumber huntimed counters hsha, hkeys]
  cases again with
  | truncated =>
      refine iff_of_true ?_ fun h => absurd rfl h
      exact numberBatches_of_cleared (htruncated rfl) hpos
  | rotated g =>
      rw [hrotated (by simp), hnumber, renumber_iff hpos]
      exact ⟨fun h _ => h, fun h => h (by simp)⟩

/-! ## Two logs that are rotated in again -/

/-- Midnight after the sample attempts. -/
def midnight : DateTime :=
  ⟨2026, 6, 17, 0, 0, 0, 0, sampleYear_valid, sampleMonth_valid, by decide, by decide⟩

def laterPassword : List Char :=
  "Jun 16 12:00:01 web sshd[9]: Failed password for root from 1.2.3.4 port 22 ssh2".toList

def laterRecord : RawAuthEvent :=
  ⟨{ sampleFields with occurredAt := 1781611201, syslogTs := "Jun 16 12:00:01" }, by decide⟩

/-- Two attempts, a second apart. -/
def twoSeconds : List Bytes := [asciiEncode failedPassword.line, asciiEncode laterPassword]

/-- SHA-256 on the texts of the two attempts. -/
def twoSecondsHash : TextHash where
  digest text :=
    if text = "Jun 16 12:00:00\x1fweb\x1f9\x1fssh_login_failed\x1froot\x1f1.2.3.4\x1f22\x1f0" then
      "c5ad2f9d967eb887d503d50487c3412d829d0871805b3ddc2fdb6ee20bb49f03"
    else "d34052a81ccda6855310b0ca0c8f83e4a8c80188a6e73b8d8f020a8ddba141ba"
  hex text := by
    split_ifs
    · exact firstDigest_hex
    · decide +kernel

lemma parse_failedPassword :
    parseAuthRecords sampleContext failedPassword.now failedPassword.line =
        some [withOccurrence passwordRecord 0] ∧
      parseAuthRecords sampleContext midnight failedPassword.line =
        some [withOccurrence passwordRecord 0] := by
  decide +kernel

lemma parse_laterPassword :
    parseAuthRecords sampleContext failedPassword.now laterPassword =
        some [withOccurrence laterRecord 0] ∧
      parseAuthRecords sampleContext midnight laterPassword =
        some [withOccurrence laterRecord 0] := by
  decide +kernel

/-- A pass over some lines at noon, and a pass over the same lines, rotated in, at midnight. -/
def noonPass (lines : List Bytes) : List RawAuthEvent × Collector :=
  firstPass asciiDecode sampleContext 0 (unlines newline lines) (fun _ => failedPassword.now) 1

def midnightPass (lines : List Bytes) : List RawAuthEvent × Collector :=
  readAgain asciiDecode sampleContext 0 (unlines newline lines) (.rotated 1) (fun _ => midnight) 1
    (noonPass lines).2

/-- What the two passes deliver. -/
lemma noonPass_midnightPass {lines : List Bytes} (hlines : WholeLines lines)
    (hn : Enough 1 (unlines newline lines))
    (hsettled : ∀ (i : ℕ) line, (lines.map asciiDecode)[i]? = some line →
      Settled sampleContext line failedPassword.now midnight)
    {l l' : List (List RawAuthEvent)}
    (hparsed : parsed sampleContext
      (timed (fun _ => failedPassword.now) 0 (lines.map asciiDecode)) = l)
    (hparsed' : parsed sampleContext (timed (fun _ => midnight) 0 (lines.map asciiDecode)) = l') :
    (noonPass lines).1 = (numberBatches {} l).1 ∧
      (midnightPass lines).1 = (numberBatches (numberBatches {} l).2 l').1 := by
  have hagain : Again.rotated 1 ≠ .rotated 0 := by decide
  have hpasses := passes_spec hlines hagain hn hn (rfl : noonPass lines = _)
    (rfl : midnightPass lines = _) hsettled
  rcases hpasses with ⟨counters, hone, htwo, -, hrotated⟩
  rw [hparsed] at hone hrotated
  rw [hparsed', hrotated (by decide)] at htwo
  exact ⟨hone, htwo⟩

theorem reread_ids_iff_twoSeconds :
    emittedIds twoSecondsHash (midnightPass twoSeconds).1 =
      emittedIds twoSecondsHash (noonPass twoSeconds).1 := by
  have hdecode : twoSeconds.map asciiDecode = [failedPassword.line, laterPassword] := by
    decide +kernel
  have hlines : WholeLines twoSeconds := by decide +kernel
  have hn : Enough 1 (unlines newline twoSeconds) := by decide +kernel
  have hsettled : ∀ (i : ℕ) line, (twoSeconds.map asciiDecode)[i]? = some line →
      Settled sampleContext line failedPassword.now midnight := by
    intro i line hline
    rw [hdecode] at hline
    have hmem := List.mem_of_getElem? hline
    rw [List.mem_pair] at hmem
    rcases hmem with rfl | rfl
    · exact ⟨_, _, parse_failedPassword.1, parse_failedPassword.2, by simp⟩
    · exact ⟨_, _, parse_laterPassword.1, parse_laterPassword.2, by simp⟩
  have hparsed : parsed sampleContext
        (timed (fun _ => failedPassword.now) 0 (twoSeconds.map asciiDecode)) =
      [[withOccurrence passwordRecord 0], [withOccurrence laterRecord 0]] := by
    simp only [hdecode, timed, parsed, parse_failedPassword.1, parse_laterPassword.1]
  have hparsed' : parsed sampleContext (timed (fun _ => midnight) 0 (twoSeconds.map asciiDecode)) =
      [[withOccurrence passwordRecord 0], [withOccurrence laterRecord 0]] := by
    simp only [hdecode, timed, parsed, parse_failedPassword.2, parse_laterPassword.2]
  rcases noonPass_midnightPass hlines hn hsettled hparsed hparsed' with ⟨hone, htwo⟩
  refine (reread_ids_iff sampleContext twoSecondsHash asciiDecode 0 twoSeconds hlines (.rotated 1)
    (by decide) _ _ 1 1 hn hn (noonPass twoSeconds) (midnightPass twoSeconds) rfl rfl hsettled
    ?_).mpr ?_
  · rw [hone, htwo]
    decide +kernel
  · intro _
    rw [recordKeys, batches, List.flatMap_singleton, hparsed]
    exact List.disjoint_left.mpr (by decide +kernel)

/-- A log of one second that is rotated in again is numbered on: its records get other ids. -/
theorem reread_ids_differ :
    ¬ ∀ (c : Context) (hash : TextHash) (decode : Bytes → List Char) (f : ℕ) (lines : List Bytes)
      (again : Again) (clock clock' : ℕ → DateTime) (n n' : ℕ)
      (first second : List RawAuthEvent × Collector), WholeLines lines → again ≠ .rotated f →
      Enough n (unlines newline lines) → Enough n' (unlines newline lines) →
      firstPass decode c f (unlines newline lines) clock n = first →
      readAgain decode c f (unlines newline lines) again clock' n' first.2 = second →
      emittedIds hash second.1 = emittedIds hash first.1 := by
  intro hclaim
  set lines : List Bytes := [asciiEncode failedPassword.line]
  have hdecode : lines.map asciiDecode = [failedPassword.line] := by decide +kernel
  have hlines : WholeLines lines := by decide +kernel
  have hn : Enough 1 (unlines newline lines) := by decide +kernel
  have hsettled : ∀ (i : ℕ) line, (lines.map asciiDecode)[i]? = some line →
      Settled sampleContext line failedPassword.now midnight := by
    intro i line hline
    rw [hdecode] at hline
    rw [List.mem_singleton.mp (List.mem_of_getElem? hline)]
    exact ⟨_, _, parse_failedPassword.1, parse_failedPassword.2, by simp⟩
  have hparsed : parsed sampleContext
        (timed (fun _ => failedPassword.now) 0 (lines.map asciiDecode)) =
      [[withOccurrence passwordRecord 0]] := by
    simp only [hdecode, timed, parsed, parse_failedPassword.1]
  have hparsed' : parsed sampleContext (timed (fun _ => midnight) 0 (lines.map asciiDecode)) =
      [[withOccurrence passwordRecord 0]] := by
    simp only [hdecode, timed, parsed, parse_failedPassword.2]
  rcases noonPass_midnightPass hlines hn hsettled hparsed hparsed' with ⟨hone, htwo⟩
  have heq := hclaim sampleContext sampleHash asciiDecode 0 lines (.rotated 1)
    (fun _ => failedPassword.now) (fun _ => midnight) 1 1 (noonPass lines) (midnightPass lines)
    hlines (by decide) hn hn rfl rfl
  rw [hone, htwo] at heq
  exact absurd heq (by decide +kernel)

end Sentinel.AuthLog
