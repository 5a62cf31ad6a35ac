import Sentinel.Collectors.Base
import Sentinel.Library.Dict
import Sentinel.Library.Poller
import Sentinel.Library.PyText
import Sentinel.Library.Utf8
import Sentinel.Normalizer.Mapper

/-!
# The process collector

`collectors/process.py`.  A poll lists the proc root, reads the files of the processes it finds and
compares the snapshot with the last one.  What it reads is its input: the names of the proc root, or
`none` if they cannot be listed, and the files of each pid, `none` where reading one raises
`OSError`.  Texts are as `read_text` returns them, the link target as `os_text` does.

Processes are identified by pid and start time.  The image of a process is its command line and its
executable; it is read at the first two sightings of a process and then kept.
-/

namespace Sentinel.Process

/-- The settings of a `ProcessCollector` and the Unicode tables it runs with. -/
structure Config where
  host : String
  maxProcs : ℕ := 100000
  unicode : PyText.Unicode

/-- What there is to read below `/proc/<pid>`. -/
structure ProcFiles where
  stat : Option (List Char) := none
  comm : Option (List Char) := none
  cmdline : Option (List UInt8) := none
  exe : Option String := none
deriving DecidableEq

/-- What one poll finds; its `n`-th record is made at the time `clock n`.  A poll is one that ends:
a name with a digit that `str.isdigit` knows and `int` does not, a superscript say, makes `_scan`
raise before the baseline has changed, and the collector goes on as if it had not polled. -/
structure Poll where
  entries : Option (List (List Char))
  files : ℕ → ProcFiles
  clock : ℕ → ℚ

/-- `_ProcState`. -/
structure ProcState where
  pid : ℕ
  ppid : ℤ
  starttime : ℤ
  comm : String
  cmdline : Option String
  executable : Option String
  settled : Bool := false
deriving DecidableEq

abbrev Snapshot := List (ℕ × ProcState)

/-- What an `exec` replaces. -/
def ProcState.image (state : ProcState) : Option String × Option String :=
  (state.cmdline, state.executable)

/-! ## The stat line -/

def statMinFields : ℕ := 20
def ppidIndex : ℕ := 1
def starttimeIndex : ℕ := 19

/-- The text after the last `)`, if there is one. -/
def afterLastParen : List Char → Option (List Char)
  | [] => none
  | c :: text =>
      match afterLastParen text with
      | some rest => some rest
      | none => if c = ')' then some text else none

/-- `parse_stat`. -/
def parseStat (unicode : PyText.Unicode) (content : List Char) : Option (ℤ × ℤ) :=
  (afterLastParen content).bind fun text =>
    let fields := PyText.splitSpace text
    if fields.length < statMinFields then none
    else
      (unicode.parseInt 10 (fields.getD ppidIndex [])).bind fun ppid =>
        (unicode.parseInt 10 (fields.getD starttimeIndex [])).map fun starttime => (ppid, starttime)

/-- `_parse_comm_from_stat`: what stands between the first `(` and the last `)`. -/
def parseCommFromStat (content : List Char) : List Char :=
  match afterLastParen content with
  | none => []
  | some rest =>
      let upTo := content.take (content.length - rest.length - 1)
      match upTo.dropWhile (· ≠ '(') with
      | [] => []
      | _ :: comm => comm

/-! ## Reading a process -/

/-- `_read_comm`. -/
def readComm (files : ProcFiles) (statContent : List Char) : String :=
  let comm := PyText.strip (files.comm.getD [])
  String.ofList (if comm = [] then parseCommFromStat statContent else comm)

/-- `_read_cmdline`: `None` for kernel threads. -/
def readCmdline (files : ProcFiles) : Option String :=
  files.cmdline.bind fun raw =>
    let spaced := raw.map fun b => if b = 0 then 32 else b
    nonEmpty (clip (String.ofList (PyText.strip (Utf8.decode spaced))) maxCommandLine)

/-- `_read_exe`. -/
def readExe (files : ProcFiles) : Option String := files.exe.map fun target => clip target maxPath

/-- `_read_proc`. -/
def readProc (unicode : PyText.Unicode) (files : ProcFiles) (pid : ℕ) (known : Option ProcState) :
    Option ProcState :=
  files.stat.bind fun statContent =>
    (parseStat unicode statContent).map fun (ppid, starttime) =>
      let fresh : ProcState :=
        { pid := pid, ppid := ppid, starttime := starttime, comm := readComm files statContent
          cmdline := readCmdline files, executable := readExe files }
      match known with
      | none => fresh
      | some old =>
          if old.starttime ≠ starttime then fresh
          else if old.settled then { old with ppid := ppid }
          else if fresh.cmdline = none ∧ fresh.executable = none then
            -- a zombie has neither, so the first reading stands
            { fresh with cmdline := old.cmdline, executable := old.executable, settled := true }
          else { fresh with settled := true }

/-! ## Scanning -/

/-- The pid of an entry of the proc root, if `int` accepts what `str.isdigit` does (see `Poll`). -/
def pidOf (unicode : PyText.Unicode) (name : List Char) : Option ℕ :=
  if name ≠ [] ∧ name.all unicode.isDigit then some (unicode.int name) else none

/-- `_iter_pids`: no pids if the proc root cannot be listed. -/
def iterPids (unicode : PyText.Unicode) (poll : Poll) : List ℕ :=
  (poll.entries.getD []).filterMap (pidOf unicode)

/-- `source_available` after the poll. -/
def Poll.sourceAvailable (poll : Poll) : Bool := poll.entries.isSome

/-- The loop of `_scan`. -/
def scanPids (c : Config) (poll : Poll) (previous : Snapshot) : List ℕ → Snapshot → Snapshot
  | [], snapshot => snapshot
  | pid :: pids, snapshot =>
      if c.maxProcs ≤ snapshot.length then snapshot
      else
        match readProc c.unicode (poll.files pid) pid (Dict.get previous pid) with
        | none => scanPids c poll previous pids snapshot
        | some state => scanPids c poll previous pids (Dict.set snapshot pid state)

/-- `_scan`. -/
def scan (c : Config) (previous : Snapshot) (poll : Poll) : Snapshot :=
  scanPids c poll previous (iterPids c.unicode poll) []

/-! ## Comparing two scans -/

inductive Change where
  | started (state : ProcState)
  | stopped (state : ProcState)
deriving DecidableEq

def Change.state : Change → ProcState
  | .started state => state
  | .stopped state => state

/-- The action and the severity of a record. -/
def Change.action : Change → String × ℕ
  | .started _ => ("process_started", 3)
  | .stopped _ => ("process_stopped", 2)

/-- What the first loop of `_diff` finds about an entry of the new snapshot. -/
def changesOf (old : Snapshot) (pid : ℕ) (state : ProcState) : List Change :=
  match Dict.get old pid with
  | none => [.started state]
  | some previous =>
      if previous.starttime ≠ state.starttime then [.stopped previous, .started state]
      else if previous.image ≠ state.image then [.started state]
      else []

/-- The two loops of `_diff`. -/
def changes (old new : Snapshot) : List Change :=
  (new.flatMap fun (pid, state) => changesOf old pid state) ++
    old.filterMap fun (pid, previous) =>
      if Dict.get new pid = none then some (.stopped previous) else none

/-- `_raw`: the record of a change, unless the record model rejects it. -/
def rawOf (c : Config) (occurredAt : ℚ) (change : Change) : Option RawProcessEvent :=
  change.state.ppid.toNat?.bind fun ppid =>
    change.state.starttime.toNat?.bind fun starttime =>
      RawProcessEvent.build
        { occurredAt := occurredAt, host := c.host, action := change.action.1
          severity := change.action.2, pid := change.state.pid, ppid := ppid
          starttime := starttime, comm := change.state.comm, cmdline := change.state.cmdline
          executable := change.state.executable }

/-- `_diff`. -/
def diff (c : Config) (poll : Poll) (old new : Snapshot) : List RawProcessEvent :=
  (changes old new).zipIdx.filterMap fun (change, n) => rawOf c (poll.clock n) change

/-- The collector; `Poller.drain` is its `_drain_once` up to the records. -/
def collector (c : Config) : Poller Snapshot Poll RawProcessEvent where
  empty := []
  scan := scan c
  diff := diff c
  diff_empty _ := rfl

/-- The events that `_drain_once` puts on the queue. -/
def emitted (hash : TextHash) (records : List RawProcessEvent) : List Event :=
  records.filterMap (mapProcess hash)

/-! ## What a scan finds -/

section Scan

variable {c : Config} {poll : Poll} {previous : Snapshot} {pid : ℕ}

/-- Whether a process can be read does not depend on what is known of it. -/
lemma readProc_eq_none_iff {u : PyText.Unicode} {files : ProcFiles} {known : Option ProcState} :
    readProc u files pid known = none ↔ files.stat.bind (parseStat u) = none := by
  cases hstat : files.stat with
  | none => simp [readProc, hstat]
  | some content => simp [readProc, hstat]

/-- Every entry of a scan was read from a process that is listed. -/
lemma mem_scanPids {pids : List ℕ} {snapshot : Snapshot} {entry : ℕ × ProcState}
    (h : entry ∈ scanPids c poll previous pids snapshot) :
    entry ∈ snapshot ∨ 0 < c.maxProcs ∧ entry.1 ∈ pids ∧
      readProc c.unicode (poll.files entry.1) entry.1 (Dict.get previous entry.1) =
        some entry.2 := by
  induction pids generalizing snapshot with
  | nil => exact Or.inl h
  | cons p pids ih =>
      rw [scanPids] at h
      split_ifs at h with hfull
      · exact Or.inl h
      · have hpos : 0 < c.maxProcs := by omega
        cases hread : readProc c.unicode (poll.files p) p (Dict.get previous p) with
        | none =>
            rw [hread] at h
            refine (ih h).imp_right ?_
            rintro ⟨hpos, hmem, hentry⟩
            exact ⟨hpos, List.mem_cons_of_mem _ hmem, hentry⟩
        | some state =>
            rw [hread] at h
            rcases ih h with hset | ⟨-, hmem, hentry⟩
            · rcases Dict.mem_set hset with rfl | hmem
              · exact Or.inr ⟨hpos, List.mem_cons_self, hread⟩
              · exact Or.inl hmem
            · exact Or.inr ⟨hpos, List.mem_cons_of_mem _ hmem, hentry⟩

lemma mem_scan {entry : ℕ × ProcState} (h : entry ∈ scan c previous poll) :
    0 < c.maxProcs ∧ entry.1 ∈ iterPids c.unicode poll ∧
      readProc c.unicode (poll.files entry.1) entry.1 (Dict.get previous entry.1) =
        some entry.2 := by
  rcases mem_scanPids h with hnil | hread
  · cases hnil
  · exact hread

/-- A snapshot has one entry for each pid, and it is about this pid. -/
structure Keyed (snapshot : Snapshot) : Prop where
  nodup : (Dict.keys snapshot).Nodup
  pid : ∀ entry ∈ snapshot, entry.2.pid = entry.1

lemma keyed_nil : Keyed [] := ⟨List.nodup_nil, fun _ h => nomatch h⟩

lemma Keyed.pid_of_get {snapshot : Snapshot} (h : Keyed snapshot) {state : ProcState}
    (hget : Dict.get snapshot pid = some state) : state.pid = pid :=
  h.pid _ (Dict.mem_of_get hget)

lemma Keyed.set {snapshot : Snapshot} (h : Keyed snapshot) {state : ProcState}
    (hpid : state.pid = pid) : Keyed (Dict.set snapshot pid state) where
  nodup := Dict.nodup_keys_set h.nodup pid state
  pid entry hentry := by
    rcases Dict.mem_set hentry with rfl | hmem
    · exact hpid
    · exact h.pid entry hmem

lemma pid_of_readProc {u : PyText.Unicode} {files : ProcFiles} {known : Option ProcState}
    {state : ProcState} (h : readProc u files pid known = some state)
    (hknown : ∀ old ∈ known, old.pid = pid) : state.pid = pid := by
  rcases Option.bind_eq_some_iff.mp h with ⟨content, -, h⟩
  rcases Option.map_eq_some_iff.mp h with ⟨⟨ppid, starttime⟩, -, rfl⟩
  cases known with
  | none => rfl
  | some old =>
      dsimp only
      split_ifs
      · rfl
      · exact hknown old rfl
      · rfl
      · rfl

lemma scanPids_keyed {pids : List ℕ} (hprevious : Keyed previous) {snapshot : Snapshot}
    (h : Keyed snapshot) : Keyed (scanPids c poll previous pids snapshot) := by
  induction pids generalizing snapshot with
  | nil => exact h
  | cons p pids ih =>
      rw [scanPids]
      split_ifs
      · exact h
      · cases hread : readProc c.unicode (poll.files p) p (Dict.get previous p) with
        | none => exact ih h
        | some state =>
            exact ih (h.set (pid_of_readProc hread fun old hold => hprevious.pid_of_get hold))

lemma scan_keyed (h : Keyed previous) : Keyed (scan c previous poll) :=
  scanPids_keyed h keyed_nil

/-- As long as there is room, a scan reads every process that is listed. -/
lemma get_scanPids {pids : List ℕ} {snapshot : Snapshot}
    (h : snapshot.length + pids.length ≤ c.maxProcs) :
    Dict.get (scanPids c poll previous pids snapshot) pid =
      if pid ∈ pids then
        (readProc c.unicode (poll.files pid) pid (Dict.get previous pid)).or (Dict.get snapshot pid)
      else Dict.get snapshot pid := by
  induction pids generalizing snapshot with
  | nil => rfl
  | cons p pids ih =>
      rw [List.length_cons] at h
      rw [scanPids, if_neg (by omega)]
      cases hread : readProc c.unicode (poll.files p) p (Dict.get previous p) with
      | none =>
          show Dict.get (scanPids c poll previous pids snapshot) pid = _
          rw [ih (by omega)]
          by_cases hp : pid = p
          · subst hp
            simp [hread]
          · simp [hp]
      | some state =>
          have hset := Dict.length_set_le snapshot p state
          show Dict.get (scanPids c poll previous pids (Dict.set snapshot p state)) pid = _
          rw [ih (by omega), Dict.get_set]
          by_cases hp : pid = p
          · subst hp
            simp [hread]
          · simp [hp, Ne.symm hp]

lemma get_scan (h : (iterPids c.unicode poll).length ≤ c.maxProcs) :
    Dict.get (scan c previous poll) pid =
      if pid ∈ iterPids c.unicode poll then
        readProc c.unicode (poll.files pid) pid (Dict.get previous pid)
      else none := by
  rw [scan, get_scanPids (by simpa using h)]
  split_ifs
  · exact Option.or_none
  · rfl

lemma scanPids_ne_nil {pids : List ℕ} {snapshot : Snapshot} (h : snapshot ≠ []) :
    scanPids c poll previous pids snapshot ≠ [] := by
  induction pids generalizing snapshot with
  | nil => exact h
  | cons p pids ih =>
      rw [scanPids]
      split_ifs with hfull
      · exact h
      · cases readProc c.unicode (poll.files p) p (Dict.get previous p) with
        | none => exact ih h
        | some state => exact ih (Dict.set_ne_nil _ _ _)

/-- A scan that finds nothing has found nothing to read, unless it may not find anything. -/
lemma readProc_of_scanPids_eq_nil {pids : List ℕ}
    (h : scanPids c poll previous pids [] = []) (hpos : 0 < c.maxProcs) (hmem : pid ∈ pids) :
    (poll.files pid).stat.bind (parseStat c.unicode) = none := by
  induction pids with
  | nil => cases hmem
  | cons p pids ih =>
      rw [scanPids, if_neg (by simpa using Nat.pos_iff_ne_zero.mp hpos)] at h
      cases hread : readProc c.unicode (poll.files p) p (Dict.get previous p) with
      | none =>
          rw [hread] at h
          rcases List.mem_cons.mp hmem with rfl | hmem
          · exact readProc_eq_none_iff.mp hread
          · exact ih h hmem
      | some state =>
          rw [hread] at h
          exact absurd h (scanPids_ne_nil (Dict.set_ne_nil _ _ _))

end Scan

/-! ## What a comparison finds -/

/-- Every record is made from a change. -/
lemma exists_change_of_mem_diff {c : Config} {poll : Poll} {old new : Snapshot}
    {raw : RawProcessEvent} (h : raw ∈ diff c poll old new) :
    ∃ change ∈ changes old new, ∃ t, rawOf c t change = some raw := by
  rcases List.mem_filterMap.mp h with ⟨⟨change, n⟩, hmem, hraw⟩
  exact ⟨change, List.fst_mem_of_mem_zipIdx hmem, _, hraw⟩

/-- A record has the fields of its change. -/
lemma fields_of_rawOf {c : Config} {t : ℚ} {change : Change} {raw : RawProcessEvent}
    (h : rawOf c t change = some raw) :
    raw.action = change.action.1 ∧ raw.pid = change.state.pid ∧
      (raw.starttime : ℤ) = change.state.starttime ∧ raw.cmdline = change.state.cmdline ∧
      raw.executable = change.state.executable := by
  rcases Option.bind_eq_some_iff.mp h with ⟨ppid, -, h⟩
  rcases Option.bind_eq_some_iff.mp h with ⟨starttime, hstart, h⟩
  have hfields := RawProcessEvent.eq_of_build h
  have hint : change.state.starttime = (starttime : ℤ) := by
    simpa using (Int.mem_toNat?.mp hstart)
  rw [hfields]
  exact ⟨rfl, rfl, hint.symm, rfl, rfl⟩

end Sentinel.Process
