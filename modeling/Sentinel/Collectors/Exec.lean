import Sentinel.Collectors.Process

/-!
# Processes that `exec` after they were first seen

A poll may see a process between `fork` and `exec`, with the image of its parent.  The image is read
once more at the next sighting, and from then on it is settled.  So what is reported of a process
during one continuous sighting are at most two starts, and what it runs at the second sighting is
reported by then, or was there when the baseline was seeded.

The invariant is `image_known`: the image that the baseline has for a process is that of its last
start, or of the seeding poll if no start of it was reported.  An end of a process is reported with
the image in the baseline.
-/

namespace Sentinel

abbrev Image := Option String × Option String

/-- What a record of the process collector says. -/
structure ProcessReport where
  action : String
  pid : ℕ
  starttime : ℤ
  image : Image
deriving DecidableEq

def RawProcessEvent.report (raw : RawProcessEvent) : ProcessReport where
  action := raw.action
  pid := raw.pid
  starttime := raw.starttime
  image := (raw.cmdline, raw.executable)

namespace Process

def Change.report (change : Change) : ProcessReport where
  action := change.action.1
  pid := change.state.pid
  starttime := change.state.starttime
  image := change.state.image

/-- A start of the instance `(pid, starttime)`. -/
def isStart (pid : ℕ) (starttime : ℤ) (report : ProcessReport) : Bool :=
  report.action == "process_started" && report.pid == pid && report.starttime == starttime

/-- The instance is listed and its stat line can be read. -/
def Sighted (u : PyText.Unicode) (pid : ℕ) (starttime : ℤ) (poll : Poll) : Prop :=
  pid ∈ iterPids u poll ∧ ∃ ppid, (poll.files pid).stat.bind (parseStat u) = some (ppid, starttime)

/-- The image read from the files of a process; a part that cannot be read is `none`. -/
def imageOf (files : ProcFiles) : Image := (readCmdline files, readExe files)

/-- The record model accepts the record of a change; the time does not matter. -/
def recordable (c : Config) (change : Change) : Bool := (rawOf c 0 change).isSome

/-- Every record that the run builds is valid. -/
def RecordsValid (c : Config) : Poller.State Snapshot → List Poll → Prop
  | _, [] => True
  | s, poll :: polls =>
      (s.seeded = true →
        ∀ change ∈ changes s.baseline (scan c s.baseline poll), recordable c change = true) ∧
        RecordsValid c ((collector c).drain s poll).2 polls

instance decidableRecordsValid (c : Config) :
    ∀ (s : Poller.State Snapshot) (polls : List Poll), Decidable (RecordsValid c s polls)
  | _, [] => inferInstanceAs (Decidable True)
  | s, poll :: polls =>
      @instDecidableAnd _ _ inferInstance
        (decidableRecordsValid c ((collector c).drain s poll).2 polls)

/-! ## What is read of a process -/

/-- What `_read_proc` makes of the files of an instance. -/
inductive ReadAs (files : ProcFiles) (known : Option ProcState) (state : ProcState) : Prop
  | fresh (hnew : ∀ old ∈ known, old.starttime ≠ state.starttime)
      (himage : state.image = imageOf files) (hunsettled : state.settled = false)
  | kept (old : ProcState) (hknown : known = some old) (hsame : old.starttime = state.starttime)
      (hwhy : old.settled = true ∨ imageOf files = (none, none)) (himage : state.image = old.image)
      (hsettled : state.settled = true)
  | reread (old : ProcState) (hknown : known = some old) (hsame : old.starttime = state.starttime)
      (hunsettled : old.settled = false) (himage : state.image = imageOf files)
      (hsettled : state.settled = true)

lemma readAs_of_readProc {u : PyText.Unicode} {files : ProcFiles} {pid : ℕ}
    {known : Option ProcState} {state : ProcState} (h : readProc u files pid known = some state) :
    (∃ ppid, files.stat.bind (parseStat u) = some (ppid, state.starttime)) ∧
      ReadAs files known state := by
  rcases Option.bind_eq_some_iff.mp h with ⟨content, hcontent, h⟩
  rcases Option.map_eq_some_iff.mp h with ⟨⟨ppid, starttime⟩, hparse, rfl⟩
  have hstat : files.stat.bind (parseStat u) = some (ppid, starttime) := by
    rw [hcontent]
    exact hparse
  cases known with
  | none => exact ⟨⟨ppid, hstat⟩, .fresh (fun _ hold => nomatch hold) rfl rfl⟩
  | some old =>
      dsimp only
      split_ifs with hother hsettled hzombie
      · refine ⟨⟨ppid, hstat⟩, .fresh (fun old' hold => ?_) rfl rfl⟩
        rw [← Option.some.inj hold]
        exact hother
      · have hsame : old.starttime = starttime := not_not.mp hother
        exact ⟨⟨ppid, hsame ▸ hstat⟩, .kept old rfl rfl (Or.inl hsettled) rfl hsettled⟩
      · exact ⟨⟨ppid, hstat⟩, .kept old rfl (not_not.mp hother)
          (Or.inr (Prod.ext hzombie.1 hzombie.2)) rfl rfl⟩
      · exact ⟨⟨ppid, hstat⟩, .reread old rfl (not_not.mp hother)
          (Bool.eq_false_iff.mpr hsettled) rfl rfl⟩

lemma exists_readProc {u : PyText.Unicode} {files : ProcFiles} {pid : ℕ} {ppid starttime : ℤ}
    (h : files.stat.bind (parseStat u) = some (ppid, starttime)) (known : Option ProcState) :
    ∃ state, readProc u files pid known = some state ∧ state.starttime = starttime := by
  cases hread : readProc u files pid known with
  | none =>
      rw [readProc_eq_none_iff.mp hread] at h
      cases h
  | some state =>
      rcases (readAs_of_readProc hread).1 with ⟨ppid', hstat⟩
      rw [h] at hstat
      exact ⟨state, rfl, (congrArg Prod.snd (Option.some.inj hstat)).symm⟩

/-! ## The baseline -/

variable {c : Config}

lemma baseline_keyed (polls : List Poll) :
    Keyed ((collector c).after (collector c).initial polls).baseline := by
  induction polls using List.reverseRecOn with
  | nil => exact keyed_nil
  | append_singleton polls poll ih =>
      rw [Poller.after_concat]
      exact scan_keyed ih

/-- Sighted instances are in the next snapshot, as `_read_proc` reads them. -/
lemma exists_get_scan {poll : Poll} {pid : ℕ} {starttime : ℤ}
    (hcap : (iterPids c.unicode poll).length ≤ c.maxProcs)
    (h : Sighted c.unicode pid starttime poll) (previous : Snapshot) :
    ∃ state, Dict.get (scan c previous poll) pid = some state ∧ state.starttime = starttime ∧
      ReadAs (poll.files pid) (Dict.get previous pid) state := by
  rcases h with ⟨hlisted, ppid, hstat⟩
  rcases exists_readProc hstat (Dict.get previous pid) with ⟨state, hread, hstart⟩
  refine ⟨state, ?_, hstart, (readAs_of_readProc hread).2⟩
  rw [get_scan hcap, if_pos hlisted, hread]

lemma sighted_of_get_scan {poll : Poll} {previous : Snapshot} {pid : ℕ} {state : ProcState}
    (h : Dict.get (scan c previous poll) pid = some state) :
    Sighted c.unicode pid state.starttime poll := by
  rcases mem_scan (Dict.mem_of_get h) with ⟨-, hlisted, hread⟩
  exact ⟨hlisted, (readAs_of_readProc hread).1⟩

/-! ## What a comparison reports -/

lemma recordable_iff {change : Change} (t : ℚ) :
    recordable c change = true ↔ (rawOf c t change).isSome = true := by
  unfold recordable rawOf
  cases change.state.ppid.toNat? with
  | none => rfl
  | some ppid =>
      cases change.state.starttime.toNat? with
      | none => rfl
      | some starttime =>
          simp only [Option.bind_some, RawProcessEvent.build, ProcessFields.valid_iff]
          split_ifs <;> simp_all

/-- Valid records say what the changes are. -/
lemma report_diff {poll : Poll} {old new : Snapshot}
    (h : ∀ change ∈ changes old new, recordable c change = true) :
    (diff c poll old new).map RawProcessEvent.report = (changes old new).map Change.report := by
  have hentry : ∀ entry ∈ (changes old new).zipIdx,
      (rawOf c (poll.clock entry.2) entry.1).map RawProcessEvent.report =
        some (Change.report entry.1) := by
    intro entry hentry
    have hmem := List.fst_mem_of_mem_zipIdx hentry
    rcases Option.isSome_iff_exists.mp ((recordable_iff (poll.clock entry.2)).mp (h _ hmem)) with
      ⟨raw, hraw⟩
    rcases fields_of_rawOf hraw with ⟨haction, hpid, hstart, hcmdline, hexe⟩
    rw [hraw, Option.map_some, RawProcessEvent.report, haction, hpid, hstart, hcmdline, hexe]
    rfl
  calc (diff c poll old new).map RawProcessEvent.report
      = (changes old new).zipIdx.filterMap fun entry =>
          (rawOf c (poll.clock entry.2) entry.1).map RawProcessEvent.report := List.map_filterMap
    _ = (changes old new).zipIdx.filterMap fun entry => some (Change.report entry.1) :=
          List.filterMap_congr hentry
    _ = (changes old new).map Change.report := by
          rw [List.filterMap_eq_map', ← List.zipIdx_map_fst 0 (changes old new), List.map_map,
            List.zipIdx_map_fst]
          rfl

/-- The start of a process is news: it is not in the old snapshot, or with another image. -/
def isNews (old : Option ProcState) (state : ProcState) : Bool :=
  old.all fun previous => previous.starttime != state.starttime || previous.image != state.image

lemma isStart_started (pid : ℕ) (starttime : ℤ) (state : ProcState) :
    isStart pid starttime (Change.started state).report = true ↔
      state.pid = pid ∧ state.starttime = starttime := by
  simp [isStart, Change.report, Change.action, Change.state]

lemma isStart_stopped (pid : ℕ) (starttime : ℤ) (state : ProcState) :
    isStart pid starttime (Change.stopped state).report = false := by
  simp [isStart, Change.report, Change.action]

lemma starts_changesOf (old : Snapshot) (key : ℕ) (state : ProcState) (pid : ℕ) (starttime : ℤ) :
    ((changesOf old key state).map Change.report).filter (isStart pid starttime) =
      if isNews (Dict.get old key) state = true then
        [(Change.started state).report].filter (isStart pid starttime) else [] := by
  unfold changesOf
  cases Dict.get old key with
  | none => rfl
  | some previous =>
      by_cases hother : previous.starttime = state.starttime
      · by_cases himage : previous.image = state.image
        · simp [isNews, hother, himage]
        · simp [isNews, hother, himage]
      · have hnews : isNews (some previous) state = true := by simp [isNews, hother]
        dsimp only
        rw [if_pos hother, if_pos hnews, List.map_cons, List.filter_cons,
          if_neg (by rw [isStart_stopped]; exact Bool.false_ne_true)]
        rfl

lemma starts_of_pid_ne {old : Snapshot} {key : ℕ} {state : ProcState} {pid : ℕ}
    (h : state.pid ≠ pid) (starttime : ℤ) :
    ((changesOf old key state).map Change.report).filter (isStart pid starttime) = [] := by
  rw [starts_changesOf, List.filter_cons,
    if_neg (fun hstart => h ((isStart_started pid starttime state).mp hstart).1)]
  split_ifs <;> rfl

/-- The starts of an instance that a comparison reports. -/
lemma starts_changes (old : Snapshot) {new : Snapshot} (hnew : Keyed new) (pid : ℕ)
    (starttime : ℤ) :
    ((changes old new).map Change.report).filter (isStart pid starttime) =
      (Dict.get new pid).elim [] fun state =>
        if isNews (Dict.get old pid) state = true then
          [(Change.started state).report].filter (isStart pid starttime) else [] := by
  have hstops : ((old.filterMap fun entry =>
      if Dict.get new entry.1 = none then some (Change.stopped entry.2) else none).map
        Change.report).filter (isStart pid starttime) = [] := by
    refine List.filter_eq_nil_iff.mpr fun report hreport => ?_
    rcases List.mem_map.mp hreport with ⟨change, hchange, rfl⟩
    rcases List.mem_filterMap.mp hchange with ⟨⟨key, previous⟩, -, hentry⟩
    dsimp only at hentry
    split_ifs at hentry
    rw [← Option.some.inj hentry, isStart_stopped]
    exact Bool.false_ne_true
  rw [changes, List.map_append, List.filter_append, hstops, List.append_nil, List.map_flatMap,
    List.filter_flatMap, Dict.flatMap_eq_get hnew.nodup (k := pid)]
  · cases Dict.get new pid with
    | none => rfl
    | some state => exact starts_changesOf old pid state pid starttime
  · intro entry hentry hne
    have hpid : entry.2.pid ≠ pid := by
      rw [hnew.pid entry hentry]
      exact hne
    exact starts_of_pid_ne hpid starttime

/-- What is reported as stopped was in the old snapshot. -/
lemma get_of_stopped {old new : Snapshot} (hold : Keyed old) {state : ProcState}
    (h : Change.stopped state ∈ changes old new) : Dict.get old state.pid = some state := by
  rcases List.mem_append.mp h with hnew | hgone
  · rcases List.mem_flatMap.mp hnew with ⟨⟨key, now⟩, -, hchange⟩
    dsimp only [changesOf] at hchange
    cases hget : Dict.get old key with
    | none =>
        rw [hget] at hchange
        cases List.mem_singleton.mp hchange
    | some previous =>
        rw [hget] at hchange
        dsimp only at hchange
        split_ifs at hchange
        · simp only [List.mem_cons, Change.stopped.injEq, reduceCtorEq, List.not_mem_nil,
            or_false] at hchange
          rw [hchange, hold.pid_of_get hget, hget]
        · cases List.mem_singleton.mp hchange
        · cases hchange
  · rcases List.mem_filterMap.mp hgone with ⟨⟨key, previous⟩, hmem, hentry⟩
    dsimp only at hentry
    split_ifs at hentry
    have hstate : previous = state := Change.stopped.inj (Option.some.inj hentry)
    have hget := Dict.get_of_mem hold.nodup hmem
    rw [← hstate, hold.pid_of_get hget, hget]

/-! ## The records of a run -/

/-- What is reported during some polls that come after others. -/
def reportsOf (c : Config) (before polls : List Poll) : List ProcessReport :=
  ((collector c).run ((collector c).after (collector c).initial before) polls).map
    RawProcessEvent.report

/-- The image of an instance in the baseline that the first poll seeds. -/
def seedImage (c : Config) (polls : List Poll) (pid : ℕ) (starttime : ℤ) : Option Image :=
  polls.head?.bind fun first =>
    ((Dict.get (scan c [] first) pid).filter (·.starttime = starttime)).map ProcState.image

/-- The image of an instance in its last start that was reported, or else in the seed. -/
def lastImage (c : Config) (polls : List Poll) (pid : ℕ) (starttime : ℤ) : Option Image :=
  (((reportsOf c [] polls).filter (isStart pid starttime)).getLast?.map ProcessReport.image).or
    (seedImage c polls pid starttime)

lemma recordsValid_append {s : Poller.State Snapshot} {polls polls' : List Poll} :
    RecordsValid c s (polls ++ polls') ↔
      RecordsValid c s polls ∧ RecordsValid c ((collector c).after s polls) polls' := by
  induction polls generalizing s with
  | nil => exact (true_and _).symm.to_iff
  | cons poll polls ih =>
      rw [List.cons_append, RecordsValid, RecordsValid, ih, and_assoc]
      rfl

/-- The starts of an instance that one poll reports. -/
def startsAt (c : Config) (s : Poller.State Snapshot) (poll : Poll) (pid : ℕ) (starttime : ℤ) :
    List ProcessReport :=
  (((collector c).drain s poll).1.map RawProcessEvent.report).filter (isStart pid starttime)

section Poll

variable {s : Poller.State Snapshot} {poll : Poll} {polls : List Poll} {pid : ℕ} {starttime : ℤ}

lemma report_drain (hseeded : s.seeded = true) (hvalid : RecordsValid c s (poll :: polls)) :
    ((collector c).drain s poll).1.map RawProcessEvent.report =
      (changes s.baseline (scan c s.baseline poll)).map Change.report := by
  rw [Poller.drain_fst_of_seeded hseeded]
  exact report_diff (hvalid.1 hseeded)

lemma startsAt_of_seeded (hseeded : s.seeded = true) (hvalid : RecordsValid c s (poll :: polls))
    (hkeyed : Keyed s.baseline) (pid : ℕ) (starttime : ℤ) :
    startsAt c s poll pid starttime =
      (Dict.get (scan c s.baseline poll) pid).elim [] fun state =>
        if isNews (Dict.get s.baseline pid) state = true then
          [(Change.started state).report].filter (isStart pid starttime) else [] := by
  rw [startsAt, report_drain hseeded hvalid]
  exact starts_changes s.baseline (scan_keyed hkeyed) pid starttime

lemma startsAt_of_unseeded (hseeded : s.seeded = false) : startsAt c s poll pid starttime = [] := by
  rw [startsAt, Poller.drain, hseeded]
  rfl

/-- A poll reports at most one start of an instance. -/
lemma length_startsAt_le (hvalid : RecordsValid c s (poll :: polls)) (hkeyed : Keyed s.baseline) :
    (startsAt c s poll pid starttime).length ≤ 1 := by
  cases hseeded : s.seeded with
  | false => simp [startsAt_of_unseeded hseeded]
  | true =>
      rw [startsAt_of_seeded hseeded hvalid hkeyed]
      cases Dict.get (scan c s.baseline poll) pid with
      | none => exact Nat.zero_le 1
      | some state =>
          rw [Option.elim_some]
          split_ifs
          · exact List.length_filter_le _ _
          · exact Nat.zero_le 1

end Poll

/-! ## Two sightings settle an image -/

/-- The baseline has the instance, with an image that is settled. -/
def SettledIn (snapshot : Snapshot) (pid : ℕ) (starttime : ℤ) : Prop :=
  ∃ state, Dict.get snapshot pid = some state ∧ state.starttime = starttime ∧ state.settled = true

section Sightings

variable {s : Poller.State Snapshot} {poll : Poll} {polls : List Poll} {pid : ℕ} {starttime : ℤ}

/-- A second sighting settles the image. -/
lemma settledIn_scan (hcap : (iterPids c.unicode poll).length ≤ c.maxProcs)
    (hsighted : Sighted c.unicode pid starttime poll) {previous : Snapshot} {old : ProcState}
    (hget : Dict.get previous pid = some old) (hold : old.starttime = starttime) :
    SettledIn (scan c previous poll) pid starttime := by
  rcases exists_get_scan hcap hsighted previous with ⟨state, hstate, hstart, hread⟩
  refine ⟨state, hstate, hstart, ?_⟩
  cases hread with
  | fresh hnew => exact absurd (hold.trans hstart.symm) (hnew old hget)
  | kept _ _ _ _ _ hsettled => exact hsettled
  | reread _ _ _ _ _ hsettled => exact hsettled

/-- A settled image is not reported again. -/
lemma startsAt_of_settled (hcap : (iterPids c.unicode poll).length ≤ c.maxProcs)
    (hsighted : Sighted c.unicode pid starttime poll)
    (hvalid : RecordsValid c s (poll :: polls)) (hkeyed : Keyed s.baseline)
    (hsettled : SettledIn s.baseline pid starttime) : startsAt c s poll pid starttime = [] := by
  rcases hsettled with ⟨old, hget, hold, hsettled⟩
  cases hseeded : s.seeded with
  | false => exact startsAt_of_unseeded hseeded
  | true =>
      rcases exists_get_scan hcap hsighted s.baseline with ⟨state, hstate, hstart, hread⟩
      have himage : old.image = state.image := by
        cases hread with
        | fresh hnew => exact absurd (hold.trans hstart.symm) (hnew old hget)
        | kept old' hknown _ _ himage _ =>
            rw [himage, Option.some.inj (hget.symm.trans hknown)]
        | reread old' hknown _ hunsettled _ _ =>
            rw [← Option.some.inj (hget.symm.trans hknown), hsettled] at hunsettled
            cases hunsettled
      have hnews : isNews (some old) state = false := by
        simp [isNews, himage, hold, hstart]
      rw [startsAt_of_seeded hseeded hvalid hkeyed, hstate, hget, Option.elim_some, hnews]
      rfl

/-- The starts of an instance that a run reports, one poll after the other. -/
def startsIn (c : Config) (s : Poller.State Snapshot) (polls : List Poll) (pid : ℕ)
    (starttime : ℤ) : List ProcessReport :=
  (((collector c).run s polls).map RawProcessEvent.report).filter (isStart pid starttime)

lemma startsIn_cons : startsIn c s (poll :: polls) pid starttime =
    startsAt c s poll pid starttime ++
      startsIn c ((collector c).drain s poll).2 polls pid starttime := by
  rw [startsIn, Poller.run, List.map_append, List.filter_append]
  rfl

lemma keyed_drain (hkeyed : Keyed s.baseline) :
    Keyed ((collector c).drain s poll).2.baseline := by
  rw [Poller.drain_snd]
  exact scan_keyed hkeyed

/-- As long as it is sighted, a settled instance stays settled and has no start. -/
lemma startsIn_of_settled (hcap : ∀ poll ∈ polls, (iterPids c.unicode poll).length ≤ c.maxProcs)
    (hsighted : ∀ poll ∈ polls, Sighted c.unicode pid starttime poll)
    (hvalid : RecordsValid c s polls) (hkeyed : Keyed s.baseline)
    (hsettled : SettledIn s.baseline pid starttime) : startsIn c s polls pid starttime = [] := by
  induction polls generalizing s with
  | nil => rfl
  | cons poll polls ih =>
      have hfirst := hcap poll List.mem_cons_self
      have hseen := hsighted poll List.mem_cons_self
      have hnext : SettledIn ((collector c).drain s poll).2.baseline pid starttime := by
        rcases hsettled with ⟨old, hget, hold, -⟩
        rw [Poller.drain_snd]
        exact settledIn_scan hfirst hseen hget hold
      rw [startsIn_cons, startsAt_of_settled hfirst hseen hvalid hkeyed hsettled]
      exact ih (fun p hp => hcap p (List.mem_cons_of_mem _ hp))
        (fun p hp => hsighted p (List.mem_cons_of_mem _ hp)) hvalid.2 (keyed_drain hkeyed) hnext

/-- A continuous sighting of an instance has at most two starts. -/
lemma length_startsIn_le (hcap : ∀ poll ∈ polls, (iterPids c.unicode poll).length ≤ c.maxProcs)
    (hsighted : ∀ poll ∈ polls, Sighted c.unicode pid starttime poll)
    (hvalid : RecordsValid c s polls) (hkeyed : Keyed s.baseline) :
    (startsIn c s polls pid starttime).length ≤ 2 := by
  match polls with
  | [] => exact Nat.zero_le 2
  | [first] =>
      rw [startsIn_cons, List.length_append]
      exact Nat.add_le_add (length_startsAt_le hvalid hkeyed) (Nat.zero_le 1)
  | first :: second :: polls =>
      have hsecond : second ∈ first :: second :: polls := List.mem_cons_of_mem _ List.mem_cons_self
      rcases exists_get_scan (hcap first List.mem_cons_self) (hsighted first List.mem_cons_self)
        s.baseline with ⟨state, hstate, hstart, -⟩
      have hkeyed' : Keyed ((collector c).drain s first).2.baseline := keyed_drain hkeyed
      have hsettled : SettledIn ((collector c).drain ((collector c).drain s first).2
          second).2.baseline pid starttime := by
        rw [Poller.drain_snd, Poller.drain_snd]
        exact settledIn_scan (hcap second hsecond) (hsighted second hsecond) hstate hstart
      have hrest := startsIn_of_settled
        (fun p hp => hcap p (List.mem_cons_of_mem _ (List.mem_cons_of_mem _ hp)))
        (fun p hp => hsighted p (List.mem_cons_of_mem _ (List.mem_cons_of_mem _ hp)))
        hvalid.2.2 (keyed_drain hkeyed') hsettled
      rw [startsIn_cons, startsIn_cons, hrest, List.append_nil, List.length_append]
      exact Nat.add_le_add (length_startsAt_le hvalid hkeyed)
        (length_startsAt_le hvalid.2 hkeyed')

end Sightings

/-! ## The image of the second sighting -/

section SecondSighting

variable {s : Poller.State Snapshot} {first second : Poll} {later : List Poll} {pid : ℕ}
  {starttime : ℤ}

/-- A start that is news is reported. -/
lemma mem_report_of_isNews {poll : Poll} {state : ProcState} (hseeded : s.seeded = true)
    (hvalid : RecordsValid c s (poll :: later))
    (hget : Dict.get (scan c s.baseline poll) pid = some state)
    (hnews : isNews (Dict.get s.baseline pid) state = true) :
    (Change.started state).report ∈
      ((collector c).drain s poll).1.map RawProcessEvent.report := by
  rw [report_drain hseeded hvalid]
  refine List.mem_map_of_mem (List.mem_append_left _ (List.mem_flatMap.mpr
    ⟨(pid, state), Dict.mem_of_get hget, ?_⟩))
  dsimp only [changesOf]
  cases hold : Dict.get s.baseline pid with
  | none => exact List.mem_cons_self
  | some previous =>
      rw [hold, isNews, Option.all_some, Bool.or_eq_true, bne_iff_ne, bne_iff_ne] at hnews
      dsimp only
      split_ifs with hother himage
      · exact List.mem_cons_of_mem _ List.mem_cons_self
      · exact List.mem_cons_self
      · exact absurd hnews (by tauto)

/-- What an instance runs at its second sighting is reported by then. -/
lemma image_reported (hkeyed : Keyed s.baseline)
    (hcap : (iterPids c.unicode first).length ≤ c.maxProcs)
    (hcap' : (iterPids c.unicode second).length ≤ c.maxProcs)
    (hvalid : RecordsValid c s (first :: second :: later))
    (hnew : ∀ old ∈ Dict.get s.baseline pid, old.starttime ≠ starttime)
    (hfirst : Sighted c.unicode pid starttime first)
    (hsecond : Sighted c.unicode pid starttime second)
    (hreadable : imageOf (second.files pid) ≠ (none, none)) :
    ⟨"process_started", pid, starttime, imageOf (second.files pid)⟩ ∈
        ((collector c).run s [first, second]).map RawProcessEvent.report ∨
      s.seeded = false ∧ imageOf (first.files pid) = imageOf (second.files pid) := by
  rcases exists_get_scan hcap hfirst s.baseline with ⟨state, hget, hstart, hread⟩
  obtain ⟨himage, hunsettled⟩ : state.image = imageOf (first.files pid) ∧
      state.settled = false := by
    cases hread with
    | fresh _ himage hunsettled => exact ⟨himage, hunsettled⟩
    | kept old hknown hsame => exact absurd (hsame.trans hstart) (hnew old hknown)
    | reread old hknown hsame => exact absurd (hsame.trans hstart) (hnew old hknown)
  have hreport : ∀ previous, Keyed previous → ∀ poll now, Dict.get (scan c previous poll) pid =
      some now → now.starttime = starttime →
        (Change.started now).report = ⟨"process_started", pid, starttime, now.image⟩ := by
    intro previous hprevious poll now hnow hsame
    rw [Change.report, Change.state, (scan_keyed hprevious).pid_of_get hnow, hsame]
    rfl
  have hnext : ((collector c).drain s first).2 = ⟨scan c s.baseline first, true⟩ :=
    Poller.drain_snd s first
  have hvalid' := hvalid.2
  rw [Poller.run, Poller.run_singleton, List.map_append, List.mem_append, hnext]
  rw [hnext] at hvalid'
  by_cases hsame : imageOf (first.files pid) = imageOf (second.files pid)
  · cases hseeded : s.seeded with
    | false => exact Or.inr ⟨rfl, hsame⟩
    | true =>
        -- the first sighting was reported, with the same image
        refine Or.inl (Or.inl ?_)
        have hnews : isNews (Dict.get s.baseline pid) state = true := by
          cases hold : Dict.get s.baseline pid with
          | none => rfl
          | some old => simp [isNews, hstart, hnew old hold]
        rw [← hsame, ← himage, ← hreport _ hkeyed _ _ hget hstart]
        exact mem_report_of_isNews hseeded hvalid hget hnews
  · -- the second sighting is reported, as the image is another one
    refine Or.inl (Or.inr ?_)
    rcases exists_get_scan hcap' hsecond (scan c s.baseline first) with
      ⟨now, hnow, hstart', hread'⟩
    have himage' : now.image = imageOf (second.files pid) := by
      cases hread' with
      | fresh _ himage' => exact himage'
      | kept old hknown _ hwhy =>
          have hold : state = old := Option.some.inj (hget.symm.trans hknown)
          rcases hwhy with hsettled | hnone
          · rw [← hold, hunsettled] at hsettled
            cases hsettled
          · exact absurd hnone hreadable
      | reread _ _ _ _ himage' => exact himage'
    have hnews : isNews (Dict.get (scan c s.baseline first) pid) now = true := by
      rw [hget]
      simp [isNews, himage, himage', hsame]
    rw [← himage', ← hreport _ (scan_keyed hkeyed) _ _ hnow hstart']
    exact mem_report_of_isNews rfl hvalid' hnow hnews

end SecondSighting

/-! ## The image of an end -/

section Ends

variable {polls : List Poll} {poll : Poll} {pid : ℕ} {starttime : ℤ}

lemma seeded_after {polls : List Poll} (h : polls ≠ []) :
    ((collector c).after (collector c).initial polls).seeded = true := by
  rcases List.eq_nil_or_concat' polls with rfl | ⟨polls, poll, rfl⟩
  · exact absurd rfl h
  · rw [Poller.after_concat]

lemma reportsOf_concat : reportsOf c [] (polls ++ [poll]) =
    reportsOf c [] polls ++ reportsOf c polls [poll] := by
  rw [reportsOf, Poller.run_append, List.map_append]
  rfl

lemma starts_reportsOf : (reportsOf c polls [poll]).filter (isStart pid starttime) =
    startsAt c ((collector c).after (collector c).initial polls) poll pid starttime := by
  rw [reportsOf, Poller.run_singleton]
  rfl

lemma seedImage_concat (h : polls ≠ []) :
    seedImage c (polls ++ [poll]) pid starttime = seedImage c polls pid starttime := by
  rw [seedImage, seedImage, List.head?_append_of_ne_nil _ h]

/-- A start is what is known of an instance from then on. -/
lemma lastImage_of_start {report : ProcessReport}
    (h : startsAt c ((collector c).after (collector c).initial polls) poll pid starttime =
      [report]) : lastImage c (polls ++ [poll]) pid starttime = some report.image := by
  rw [lastImage, reportsOf_concat, List.filter_append, starts_reportsOf, h,
    List.getLast?_append_of_ne_nil _ (List.cons_ne_nil _ _)]
  rfl

lemma lastImage_of_no_start (hne : polls ≠ [])
    (h : startsAt c ((collector c).after (collector c).initial polls) poll pid starttime = []) :
    lastImage c (polls ++ [poll]) pid starttime = lastImage c polls pid starttime := by
  rw [lastImage, reportsOf_concat, List.filter_append, starts_reportsOf, h, List.append_nil,
    seedImage_concat hne]
  rfl

/-- **The image in the baseline is the last one that was reported.** -/
lemma image_known (hvalid : RecordsValid c (collector c).initial polls) {state : ProcState}
    (hget : Dict.get ((collector c).after (collector c).initial polls).baseline pid = some state) :
    lastImage c polls pid state.starttime = some state.image := by
  induction polls using List.reverseRecOn generalizing state with
  | nil => cases hget
  | append_singleton polls poll ih =>
      rcases recordsValid_append.mp hvalid with ⟨hbefore, hpoll⟩
      rw [Poller.after_concat] at hget
      rcases List.eq_nil_or_concat' polls with rfl | ⟨first, second, hpolls⟩
      · -- the poll that seeds the baseline
        show (seedImage c [poll] pid state.starttime) = some state.image
        have hseed : Dict.get (scan c [] poll) pid = some state := hget
        simp [seedImage, hseed]
      · have hne : polls ≠ [] := by simp [hpolls]
        have hkeyed := baseline_keyed (c := c) polls
        have hstarts := startsAt_of_seeded (seeded_after hne) hpoll hkeyed pid state.starttime
        have hscan : Dict.get (scan c ((collector c).after (collector c).initial
            polls).baseline poll) pid = some state := hget
        rw [hscan, Option.elim_some] at hstarts
        cases hnews : isNews (Dict.get ((collector c).after (collector c).initial
          polls).baseline pid) state with
        | true =>
            have hmine : isStart pid state.starttime (Change.started state).report = true :=
              (isStart_started _ _ _).mpr ⟨(scan_keyed hkeyed).pid_of_get hscan, rfl⟩
            rw [hnews, if_pos rfl, List.filter_cons, if_pos hmine] at hstarts
            exact lastImage_of_start hstarts
        | false =>
            rw [hnews, if_neg Bool.false_ne_true] at hstarts
            rw [lastImage_of_no_start hne hstarts]
            cases hold : Dict.get ((collector c).after (collector c).initial polls).baseline
              pid with
            | none =>
                rw [hold] at hnews
                cases hnews
            | some old =>
                rw [hold, isNews, Option.all_some, Bool.or_eq_false_iff, bne_eq_false_iff_eq,
                  bne_eq_false_iff_eq] at hnews
                rw [← hnews.1, ← hnews.2]
                exact ih hbefore hold

/-- An end is reported with the last image that was reported. -/
lemma image_of_stop (hvalid : RecordsValid c (collector c).initial (polls ++ [poll]))
    {report : ProcessReport} (hmem : report ∈ reportsOf c polls [poll])
    (hstop : report.action = "process_stopped") :
    lastImage c polls report.pid report.starttime = some report.image := by
  rcases recordsValid_append.mp hvalid with ⟨hbefore, hpoll⟩
  have hkeyed := baseline_keyed (c := c) polls
  rw [reportsOf, Poller.run_singleton] at hmem
  cases hseeded : ((collector c).after (collector c).initial polls).seeded with
  | false =>
      rw [Poller.drain, hseeded] at hmem
      cases hmem
  | true =>
      rw [report_drain hseeded hpoll] at hmem
      rcases List.mem_map.mp hmem with ⟨change, hchange, rfl⟩
      cases change with
      | started state =>
          have haction : (Change.started state).report.action = "process_started" := rfl
          rw [haction] at hstop
          exact absurd hstop (by decide)
      | stopped state => exact image_known hbefore (get_of_stopped hkeyed hchange)

end Ends

/-! ## Every run -/

/-- **What a process runs after its first sighting is reported**: the image of the second sighting
is reported by then or was seeded, a continuous sighting has at most two starts, and an end is
reported with the image of the last start. -/
theorem exec_reported (c : Config) (polls : List Poll)
    (hcap : ∀ poll ∈ polls, (iterPids c.unicode poll).length ≤ c.maxProcs)
    (hvalid : RecordsValid c (collector c).initial polls) :
    (∀ before first second later pid starttime, polls = before ++ first :: second :: later →
      (∀ last ∈ before.getLast?, ¬ Sighted c.unicode pid starttime last) →
      Sighted c.unicode pid starttime first → Sighted c.unicode pid starttime second →
      imageOf (second.files pid) ≠ (none, none) →
        ⟨"process_started", pid, starttime, imageOf (second.files pid)⟩ ∈
            reportsOf c before [first, second] ∨
          before = [] ∧ imageOf (first.files pid) = imageOf (second.files pid)) ∧
    (∀ before sighted later pid starttime, polls = before ++ sighted ++ later →
      (∀ poll ∈ sighted, Sighted c.unicode pid starttime poll) →
        ((reportsOf c before sighted).filter (isStart pid starttime)).length ≤ 2) ∧
    ∀ before poll later, polls = before ++ poll :: later → ∀ report ∈ reportsOf c before [poll],
      report.action = "process_stopped" →
        lastImage c before report.pid report.starttime = some report.image := by
  refine ⟨?_, ?_, ?_⟩
  · intro before first second later pid starttime hpolls hnew hfirst hsecond hreadable
    subst hpolls
    have hrest := (recordsValid_append.mp hvalid).2
    have hunseen : ∀ old ∈ Dict.get ((collector c).after (collector c).initial before).baseline
        pid, old.starttime ≠ starttime := by
      rintro old hold rfl
      rcases List.eq_nil_or_concat' before with rfl | ⟨before, last, rfl⟩
      · cases hold
      · rw [Poller.after_concat] at hold
        exact hnew last (by simp) (sighted_of_get_scan hold)
    rcases image_reported (baseline_keyed before) (hcap first (by simp)) (hcap second (by simp))
      hrest hunseen hfirst hsecond hreadable with hreported | ⟨hseeded, hsame⟩
    · exact Or.inl hreported
    · refine Or.inr ⟨?_, hsame⟩
      by_contra hne
      rw [seeded_after hne] at hseeded
      cases hseeded
  · intro before sighted later pid starttime hpolls hsighted
    subst hpolls
    have hvalid' := (recordsValid_append.mp (recordsValid_append.mp hvalid).1).2
    exact length_startsIn_le (fun poll hpoll => hcap poll (by simp [hpoll])) hsighted hvalid'
      (baseline_keyed before)
  · intro before poll later hpolls report hmem hstop
    subst hpolls
    have hsplit : before ++ poll :: later = (before ++ [poll]) ++ later := by simp
    rw [hsplit] at hvalid
    exact image_of_stop (recordsValid_append.mp hvalid).1 hmem hstop

/-! ## A shell that becomes another program -/

/-- A poll that finds one process, with this command line. -/
def shellPoll (listed : Bool) (cmdline : String) : Poll where
  entries := some (if listed then ["4242".toList] else [])
  files _ :=
    { stat := some "4242 (bash) S 1 7 7 0 -1 0 0 0 0 0 0 0 0 0 20 0 1 0 5000".toList
      cmdline := some cmdline.toUTF8.toList }
  clock _ := 0

def shellConfig : Config := { host := "web", unicode := PyText.ascii }

/-- `bash` is seen before it becomes `useradd`, which then exits. -/
def shellRun : List Poll :=
  [shellPoll false "", shellPoll true "bash", shellPoll true "useradd", shellPoll false ""]

theorem exec_reported_shell :
    ⟨"process_started", 4242, 5000, (some "useradd", none)⟩ ∈
        reportsOf shellConfig [shellPoll false ""]
          [shellPoll true "bash", shellPoll true "useradd"] ∧
      lastImage shellConfig (shellRun.take 3) 4242 5000 = some (some "useradd", none) := by
  have hspec := exec_reported shellConfig shellRun (by decide +kernel) (by decide +kernel)
  have hseen : Sighted shellConfig.unicode 4242 5000 (shellPoll true "bash") :=
    ⟨by decide +kernel, 1, by decide +kernel⟩
  have hseen' : Sighted shellConfig.unicode 4242 5000 (shellPoll true "useradd") :=
    ⟨by decide +kernel, 1, by decide +kernel⟩
  have himage : imageOf ((shellPoll true "useradd").files 4242) = (some "useradd", none) := by
    decide +kernel
  constructor
  · rcases hspec.1 [shellPoll false ""] (shellPoll true "bash") (shellPoll true "useradd")
      [shellPoll false ""] 4242 5000 rfl
      (fun last hlast hsighted => by
        rw [← Option.some.inj hlast] at hsighted
        exact absurd hsighted.1 (by decide +kernel))
      hseen hseen' (by rw [himage]; decide) with hreported | ⟨hnil, -⟩
    · rw [himage] at hreported
      exact hreported
    · cases hnil
  · exact hspec.2.2 (shellRun.take 3) (shellPoll false "") [] rfl
      ⟨"process_stopped", 4242, 5000, (some "useradd", none)⟩ (by decide +kernel) rfl

end Process

end Sentinel
