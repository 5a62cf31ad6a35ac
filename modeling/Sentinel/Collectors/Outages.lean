import Sentinel.Collectors.Network
import Sentinel.Collectors.Process
import Sentinel.Normalizer.Identity

/-!
# Sources that cannot be read

A poll that cannot read its source finds nothing, and `_drain_once` takes that for a host on which
nothing is left: it reports the end of everything in the baseline and forgets it, and the next poll
reports everything that is still there as new.  If the collector cannot read its source when it
seeds its baseline, everything that was running then is new as well.

`Spared` runs are those in which an unreadable poll finds a seeded collector with nothing in its
baseline, so that there is nothing to forget.  In these runs outages go unnoticed, and if a seeded
collector can report all that is in its baseline, only in these.
-/

namespace Sentinel

open Poller

/-! ## Processes -/

namespace Process

/-- A poll that cannot list the proc root. -/
abbrev Unreadable (poll : Poll) : Prop := poll.sourceAvailable = false

lemma blind_of_unreadable (c : Config) (poll : Poll) (h : Unreadable poll) :
    (collector c).Blind poll := by
  intro baseline
  have hentries : poll.entries = none := Option.not_isSome_iff_eq_none.mp (Bool.eq_false_iff.mp h)
  have hpids : iterPids c.unicode poll = [] := by rw [iterPids, hentries]; rfl
  show scanPids c poll baseline (iterPids c.unicode poll) [] = []
  rw [hpids, scanPids]

/-- A process is there in both polls and has not changed. -/
def Unchanged (u : PyText.Unicode) (pid : ℕ) (poll poll' : Poll) : Prop :=
  pid ∈ iterPids u poll ∧ pid ∈ iterPids u poll' ∧ poll.files pid = poll'.files pid

/-- An unreadable source is not a change of the host: once the collector is seeded it is no reason
for an event, when the source can be read again there is no record about a process that has not
changed, and if the source could not be read from the start the first poll that reads it seeds the
baseline. -/
structure OutagesUnnoticed (c : Config) (hash : TextHash) (s : State Snapshot)
    (polls : List Poll) : Prop where
  during : ∀ before poll later, polls = before ++ poll :: later → Unreadable poll →
    ((collector c).after s before).seeded = true →
      emitted hash ((collector c).drain ((collector c).after s before) poll).1 = []
  recovery : ∀ before last outage next later, polls = before ++ last :: outage ++ next :: later →
    outage ≠ [] → (∀ poll ∈ outage, Unreadable poll) → ∀ pid, Unchanged c.unicode pid last next →
      ∀ raw ∈ ((collector c).drain ((collector c).after s (before ++ last :: outage)) next).1,
        raw.pid ≠ pid
  seeding : ∀ outage next later, polls = outage ++ next :: later → outage ≠ [] →
    (∀ poll ∈ outage, Unreadable poll) → s.seeded = false →
      ((collector c).drain ((collector c).after s outage) next).1 = []

/-- Every record of an idle collector is about a process it has just read. -/
lemma readable_of_mem_drain_idle {c : Config} {poll : Poll} {raw : RawProcessEvent}
    (h : raw ∈ ((collector c).drain (collector c).idle poll).1) :
    0 < c.maxProcs ∧ raw.pid ∈ iterPids c.unicode poll ∧
      (poll.files raw.pid).stat.bind (parseStat c.unicode) ≠ none := by
  rw [drain_fst_of_seeded (by rfl)] at h
  rcases exists_change_of_mem_diff h with ⟨change, hchange, t, hraw⟩
  have hnew : change ∈
      ((scan c [] poll).flatMap fun entry => changesOf [] entry.1 entry.2) ++ [] :=
    hchange
  rw [List.append_nil] at hnew
  rcases List.mem_flatMap.mp hnew with ⟨entry, hentry, hchange⟩
  rcases mem_scan hentry with ⟨hpos, hmem, hread⟩
  have hstarted : change = .started entry.2 := List.mem_singleton.mp hchange
  have hpid : raw.pid = entry.1 := by
    rw [(fields_of_rawOf hraw).2.1, hstarted]
    exact pid_of_readProc hread fun old hold => by cases hold
  rw [hpid]
  refine ⟨hpos, hmem, fun hnone => ?_⟩
  rw [readProc_eq_none_iff.mpr hnone] at hread
  cases hread

lemma outagesUnnoticed_of_spared {c : Config} (hash : TextHash) {s : State Snapshot}
    {polls : List Poll} (h : (collector c).Spared Unreadable s polls) :
    OutagesUnnoticed c hash s polls where
  during before poll later hpolls hpoll _ := by
    subst hpolls
    rw [h.drain_fst hpoll (blind_of_unreadable c poll hpoll)]
    rfl
  recovery before last outage next later hpolls hne houtage pid hunchanged raw hraw := by
    subst hpolls
    rcases hunchanged with ⟨hlast, -, hfiles⟩
    rcases h.recovery (blind_of_unreadable c) hne houtage with ⟨hempty, hidle⟩
    rw [hidle] at hraw
    rcases readable_of_mem_drain_idle hraw with ⟨hpos, -, hreadable⟩
    rintro rfl
    have hnone := readProc_of_scanPids_eq_nil hempty hpos hlast
    rw [hfiles] at hnone
    exact hreadable hnone
  seeding outage next later hpolls hne houtage hseeded := by
    subst hpolls
    rw [h.eq_idle hne houtage] at hseeded
    cases hseeded

/-- Exactly if nothing in the baseline can be reported, an unreadable poll is silent. -/
lemma emitted_unreadable_eq_nil_iff {c : Config} {hash : TextHash} {s : State Snapshot}
    {poll : Poll} (hseeded : s.seeded = true) (h : Unreadable poll) :
    emitted hash ((collector c).drain s poll).1 = [] ↔
      ∀ entry ∈ (s.baseline.map fun (_, state) => Change.stopped state).zipIdx,
        (rawOf c (poll.clock entry.2) entry.1).bind (mapProcess hash) = none := by
  have hchanges : changes s.baseline [] = s.baseline.map fun (_, state) => .stopped state := by
    simp [changes, Dict.get]
  rw [drain_fst_of_seeded hseeded, blind_of_unreadable c poll h, emitted]
  show ((changes s.baseline []).zipIdx.filterMap _).filterMap _ = [] ↔ _
  rw [List.filterMap_filterMap, List.filterMap_eq_nil_iff, hchanges]

/-- Whenever the source cannot be read, every process of the baseline can be reported as stopped. -/
def Reportable (c : Config) (hash : TextHash) (s : State Snapshot) (polls : List Poll) : Prop :=
  ∀ before poll later, polls = before ++ poll :: later → Unreadable poll →
    ∀ entry ∈ ((collector c).after s before).baseline, ∀ n,
      (rawOf c (poll.clock n) (.stopped entry.2)).bind (mapProcess hash) ≠ none

/-- **Only then.**  If a seeded collector can report what it forgets, outages go unnoticed exactly
in the spared runs. -/
theorem unnoticed_iff_spared {c : Config} {hash : TextHash} {s : State Snapshot}
    {polls : List Poll} (hseeded : s.seeded = true) (hreport : Reportable c hash s polls) :
    OutagesUnnoticed c hash s polls ↔ (collector c).Spared Unreadable s polls := by
  refine ⟨fun h => ?_, outagesUnnoticed_of_spared hash⟩
  refine spared_of_baseline (blind_of_unreadable c) hseeded fun before poll later hpolls hpoll => ?_
  have hsilent := (emitted_unreadable_eq_nil_iff (after_seeded hseeded before) hpoll).mp
    (h.during before poll later hpolls hpoll (after_seeded hseeded before))
  have hreport := hreport before poll later hpolls hpoll
  cases hbaseline : ((collector c).after s before).baseline with
  | nil => rfl
  | cons entry baseline =>
      rw [hbaseline] at hsilent hreport
      exact absurd (hsilent (.stopped entry.2, 0) List.mem_cons_self)
        (hreport entry List.mem_cons_self 0)

end Process

/-! ## Sockets -/

namespace Network

/-- A poll that can read no table. -/
abbrev Unreadable (poll : Poll) : Prop := poll.sourceAvailable = false

lemma visible_of_unreadable (c : Config) {poll : Poll} (h : Unreadable poll) :
    visible c poll = [] := by
  have htables : ∀ source ∈ sources, poll.tables source.2 = none := by
    intro source hsource
    have hnot := List.any_eq_false.mp h source hsource
    exact Option.not_isSome_iff_eq_none.mp hnot
  have hrows : rows c.platform poll = [] := by
    refine List.flatMap_eq_nil_iff.mpr fun source hsource => ?_
    show (PyText.splitLines ((poll.tables source.2).getD [])).filterMap _ = []
    rw [htables source hsource]
    rfl
  rw [visible, hrows]
  rfl

lemma blind_of_unreadable (c : Config) (poll : Poll) (h : Unreadable poll) :
    (collector c).Blind poll := by
  intro baseline
  show fill c.maxSockets ((visible c poll).filter isListener ++
    (visible c poll).filter fun sock => !isListener sock) [] = []
  rw [visible_of_unreadable c h]
  rfl

/-- A socket is there in both polls, and is or is not the sensor's own in both. -/
def Unchanged (p : Platform) (sock : Socket) (poll poll' : Poll) : Prop :=
  sock ∈ rows p poll ∧ sock ∈ rows p poll' ∧ isOwn p.unicode poll sock = isOwn p.unicode poll' sock

/-- The same for sockets. -/
structure OutagesUnnoticed (c : Config) (hash : TextHash) (s : State Snapshot)
    (polls : List Poll) : Prop where
  during : ∀ before poll later, polls = before ++ poll :: later → Unreadable poll →
    ((collector c).after s before).seeded = true →
      emitted hash ((collector c).drain ((collector c).after s before) poll).1 = []
  recovery : ∀ before last outage next later, polls = before ++ last :: outage ++ next :: later →
    outage ≠ [] → (∀ poll ∈ outage, Unreadable poll) → ∀ sock, Unchanged c.platform sock last next →
      ∀ raw ∈ ((collector c).drain ((collector c).after s (before ++ last :: outage)) next).1,
        ¬ (raw.key = sock.key ∧ raw.state = sock.state.value)
  seeding : ∀ outage next later, polls = outage ++ next :: later → outage ≠ [] →
    (∀ poll ∈ outage, Unreadable poll) → s.seeded = false →
      ((collector c).drain ((collector c).after s outage) next).1 = []

/-- Every record of an idle collector is about a socket it can see. -/
lemma visible_of_mem_drain_idle {c : Config} {poll : Poll} {raw : RawNetworkEvent}
    (h : raw ∈ ((collector c).drain (collector c).idle poll).1) :
    0 < c.maxSockets ∧ ∃ sock ∈ visible c poll, raw.key = sock.key ∧
      raw.state = sock.state.value := by
  rw [drain_fst_of_seeded (by rfl)] at h
  rcases exists_change_of_mem_diff h with ⟨change, hchange, t, hraw⟩
  rcases mem_changes.mp hchange with ⟨key, sock, hmem, -, rfl⟩ | ⟨key, sock, hmem, -⟩
  · rcases mem_scan hmem with ⟨hpos, hvisible, -⟩
    exact ⟨hpos, sock, hvisible, (fields_of_rawOf hraw).2⟩
  · cases hmem

lemma value_injective : Function.Injective TcpState.value := by
  intro state state' h
  cases state <;> cases state' <;> first | rfl | exact absurd h (by decide)

/-- Whether a socket is visible depends on its key and its state. -/
lemma mem_visible_of_key_eq {c : Config} {poll : Poll} {sock sock' : Socket}
    (h : sock' ∈ visible c poll) (hkey : sock'.key = sock.key) (hstate : sock'.state = sock.state)
    (hmem : sock ∈ rows c.platform poll) : sock ∈ visible c poll := by
  have hinode : sock'.inode = sock.inode := by
    simp only [Socket.key, Prod.mk.injEq] at hkey
    exact hkey.2.2.2.2.2
  refine List.mem_filter.mpr ⟨hmem, ?_⟩
  rw [← hstate, isOwn, ← hinode]
  exact (List.mem_filter.mp h).2

lemma outagesUnnoticed_of_spared {c : Config} (hash : TextHash) {s : State Snapshot}
    {polls : List Poll} (h : (collector c).Spared Unreadable s polls) :
    OutagesUnnoticed c hash s polls where
  during before poll later hpolls hpoll _ := by
    subst hpolls
    rw [h.drain_fst hpoll (blind_of_unreadable c poll hpoll)]
    rfl
  recovery before last outage next later hpolls hne houtage sock hunchanged raw hraw := by
    subst hpolls
    rcases hunchanged with ⟨hlast, hnext, hown⟩
    rcases h.recovery (blind_of_unreadable c) hne houtage with ⟨hempty, hidle⟩
    rw [hidle] at hraw
    rcases visible_of_mem_drain_idle hraw with ⟨hpos, sock', hvisible, hkey', hstate'⟩
    rintro ⟨hkey, hstate⟩
    have hvisible : sock ∈ visible c next :=
      mem_visible_of_key_eq hvisible (hkey'.symm.trans hkey)
        (value_injective (hstate'.symm.trans hstate)) hnext
    have hseen : sock ∈ visible c last := by
      refine List.mem_filter.mpr ⟨hlast, ?_⟩
      rw [hown]
      exact (List.mem_filter.mp hvisible).2
    rw [visible_of_scan_eq_nil hempty hpos] at hseen
    cases hseen
  seeding outage next later hpolls hne houtage hseeded := by
    subst hpolls
    rw [h.eq_idle hne houtage] at hseeded
    cases hseeded

/-- The same as for processes: when an unreadable poll is silent. -/
lemma emitted_unreadable_eq_nil_iff {c : Config} {hash : TextHash} {s : State Snapshot}
    {poll : Poll} (hseeded : s.seeded = true) (h : Unreadable poll) :
    emitted hash ((collector c).drain s poll).1 = [] ↔
      ∀ entry ∈ (s.baseline.map fun (_, sock) => Change.disappeared sock).zipIdx,
        (rawOf c (poll.clock entry.2) entry.1).bind (mapNetwork hash) = none := by
  have hchanges : changes s.baseline [] =
      s.baseline.map fun (_, sock) => .disappeared sock := by
    simp [changes, Dict.get]
  rw [drain_fst_of_seeded hseeded, blind_of_unreadable c poll h, emitted]
  show ((changes s.baseline []).zipIdx.filterMap _).filterMap _ = [] ↔ _
  rw [List.filterMap_filterMap, List.filterMap_eq_nil_iff, hchanges]

def Reportable (c : Config) (hash : TextHash) (s : State Snapshot) (polls : List Poll) : Prop :=
  ∀ before poll later, polls = before ++ poll :: later → Unreadable poll →
    ∀ entry ∈ ((collector c).after s before).baseline, ∀ n,
      (rawOf c (poll.clock n) (.disappeared entry.2)).bind (mapNetwork hash) ≠ none

/-- **Only then**, for sockets. -/
theorem unnoticed_iff_spared {c : Config} {hash : TextHash} {s : State Snapshot}
    {polls : List Poll} (hseeded : s.seeded = true) (hreport : Reportable c hash s polls) :
    OutagesUnnoticed c hash s polls ↔ (collector c).Spared Unreadable s polls := by
  refine ⟨fun h => ?_, outagesUnnoticed_of_spared hash⟩
  refine spared_of_baseline (blind_of_unreadable c) hseeded fun before poll later hpolls hpoll => ?_
  have hsilent := (emitted_unreadable_eq_nil_iff (after_seeded hseeded before) hpoll).mp
    (h.during before poll later hpolls hpoll (after_seeded hseeded before))
  have hreport := hreport before poll later hpolls hpoll
  cases hbaseline : ((collector c).after s before).baseline with
  | nil => rfl
  | cons entry baseline =>
      rw [hbaseline] at hsilent hreport
      exact absurd (hsilent (.disappeared entry.2, 0) List.mem_cons_self)
        (hreport entry List.mem_cons_self 0)

end Network

/-! ## Both collectors -/

/-- **Outages go unnoticed when there is nothing to forget**, in every run from every state. -/
theorem outages_unnoticed (hash : TextHash) :
    (∀ (c : Process.Config) (s : State Process.Snapshot) (polls : List Process.Poll),
      (Process.collector c).Spared Process.Unreadable s polls →
        Process.OutagesUnnoticed c hash s polls) ∧
    ∀ (c : Network.Config) (s : State Network.Snapshot) (polls : List Network.Poll),
      (Network.collector c).Spared Network.Unreadable s polls →
        Network.OutagesUnnoticed c hash s polls :=
  ⟨fun _ _ _ h => Process.outagesUnnoticed_of_spared hash h,
    fun _ _ _ h => Network.outagesUnnoticed_of_spared hash h⟩

/-! ## A server that goes on through an outage -/

/-- A poll of a host on which only `sshd` may be running. -/
def sshdPoll (entries : Option (List (List Char))) : Process.Poll where
  entries := entries
  files _ :=
    { stat := some "7 (sshd) S 1 7 7 0 -1 0 0 0 0 0 0 0 0 0 20 0 1 0 100".toList
      cmdline := some [115, 115, 104, 100, 0] }
  clock _ := 0

/-- A poll of its listening socket. -/
def listenerPoll (table : Option String) : Network.Poll where
  tables filename := if filename = "tcp" then table.map String.toList else none
  clock _ := 0

def listenerRow : String :=
  "0: 00000000:0016 00000000:0000 0A 00000000:00000000 00:00000000 00000000 0 0 9"

def processConfig : Process.Config := { host := "web", unicode := PyText.ascii }

def networkConfig : Network.Config :=
  { host := "web", platform := { unicode := PyText.ascii, mappedDotted := false } }

/-- SHA-256 on the identities of the end of the process and of the socket. -/
def outageHash : TextHash where
  digest text :=
    if text = "7\x1f100\x1fprocess_stopped\x1f\x1fsshd" then
      "900ad1b868bdd0a81886cbaf500823e253d05cb4b9e385c0ffe27a5686367daa"
    else "d6a480a632d525500056443af00ae6fdc23dce654ca9c50d1e5177c21984f45d"
  hex text := by
    split_ifs
    · decide +kernel
    · decide +kernel

/-- Nothing runs before the outage; then `sshd` starts. -/
theorem outages_unnoticed_idle :
    Process.OutagesUnnoticed processConfig outageHash (Process.collector processConfig).initial
        [sshdPoll (some []), sshdPoll none, sshdPoll (some [['7']])] ∧
      Network.OutagesUnnoticed networkConfig outageHash (Network.collector networkConfig).initial
        [listenerPoll (some ""), listenerPoll none, listenerPoll (some listenerRow)] :=
  ⟨(outages_unnoticed outageHash).1 _ _ _ (by decide +kernel),
    (outages_unnoticed outageHash).2 _ _ _ (by decide +kernel)⟩

/-- A server that runs all along is reported as stopped by the poll that cannot see it, and as
started by the next one. -/
theorem outage_reported :
    ¬ Process.OutagesUnnoticed processConfig outageHash (Process.collector processConfig).initial
        [sshdPoll (some [['7']]), sshdPoll none, sshdPoll (some [['7']])] ∧
      ¬ Network.OutagesUnnoticed networkConfig outageHash
        (Network.collector networkConfig).initial
        [listenerPoll (some listenerRow), listenerPoll none, listenerPoll (some listenerRow)] := by
  constructor
  · intro h
    have hnone := congrArg List.length
      (h.during [sshdPoll (some [['7']])] (sshdPoll none) _ rfl (by decide) (by decide +kernel))
    exact absurd hnone (by decide +kernel)
  · intro h
    have hnone := congrArg List.length
      (h.during [listenerPoll (some listenerRow)] (listenerPoll none) _ rfl (by decide +kernel)
        (by decide +kernel))
    exact absurd hnone (by decide +kernel)

end Sentinel
