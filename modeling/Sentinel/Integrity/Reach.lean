import Sentinel.Integrity.Walk
import Sentinel.Normalizer.Mapper

/-!
# Files a scan does not get to

`_drain_once` compares two complete scans and trusts what is missing from either.  A scan that meets
its deadline is discarded for exactly that reason, but a scan that stops at `max_files` is not: its
snapshot is compared as if it held every watched file.

`truthful_iff_sameReach` says when the events of a scan are true all the same: just when every file
the first scan recorded and that is still there is among the first `max_files` regular files of the
second walk, and every unchanged file the second scan recorded was among those of the first.  The
order of a walk is that of the directories' entries, so a new file can push an unchanged one out
(`overflow_reads_as_deletion`).
-/

namespace Sentinel.Integrity

/-! ## Events and their subjects -/

section Events

variable {Path : Type} [DecidableEq Path] (c : Collector Path) (hash : TextHash)
  (now : Path → String → ℚ)

/-- The records of `_diff`, each with the path it is about. -/
def reports (old new : Snapshot Path) : List (Path × Option RawFileEvent) :=
  (new.flatMap fun entry => (diffEntry c now old entry).map fun record => (entry.1, record))
    ++ (old.filter fun entry => (Dict.get new entry.1).isNone).map
        fun entry => (entry.1, deleted c (now entry.1 "file_deleted") entry.1 entry.2)

/-- The events of `_drain_once` for these records. -/
def events (old new : Snapshot Path) : List (Path × Event) :=
  (reports c now old new).filterMap fun report =>
    (report.2.bind (mapFile hash)).map fun event => (report.1, event)

lemma diff_eq_reports (old new : Snapshot Path) :
    diff c now old new = ((reports c now old new).map Prod.snd).reduceOption := by
  simp [diff, reports, List.map_flatMap, Function.comp_def]

/-- They are the events of the records of `_diff`. -/
lemma map_snd_events (old new : Snapshot Path) :
    (events c hash now old new).map Prod.snd = (diff c now old new).filterMap (mapFile hash) := by
  rw [diff_eq_reports, events, List.map_filterMap, List.reduceOption, List.filterMap_filterMap,
    List.filterMap_map]
  refine List.filterMap_congr fun report _ => ?_
  simp only [Option.map_map, Function.comp_def, Option.map_id', id]

variable {c} {hash} {now} {old new : Snapshot Path} {path : Path} {event : Event}

lemma mem_events_iff : (path, event) ∈ events c hash now old new ↔
    ∃ r, mapFile hash r = some event ∧
      ((∃ state, (path, state) ∈ new ∧ some r ∈ diffEntry c now old (path, state)) ∨
        ∃ state, (path, state) ∈ old ∧ Dict.get new path = none ∧
          deleted c (now path "file_deleted") path state = some r) := by
  rw [events, List.mem_filterMap]
  constructor
  · rintro ⟨⟨path', record⟩, hreport, hevent⟩
    obtain ⟨event', hmapped, heq⟩ := Option.map_eq_some_iff.mp hevent
    obtain ⟨r, rfl, hr⟩ := Option.bind_eq_some_iff.mp hmapped
    rw [Prod.mk.injEq] at heq
    obtain ⟨rfl, rfl⟩ := heq
    refine ⟨r, hr, ?_⟩
    rcases List.mem_append.mp hreport with hnew | hold
    · obtain ⟨⟨path, state⟩, hentry, hrecord⟩ := List.mem_flatMap.mp hnew
      obtain ⟨record, hrecord, heq⟩ := List.mem_map.mp hrecord
      rw [Prod.mk.injEq] at heq
      obtain ⟨rfl, rfl⟩ := heq
      exact Or.inl ⟨state, hentry, hrecord⟩
    · obtain ⟨⟨path, state⟩, hentry, heq⟩ := List.mem_map.mp hold
      rw [Prod.mk.injEq] at heq
      obtain ⟨rfl, hrecord⟩ := heq
      obtain ⟨hmem, hgone⟩ := List.mem_filter.mp hentry
      exact Or.inr ⟨state, hmem, Option.isNone_iff_eq_none.mp hgone, hrecord⟩
  · rintro ⟨r, hr, ⟨state, hentry, hrecord⟩ | ⟨state, hentry, hgone, hrecord⟩⟩
    · refine ⟨(path, some r), List.mem_append_left _ (List.mem_flatMap.mpr ?_), by simp [hr]⟩
      exact ⟨(path, state), hentry, List.mem_map_of_mem hrecord⟩
    · refine ⟨(path, some r), List.mem_append_right _ (List.mem_map.mpr ?_), by simp [hr]⟩
      refine ⟨(path, state), List.mem_filter.mpr ⟨hentry, ?_⟩, ?_⟩
      · exact Option.isNone_iff_eq_none.mpr hgone
      · rw [hrecord]

omit [DecidableEq Path] in
lemma action_of_raw {occurredAt : ℚ} {s : FileState} {action seed : String} {severity : ℕ}
    {r : RawFileEvent} (h : raw c occurredAt path s action severity seed = some r) :
    r.action = action := by
  unfold raw RawFileEvent.build at h
  split_ifs at h
  rw [← Option.some.inj h]

/-- Nothing in the new snapshot is reported as deleted. -/
lemma action_of_mem_diffEntry {entry : Path × FileState} {r : RawFileEvent}
    (h : some r ∈ diffEntry c now old entry) : r.action ≠ "file_deleted" := by
  have hne : "file_created" ≠ "file_deleted" ∧ "file_modified" ≠ "file_deleted" ∧
      "file_attributes_modified" ≠ "file_deleted" := by decide
  unfold diffEntry at h
  split at h
  · rw [action_of_raw (List.mem_singleton.mp h).symm]
    exact hne.1
  · rcases List.mem_append.mp h with h | h
    · split_ifs at h
      · rw [action_of_raw (List.mem_singleton.mp h).symm]
        exact hne.2.1
      · exact absurd h List.not_mem_nil
    · split_ifs at h
      · rw [action_of_raw (List.mem_singleton.mp h).symm]
        exact hne.2.2
      · exact absurd h List.not_mem_nil

lemma action_of_mapFile {r : RawFileEvent} (h : mapFile hash r = some event) :
    event.event.action = r.action := by
  unfold mapFile at h
  dsimp only at h
  split_ifs at h
  rw [← Option.some.inj h]
  rfl

end Events

/-! ## Every record becomes an event -/

lemma length_toString_int_le {n : ℤ} (h : n.natAbs < 10 ^ 30) : (toString n).length ≤ 31 := by
  cases n with
  | ofNat m => exact le_trans (length_toString_le (by decide) h) (by decide)
  | negSucc m =>
      have hdigits : (toString (m + 1)).length ≤ 30 := length_toString_le (by decide) h
      have hminus : ("-" : String).length = 1 := rfl
      show ("-" ++ toString (m + 1)).length ≤ 31
      rw [String.length_append, hminus]
      omega

lemma fingerprint_bounded {s : FileState} (hsha : ∀ digest ∈ s.sha256, digest.length = 64)
    (hsize : s.size < 2 ^ 64) (hmtime : s.mtimeNs.natAbs < 10 ^ 30) (hctime : s.ctimeNs < 10 ^ 30)
    (hinode : s.inode < 2 ^ 64) : Bounded 1 256 (fingerprint s) := by
  have hsize' : (toString s.size).length ≤ 20 :=
    length_toString_le (by decide) (lt_of_lt_of_le hsize (by norm_num))
  have hmtime' := length_toString_int_le hmtime
  have hctime' := length_toString_le (by decide) hctime
  have hinode' : (toString s.inode).length ≤ 20 :=
    length_toString_le (by decide) (lt_of_lt_of_le hinode (by norm_num))
  have hcolon : (":" : String).length = 1 := rfl
  unfold fingerprint Bounded
  cases hdigest : s.sha256 with
  | none =>
      simp only [String.length_append, hcolon]
      omega
  | some digest =>
      have h64 := hsha digest hdigest
      have hne : digest ≠ "" := by
        rintro rfl
        cases h64
      simp only [if_neg hne, String.length_append, hcolon]
      omega

section Collector

variable {c : Collector HostPath} {hash : TextHash} {now : HostPath → String → ℚ}

/-- A fingerprint of a file of the tree, whose digest is one of SHA-256 if there is one. -/
structure FileState.OfTree (c : Collector HostPath) (tree : Tree) (s : FileState) : Prop where
  hashed : ∀ digest ∈ s.sha256, ∃ bytes, digest = c.sha256.hexdigest bytes
  stat : ∃ id startNs, s = { stateOf id (tree.nodes id) startNs with sha256 := s.sha256 }

/-- The record about such a fingerprint is built and mapped. -/
lemma FileState.OfTree.exists_event {tree : Tree} {s : FileState} (h : s.OfTree c tree)
    (hhex : ∀ bytes, IsHexDigest (c.sha256.hexdigest bytes)) (occurredAt : ℚ) (path : HostPath)
    (action : String) (severity : ℕ) (haction : Bounded 1 200 action) (hseverity : severity ≤ 7) :
    ∃ r event, raw c occurredAt path s action severity (fingerprint s) = some r ∧
      mapFile hash r = some event := by
  obtain ⟨id, startNs, hstat⟩ := h.stat
  have hlength : ∀ digest ∈ s.sha256, digest.length = 64 := by
    intro digest hdigest
    obtain ⟨bytes, rfl⟩ := h.hashed digest hdigest
    exact c.sha256.length_hexdigest bytes
  have hseed : Bounded 1 256 (fingerprint s) := by
    refine fingerprint_bounded hlength ?_ ?_ ?_ ?_
    · rw [hstat]
      exact tree.size_lt id
    · rw [hstat]
      exact tree.mtimeNs_lt id
    · rw [hstat]
      exact (tree.nodes id).ctimeNs_lt
    · rw [hstat]
      exact id.inode_lt
  have hmode : s.mode < 8 ^ 4 := by
    rw [hstat]
    exact (tree.nodes id).mode_lt
  obtain ⟨r, hr, hraction, hrpath, hrsha⟩ :=
    exists_raw (c := c) occurredAt path haction hseverity hmode hseed
  have hvalid : Bounded 1 10000 (r.action ++ ": " ++ r.path) ∧ ∀ d ∈ r.sha256, IsHexDigest d := by
    have hpath := r.valid.path
    have hcolon : (": " : String).length = 2 := rfl
    have hmax : maxPath = 4096 := rfl
    refine ⟨?_, ?_⟩
    · unfold Bounded at hpath haction ⊢
      rw [String.length_append, String.length_append, hraction, hcolon]
      omega
    · intro d hd
      rw [hrsha] at hd
      obtain ⟨bytes, rfl⟩ := h.hashed d hd
      exact hhex bytes
  exact ⟨r, _, hr, dif_pos hvalid⟩

/-! ## Snapshots of one tree after another -/

variable {watch : Watch}

lemma ofTree_scan {previous : Snapshot HostPath} {poll : Poll} {path : HostPath}
    {state : FileState}
    (hprevious : ∀ path last, Dict.get previous path = some last →
      ∀ digest ∈ last.sha256, ∃ bytes, digest = c.sha256.hexdigest bytes)
    (h : Dict.get (scan c watch previous poll) path = some state) :
    state.OfTree c poll.tree := by
  obtain ⟨-, hstate⟩ := get_scan_eq_some_iff.mp h
  obtain ⟨id, node, hnode, -, hstat, hdigest⟩ := snapshotOf_cases hstate
  obtain ⟨-, rfl⟩ := Tree.lstat_eq_some_iff.mp hnode
  refine ⟨?_, id, poll.startNs, hstat⟩
  intro digest hmem
  rcases hdigest with ⟨last, hlast, -, -, heq⟩ | ⟨-, heq⟩
  · exact hprevious path last hlast digest (heq ▸ hmem)
  · rw [heq, freshDigest] at hmem
    split_ifs at hmem
    · exact ⟨_, (Option.some.inj hmem).symm⟩
    · cases hmem

/-- Whatever was reused, a digest was once made by SHA-256. -/
lemma hashed_baselineAfter (polls : List Poll) : ∀ path last,
    Dict.get (baselineAfter c watch polls) path = some last →
      ∀ digest ∈ last.sha256, ∃ bytes, digest = c.sha256.hexdigest bytes := by
  induction polls using List.reverseRecOn with
  | nil =>
      intro path last hlast
      cases hlast
  | append_singleton polls poll ih =>
      intro path last hlast
      rw [baselineAfter_concat] at hlast
      exact (ofTree_scan ih hlast).hashed

/-- An entry that is not to be trusted holds a fresh digest, if the clock was not set back. -/
lemma fresh_of_not_cacheable {history : List Poll} {poll : Poll}
    (hclock : ((history ++ [poll]).map Poll.startNs).Pairwise (· ≤ ·)) {path : HostPath}
    {state : FileState} {id : FileId} {node : Node}
    (h : Dict.get (scan c watch (baselineAfter c watch history) poll) path = some state)
    (hnode : poll.tree.fs.lstat path = some (id, node)) (hcacheable : state.cacheable = false) :
    state.sha256 = freshDigest c node := by
  obtain ⟨-, hstate⟩ := get_scan_eq_some_iff.mp h
  obtain ⟨id', node', hnode', -, hstat, hdigest⟩ := snapshotOf_cases hstate
  rw [hnode, Option.some.injEq, Prod.mk.injEq] at hnode'
  obtain ⟨rfl, rfl⟩ := hnode'
  rcases hdigest with ⟨last, hlast, hold, hsame, -⟩ | ⟨-, hfresh⟩
  · -- reused, so an older scan already found it old: it is older still at this one
    exfalso
    induction history using List.reverseRecOn with
    | nil => cases hlast
    | append_singleton earlier before _ =>
        rw [baselineAfter_concat] at hlast
        obtain ⟨-, hlaststate⟩ := get_scan_eq_some_iff.mp hlast
        obtain ⟨id'', node'', -, -, hlaststat, -⟩ := snapshotOf_cases hlaststate
        have hle : before.startNs ≤ poll.startNs := by
          rw [List.map_append, List.pairwise_append] at hclock
          exact hclock.2.2 _ (by simp) _ (by simp)
        have hctime : last.ctimeNs = node.ctimeNs := (of_decide_eq_true hsame).2.2.1
        rw [hlaststat] at hold hctime
        have hold' : (node''.ctimeNs : ℤ) < (before.startNs : ℤ) - (racyWindowNs : ℤ) :=
          of_decide_eq_true hold
        rw [hstat] at hcacheable
        have hnew : ¬ (node.ctimeNs : ℤ) < (poll.startNs : ℤ) - (racyWindowNs : ℤ) :=
          of_decide_eq_false hcacheable
        have hctime' : node''.ctimeNs = node.ctimeNs := hctime
        omega
  · exact hfresh

/-- **An unchanged file that both scans record has no report.** -/
lemma not_changed {history : List Poll} {first second : Poll}
    (hclock : ((history ++ [first]).map Poll.startNs).Pairwise (· ≤ ·)) {path : HostPath}
    {previous state : FileState} {id : FileId} {node : Node}
    (hprevious : Dict.get (baselineAfter c watch (history ++ [first])) path = some previous)
    (hstate : Dict.get (scan c watch (baselineAfter c watch (history ++ [first])) second) path
      = some state)
    (hfirst : first.tree.fs.lstat path = some (id, node))
    (hsecond : second.tree.fs.lstat path = some (id, node)) :
    contentChanged previous state = false ∧ attributesChanged previous state = false := by
  have hlast := hprevious
  rw [baselineAfter_concat] at hlast
  obtain ⟨-, hlaststate⟩ := get_scan_eq_some_iff.mp hlast
  obtain ⟨id₁, node₁, hnode₁, -, hstat₁, -⟩ := snapshotOf_cases hlaststate
  obtain ⟨-, hnewstate⟩ := get_scan_eq_some_iff.mp hstate
  obtain ⟨id₂, node₂, hnode₂, -, hstat₂, hdigest⟩ := snapshotOf_cases hnewstate
  rw [hfirst, Option.some.injEq, Prod.mk.injEq] at hnode₁
  rw [hsecond, Option.some.injEq, Prod.mk.injEq] at hnode₂
  obtain ⟨rfl, rfl⟩ := hnode₁
  obtain ⟨rfl, rfl⟩ := hnode₂
  have hsame : previous.sameStat (stateOf id node second.startNs) = true := by
    rw [hstat₁]
    exact decide_eq_true ⟨rfl, rfl, rfl, rfl, rfl⟩
  have hsha : state.sha256 = previous.sha256 := by
    rcases hdigest with ⟨last, hreused, -, -, heq⟩ | ⟨hstale, hfresh⟩
    · rw [hprevious, Option.some.injEq] at hreused
      rw [heq, hreused]
    · have hcacheable : previous.cacheable = false := by
        rcases h : previous.cacheable with _ | _
        · rfl
        · exact absurd (hsame.symm.trans (hstale previous hprevious h)) (by decide)
      rw [hfresh, fresh_of_not_cacheable hclock hlast hfirst hcacheable]
  constructor
  · unfold contentChanged
    rw [hsha]
    cases hdigest' : previous.sha256 with
    | none =>
        rw [hstat₁, hstat₂]
        simp [stateOf]
    | some digest => simp
  · unfold attributesChanged
    rw [hstat₁, hstat₂]
    simp [stateOf]

/-! ## When the events are true -/

/-- The events of the scan `poll`, which is not the first one. -/
def drainEvents (c : Collector HostPath) (hash : TextHash) (now : HostPath → String → ℚ)
    (watch : Watch) (polls : List Poll) (poll : Poll) : List (HostPath × Event) :=
  events c hash now (baselineAfter c watch polls) (scan c watch (baselineAfter c watch polls) poll)

/-- Without the paths, they are the events of what `_diff` finds between the last two scans. -/
theorem map_snd_drainEvents (c : Collector HostPath) (hash : TextHash)
    (now : HostPath → String → ℚ) (watch : Watch) (polls : List Poll) (poll : Poll) :
    (drainEvents c hash now watch polls poll).map Prod.snd =
      (diff c now (baselineAfter c watch polls)
        (scan c watch (baselineAfter c watch polls) poll)).filterMap (mapFile hash) :=
  map_snd_events c hash now _ _

/-- What the events of a scan promise about the trees of the last two scans. -/
structure Truthful (before after : Tree) (events : List (HostPath × Event)) : Prop where
  unchanged : ∀ path id node, before.fs.lstat path = some (id, node) →
    after.fs.lstat path = some (id, node) → node.regular = true →
    ∀ event, (path, event) ∉ events
  deleted : ∀ path event, (path, event) ∈ events → event.event.action = "file_deleted" →
    after.isRegular path = false

/-- No file that is still there drops out of the first `max_files`, and no unchanged one enters. -/
structure SameReach (maxFiles : ℕ) (watch : Watch) (before after : Tree) : Prop where
  still : ∀ path ∈ reached maxFiles watch before, after.isRegular path = true →
    path ∈ reached maxFiles watch after
  unchanged : ∀ path ∈ reached maxFiles watch after, ∀ id node,
    before.fs.lstat path = some (id, node) → after.fs.lstat path = some (id, node) →
    path ∈ reached maxFiles watch before

lemma mem_reached {maxFiles : ℕ} {watch : Watch} {tree : Tree} {path : HostPath}
    (h : path ∈ reached maxFiles watch tree) :
    path ∈ found watch tree ∧ tree.isRegular path = true :=
  List.mem_filter.mp (List.mem_eraseDups.mp (List.mem_of_mem_take h))

/-- A walk of no more than `max_files` files reaches all of them. -/
lemma mem_reached_of_few {maxFiles : ℕ} {watch : Watch} {tree : Tree} {path : HostPath}
    (hfew : (((found watch tree).filter tree.isRegular).eraseDups).length ≤ maxFiles)
    (hfound : path ∈ found watch tree) (hregular : tree.isRegular path = true) :
    path ∈ reached maxFiles watch tree := by
  rw [reached, List.take_of_length_le hfew, List.mem_eraseDups]
  exact List.mem_filter.mpr ⟨hfound, hregular⟩

/-- With room for every watched file, the reach does not matter. -/
theorem sameReach_of_few {maxFiles : ℕ} {watch : Watch} {before after : Tree}
    (hbefore : (((found watch before).filter before.isRegular).eraseDups).length ≤ maxFiles)
    (hafter : (((found watch after).filter after.isRegular).eraseDups).length ≤ maxFiles) :
    SameReach maxFiles watch before after := by
  -- a file that one walk found is watched, so the other walk finds what is there
  have hcross : ∀ tree other : Tree, ∀ path, path ∈ found watch tree → tree.isRegular path = true →
      other.isRegular path = true → path ∈ found watch other := by
    intro tree other path hfound htree hother
    obtain ⟨id, node, hnode, hregular⟩ := Tree.isRegular_iff.mp htree
    obtain ⟨id', node', hnode', hregular'⟩ := Tree.isRegular_iff.mp hother
    exact (mem_found_iff hnode' hregular').mpr ((mem_found_iff hnode hregular).mp hfound)
  constructor
  · intro path hpath hregular
    obtain ⟨hfound, hregular'⟩ := mem_reached hpath
    exact mem_reached_of_few hafter (hcross before after path hfound hregular' hregular) hregular
  · intro path hpath id node hfirst hsecond
    obtain ⟨hfound, hregular⟩ := mem_reached hpath
    have hregular' : before.isRegular path = true := by
      obtain ⟨id', node', hnode', hregular'⟩ := Tree.isRegular_iff.mp hregular
      rw [hsecond, Option.some.injEq, Prod.mk.injEq] at hnode'
      exact Tree.isRegular_iff.mpr ⟨id, node, hfirst, hnode'.2 ▸ hregular'⟩
    exact mem_reached_of_few hbefore (hcross after before path hfound hregular hregular') hregular'

/-- **The events of a scan are true just when `max_files` cuts both walks alike.**  For every two
consecutive complete scans, after any history of scans whose clock was not set back: no unchanged
file is the subject of an event, and a deletion is reported only where no regular file is, if and
only if no file that is still there dropped out of the first `max_files` files of the walk and no
unchanged file entered them. -/
theorem truthful_iff_sameReach (c : Collector HostPath) (hash : TextHash)
    (hhex : ∀ bytes, IsHexDigest (c.sha256.hexdigest bytes)) (watch : Watch) (history : List Poll)
    (first second : Poll)
    (hclock : ((history ++ [first]).map Poll.startNs).Pairwise (· ≤ ·))
    (now : HostPath → String → ℚ) :
    Truthful first.tree second.tree (drainEvents c hash now watch (history ++ [first]) second) ↔
      SameReach c.maxFiles watch first.tree second.tree := by
  have hold : baselineAfter c watch (history ++ [first])
      = scan c watch (baselineAfter c watch history) first := baselineAfter_concat _ _ _ _
  have hget : ∀ path, path ∈ reached c.maxFiles watch first.tree →
      ∃ previous, Dict.get (baselineAfter c watch (history ++ [first])) path = some previous := by
    intro path hpath
    rcases h : Dict.get (baselineAfter c watch (history ++ [first])) path with _ | previous
    · rw [hold] at h
      exact absurd hpath (get_scan_eq_none_iff.mp h)
    · exact ⟨previous, rfl⟩
  constructor
  · intro htrue
    constructor
    · intro path hpath hregular
      by_contra hcut
      obtain ⟨previous, hprevious⟩ := hget path hpath
      have hofTree : previous.OfTree c first.tree := by
        rw [hold] at hprevious
        exact ofTree_scan (hashed_baselineAfter history) hprevious
      obtain ⟨r, event, hr, hevent⟩ := hofTree.exists_event hhex (now path "file_deleted") path
        "file_deleted" 5 (by decide) (by decide)
      have haction : event.event.action = "file_deleted" :=
        (action_of_mapFile hevent).trans (action_of_raw hr)
      have hnone := htrue.deleted path event (mem_events_iff.mpr ⟨r, hevent, Or.inr ⟨previous,
        Dict.mem_of_get hprevious, get_scan_eq_none_iff.mpr hcut, hr⟩⟩) haction
      rw [hregular] at hnone
      cases hnone
    · intro path hpath id node hfirst hsecond
      by_contra hcut
      rcases hnew : Dict.get (scan c watch (baselineAfter c watch (history ++ [first])) second) path
        with _ | state
      · exact get_scan_eq_none_iff.mp hnew hpath
      have hofTree := ofTree_scan (hashed_baselineAfter (history ++ [first])) hnew
      obtain ⟨r, event, hr, hevent⟩ := hofTree.exists_event hhex (now path "file_created") path
        "file_created" 3 (by decide) (by decide)
      have hnone : Dict.get (baselineAfter c watch (history ++ [first])) path = none := by
        rw [hold]
        exact get_scan_eq_none_iff.mpr hcut
      have hentry : some r ∈ diffEntry c now (baselineAfter c watch (history ++ [first]))
          (path, state) := by
        simp only [diffEntry, hnone, List.mem_singleton]
        exact hr.symm
      obtain ⟨id', node', hnode', hregular⟩ := Tree.isRegular_iff.mp (mem_reached hpath).2
      rw [hsecond, Option.some.injEq, Prod.mk.injEq] at hnode'
      exact htrue.unchanged path id node hfirst hsecond (hnode'.2 ▸ hregular) event
        (mem_events_iff.mpr ⟨r, hevent, Or.inl ⟨state, Dict.mem_of_get hnew, hentry⟩⟩)
  · intro hreach
    -- a file that only the first scan recorded is gone
    have hgone : ∀ path previous, (path, previous) ∈ baselineAfter c watch (history ++ [first]) →
        Dict.get (scan c watch (baselineAfter c watch (history ++ [first])) second) path = none →
        second.tree.isRegular path = false := by
      intro path previous hentry hnone
      rw [hold] at hentry
      have hpath : path ∈ reached c.maxFiles watch first.tree := by
        rw [← keys_scan c watch (baselineAfter c watch history) first]
        exact List.mem_map_of_mem hentry
      rcases h : second.tree.isRegular path with _ | _
      · rfl
      · exact absurd (hreach.still path hpath h) (get_scan_eq_none_iff.mp hnone)
    constructor
    · intro path id node hfirst hsecond hregular event hmem
      obtain ⟨r, -, ⟨state, hentry, hrecord⟩ | ⟨previous, hentry, hnone, -⟩⟩ :=
        mem_events_iff.mp hmem
      · have hnew := Dict.get_of_mem nodup_keys_scan hentry
        have hpath := hreach.unchanged path (get_scan_eq_some_iff.mp hnew).1 id node hfirst hsecond
        obtain ⟨previous, hprevious⟩ := hget path hpath
        obtain ⟨hcontent, hattributes⟩ := not_changed hclock hprevious hnew hfirst hsecond
        simp only [diffEntry, hprevious, hcontent, hattributes] at hrecord
        exact absurd hrecord List.not_mem_nil
      · have hregular' : second.tree.isRegular path = true :=
          Tree.isRegular_iff.mpr ⟨id, node, hsecond, hregular⟩
        rw [hgone path previous hentry hnone] at hregular'
        cases hregular'
    · intro path event hmem haction
      obtain ⟨r, hevent, ⟨state, -, hrecord⟩ | ⟨previous, hentry, hnone, -⟩⟩ :=
        mem_events_iff.mp hmem
      · rw [action_of_mapFile hevent] at haction
        exact absurd haction (action_of_mem_diffEntry hrecord)
      · exact hgone path previous hentry hnone

end Collector

/-! ## A directory with one file too many -/

def cronId : FileId := { inode := 8, device := 1, inode_lt := by decide }

def newJob : Node :=
  { content := [98], mtimeNs := 0, ctimeNs := 6000000000, mode := 420, mode_lt := passwdMode_lt }

/-- The settled file of the stat cache, and a cron job. -/
def cronNodes (id : FileId) : Node := if id = cronId then newJob else settledPasswd

lemma cronNodes_stat (id : FileId) : (cronNodes id).content.length < 2 ^ 64 ∧
    (cronNodes id).mtimeNs.natAbs < 10 ^ 30 := by
  unfold cronNodes
  split_ifs
  · decide
  · decide

def cronTree (jobs : Listing) (h : jobs.Distinct) : Tree where
  root := .dir "etc" jobs .nil
  nodes := cronNodes
  distinct := ⟨List.not_mem_nil, h, trivial⟩
  size_lt id := (cronNodes_stat id).1
  mtimeNs_lt id := (cronNodes_stat id).2

def oneJob : Tree := cronTree (.file "daily" passwdId .nil) (by decide)

/-- The new job comes first in the directory. -/
def twoJobs : Tree := cronTree (.file "anacron" cronId (.file "daily" passwdId .nil)) (by decide)

def cronWatch : Watch := { paths := [["etc"]] }

def cronCollector (maxFiles : ℕ) : Collector HostPath where
  sha256 := sampleSha256
  osText path := "/" ++ String.intercalate "/" path
  host := "web"
  maxHashBytes := 4
  maxFiles := maxFiles
  osText_pos path := by
    rw [String.length_append]
    exact Nat.le_add_right 1 _
  host_bounded := web_bounded

def seedingPoll : Poll := { startNs := 5000000000, tree := oneJob }

def laterPoll : Poll := { startNs := 7000000000, tree := twoJobs }

def cronHash : TextHash where
  digest _ := "5cedc54232c0b5f2cad2f3b3f7e0e459e4764ca8cc32befa19f5fe9d7053d0ec"
  hex _ := by decide +kernel

/-- **A file that nobody touched is reported as deleted** when a new one takes its place in the
walk. -/
theorem overflow_reads_as_deletion :
    ∃ event, (["etc", "daily"], event) ∈ drainEvents (cronCollector 1) cronHash (fun _ _ => 7)
        cronWatch ([] ++ [seedingPoll]) laterPoll ∧
      event.event.action = "file_deleted" ∧
      seedingPoll.tree.fs.lstat ["etc", "daily"] = some (passwdId, settledPasswd) ∧
      laterPoll.tree.fs.lstat ["etc", "daily"] = some (passwdId, settledPasswd) ∧
      settledPasswd.regular = true := by
  have hevents : (drainEvents (cronCollector 1) cronHash (fun _ _ => 7) cronWatch
        ([] ++ [seedingPoll]) laterPoll).map (fun e => (e.1, e.2.event.action))
      = [(["etc", "anacron"], "file_created"), (["etc", "daily"], "file_deleted")] := by
    decide +kernel
  have hmem : (["etc", "daily"], "file_deleted") ∈
      [(["etc", "anacron"], "file_created"), (["etc", "daily"], "file_deleted")] := by decide
  rw [← hevents, List.mem_map] at hmem
  obtain ⟨⟨path, event⟩, hevent, heq⟩ := hmem
  rw [Prod.mk.injEq] at heq
  obtain ⟨rfl, haction⟩ := heq
  exact ⟨event, hevent, haction, by decide, by decide, rfl⟩

/-- With room for both, only the creation is reported. -/
theorem truthful_iff_sameReach_roomy :
    Truthful seedingPoll.tree laterPoll.tree
      (drainEvents (cronCollector 10) cronHash (fun _ _ => 7) cronWatch ([] ++ [seedingPoll])
        laterPoll) := by
  have hhex : ∀ bytes, IsHexDigest (sampleSha256.hexdigest bytes) := by
    intro bytes
    show IsHexDigest (if bytes = [97] then _ else _)
    split_ifs
    · decide +kernel
    · decide +kernel
  exact (truthful_iff_sameReach (cronCollector 10) cronHash hhex cronWatch [] seedingPoll laterPoll
    (by simp) (fun _ _ => 7)).mpr (sameReach_of_few (by decide) (by decide))

end Sentinel.Integrity
