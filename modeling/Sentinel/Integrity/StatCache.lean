import Mathlib.Data.List.ReduceOption
import Mathlib.Data.Nat.Digits.Defs
import Sentinel.Integrity.Scan

/-!
# The stat cache never hides a change

A digest is reused only for a file whose stat is unchanged and whose entry is *cacheable*: its ctime
was older than the racy window when the scan began that read it.  Whatever happens to the file after
that moment stamps it with a ctime inside the window, so a file that still has the old ctime is one
to which nothing happened.

`Settled` is that argument as an invariant of one snapshot entry, between the moment it was made and
any later moment: either the file at the path is exactly as it was found, and was read like that, or
whatever is there now was touched after the scan began.  Every change of the file system keeps it
(`Settled.evolve`), and it makes a reused digest the digest of the file as it is
(`sha256_of_cached`).
-/

namespace Sentinel.Integrity

open StepSystem

/-! ## Reading a file -/

/-- The loop reads the whole file, unless it is as long as the budget. -/
lemma readLoop_eq : ∀ (fuel : ℕ) (content : List UInt8) (remaining : ℕ), remaining ≤ fuel →
    readLoop fuel content remaining = if content.length < remaining then some content else none
  | 0, content, remaining, h => by
      rw [readLoop, if_neg (by omega)]
  | fuel + 1, content, remaining, h => by
      rw [readLoop]
      by_cases hzero : remaining = 0
      · rw [if_pos hzero, if_neg (by omega)]
      rw [if_neg hzero]
      have hwindow : 1 ≤ min hashChunk remaining := by
        have : 1 ≤ hashChunk := by decide
        omega
      split
      case h_1 hnil =>
        have hempty : content = [] := by
          rcases List.take_eq_nil_iff.mp hnil with h0 | h0
          · omega
          · exact h0
        rw [hempty, if_pos (by simpa using Nat.pos_of_ne_zero hzero)]
      case h_2 chunk hne =>
        have hpos : 1 ≤ (content.take (min hashChunk remaining)).length := by
          rw [Nat.one_le_iff_ne_zero, Ne, List.length_eq_zero_iff]
          exact hne
        have hle : (content.take (min hashChunk remaining)).length ≤ remaining := by
          rw [List.length_take]
          omega
        have hjoin : content.take (min hashChunk remaining)
            ++ content.drop (content.take (min hashChunk remaining)).length = content := by
          rw [List.length_take]
          rcases Nat.le_total (min hashChunk remaining) content.length with hlt | hge
          · rw [Nat.min_eq_left hlt, List.take_append_drop]
          · rw [Nat.min_eq_right hge, List.take_of_length_le hge, List.drop_length, List.append_nil]
        have hlen := congrArg List.length hjoin
        rw [List.length_append] at hlen
        rw [readLoop_eq fuel _ _ (by omega)]
        split_ifs with hshort hshort' hshort'
        · rw [Option.map_some, hjoin]
        · omega
        · omega
        · rfl

section Kernel

variable {Path : Type} {c : Collector Path} {g : ℕ}

/-- A file the collector can read in full. -/
def Plain (c : Collector Path) (node : Node) : Prop :=
  node.readable = true ∧ node.regular = true ∧ node.content.length ≤ c.maxHashBytes

instance (c : Collector Path) (node : Node) : Decidable (Plain c node) :=
  inferInstanceAs (Decidable (_ ∧ _))

/-- What a scan without a cache would record for a file. -/
def freshDigest (c : Collector Path) (node : Node) : Option String :=
  if Plain c node then some (c.sha256.hexdigest node.content) else none

lemma hashFile_eq (id : FileId) (node : Node) :
    hashFile c.sha256 c.maxHashBytes id (some (id, node)) = freshDigest c node := by
  rw [hashFile, readLoop_eq _ _ _ (le_refl _), freshDigest]
  cases hread : node.readable with
  | false => simp [Plain, hread]
  | true =>
      cases hreg : node.regular with
      | false => simp [Plain, hreg]
      | true =>
          by_cases hlen : node.content.length ≤ c.maxHashBytes
          · simp [Plain, hread, hreg, hlen, Nat.lt_succ_of_le hlen]
          · simp [Plain, hlen, show ¬ node.content.length < c.maxHashBytes + 1 by omega]

/-! ## What a change of the file system leaves of an entry -/

/-- Whatever is at the path now was touched at or after `since`. -/
def Touched (g : ℕ) (fs : FileSystem Path) (path : Path) (since : ℕ) : Prop :=
  ∀ id node, fs.lstat path = some (id, node) → since ≤ node.ctimeNs + g

/-- At every path, nothing changed or what is there was touched at `clock`. -/
def Evolves (g clock : ℕ) (fs fs' : FileSystem Path) : Prop :=
  ∀ path, fs'.lstat path = fs.lstat path ∨ Touched g fs' path clock

lemma lstat_update_nodes (fs : FileSystem Path) (id : FileId) (node : Node) (path : Path) :
    ({ fs with nodes := Function.update fs.nodes id node } : FileSystem Path).lstat path =
      if fs.entries path = some id then some (id, node) else fs.lstat path := by
  unfold FileSystem.lstat
  cases hentry : fs.entries path with
  | none => simp
  | some id' =>
      by_cases hid : id' = id
      · simp [hid]
      · simp [hid]

lemma touched_of_eq {fs : FileSystem Path} {path : Path} {id : FileId} {node : Node} {clock : ℕ}
    (h : fs.lstat path = some (id, node)) (hstamp : Stamped g clock node) :
    Touched g fs path clock := by
  intro id' node' h'
  rw [h, Option.some.injEq, Prod.mk.injEq] at h'
  rw [← h'.2]
  exact hstamp.1

lemma evolves_change {fs : FileSystem Path} {id : FileId} {node : Node} {clock : ℕ}
    (hstamp : Stamped g clock node) :
    Evolves g clock fs { fs with nodes := Function.update fs.nodes id node } := by
  intro path
  by_cases hentry : fs.entries path = some id
  · have hnow := lstat_update_nodes fs id node path
    rw [if_pos hentry] at hnow
    exact Or.inr (touched_of_eq hnow hstamp)
  · refine Or.inl ?_
    rw [lstat_update_nodes, if_neg hentry]

/-- Nothing happened to the file since it was found, or it was touched after the scan began. -/
def Settled (g : ℕ) (fs : FileSystem Path) (path : Path) (sighting : Sighting) : Prop :=
  (fs.lstat path = some (sighting.id, sighting.found) ∧ sighting.seen = sighting.found) ∨
    Touched g fs path sighting.startNs

lemma Touched.evolve {fs fs' : FileSystem Path} {path : Path} {since clock : ℕ}
    (h : Touched g fs path since) (hfs : Evolves g clock fs fs') (hclock : since ≤ clock) :
    Touched g fs' path since := by
  intro id node hnode
  rcases hfs path with hsame | htouched
  · exact h id node (hsame.symm.trans hnode)
  · exact le_trans hclock (htouched id node hnode)

lemma Settled.evolve {fs fs' : FileSystem Path} {path : Path} {sighting : Sighting} {clock : ℕ}
    (h : Settled g fs path sighting) (hfs : Evolves g clock fs fs')
    (hclock : sighting.startNs ≤ clock) : Settled g fs' path sighting := by
  rcases h with ⟨hfound, hseen⟩ | h
  · rcases hfs path with hsame | htouched
    · exact Or.inl ⟨hsame.trans hfound, hseen⟩
    · refine Or.inr ?_
      intro id node hnode
      exact le_trans hclock (htouched id node hnode)
  · exact Or.inr (h.evolve hfs hclock)

lemma evolves_refl (clock : ℕ) (fs : FileSystem Path) : Evolves g clock fs fs :=
  fun _ => Or.inl rfl

/-! ## One entry -/

/-- A snapshot entry is the stat of the file as it was found and the digest of the file as it was
visited. -/
structure EntryOk (c : Collector Path) (g clock : ℕ) (fs : FileSystem Path) (path : Path)
    (state : FileState) (sighting : Sighting) : Prop where
  state_eq : state =
    { stateOf sighting.id sighting.found sighting.startNs with
      sha256 := freshDigest c sighting.seen }
  settled : Settled g fs path sighting
  past : sighting.startNs ≤ clock

/-- **The racy-window argument.**  An entry that may be reused for the file now at its path holds
the digest of that file. -/
lemma sha256_of_cached {clock : ℕ} {fs : FileSystem Path} {path : Path} {previous : FileState}
    {sighting : Sighting} {id : FileId} {node : Node} {startNs : ℕ} (hg : g ≤ racyWindowNs)
    (h : EntryOk c g clock fs path previous sighting) (hnode : fs.lstat path = some (id, node))
    (hcacheable : previous.cacheable = true)
    (hstat : previous.sameStat (stateOf id node startNs) = true) :
    previous.sha256 = freshDigest c node := by
  have hstate := h.state_eq
  subst hstate
  have hold : (sighting.found.ctimeNs : ℤ) < (sighting.startNs : ℤ) - (racyWindowNs : ℤ) :=
    of_decide_eq_true hcacheable
  have hctime : sighting.found.ctimeNs = node.ctimeNs := (of_decide_eq_true hstat).2.2.1
  rcases h.settled with ⟨hfound, hseen⟩ | htouched
  · rw [hnode, Option.some.injEq, Prod.mk.injEq] at hfound
    show freshDigest c sighting.seen = freshDigest c node
    rw [hseen, hfound.2]
  · -- touched since: its ctime would be inside the racy window
    have hnew := htouched id node hnode
    omega

lemma entryOk_found {clock : ℕ} {fs : FileSystem Path} {path : Path} {id : FileId} {node : Node}
    {startNs : ℕ} {sha256 : Option String} (hpast : startNs ≤ clock)
    (hnode : fs.lstat path = some (id, node)) (hsha : sha256 = freshDigest c node) :
    EntryOk c g clock fs path { stateOf id node startNs with sha256 := sha256 }
      { startNs := startNs, id := id, found := node, seen := node } where
  state_eq := by rw [hsha]
  settled := Or.inl ⟨hnode, rfl⟩
  past := hpast

/-- Between an `lstat` and its read the path still leads to the file that was found, which is as it
was or was touched after the scan began. -/
structure PendingOk (g : ℕ) (fs : FileSystem Path) (scan : Scan Path) (pending : Pending Path) :
    Prop where
  entry : fs.entries pending.path = some pending.id
  node : fs.nodes pending.id = pending.found ∨ scan.startNs ≤ (fs.nodes pending.id).ctimeNs + g

/-- A stamped change of a file keeps a pending read's file as it was, or touched. -/
lemma PendingOk.update {fs : FileSystem Path} {scan : Scan Path} {pending : Pending Path}
    {clock : ℕ} {id : FileId} {node : Node} {entries : Path → Option FileId}
    (h : PendingOk g fs scan pending) (hentries : entries pending.path = fs.entries pending.path)
    (hstamp : Stamped g clock node) (hclock : scan.startNs ≤ clock) :
    PendingOk g { entries := entries, nodes := Function.update fs.nodes id node } scan pending := by
  refine ⟨hentries.trans h.entry, ?_⟩
  by_cases hid : pending.id = id
  · refine Or.inr ?_
    show scan.startNs ≤ (Function.update fs.nodes id node pending.id).ctimeNs + g
    rw [hid, Function.update_self]
    exact le_trans hclock hstamp.1
  · show Function.update fs.nodes id node pending.id = pending.found ∨
      scan.startNs ≤ (Function.update fs.nodes id node pending.id).ctimeNs + g
    rw [Function.update_of_ne hid]
    exact h.node

/-! ## Records -/

lemma length_octal04 {mode : ℕ} (h : mode < 8 ^ 4) : (octal04 mode).length = 4 := by
  have hdigits := Nat.toDigits_length 8 mode 4 (by decide) h
  simp only [octal04, String.length_ofList, List.length_append, List.length_replicate]
  omega

lemma length_toString_le {n e : ℕ} (he : 0 < e) (h : n < 10 ^ e) : (toString n).length ≤ e :=
  Nat.repr_length n e he h

/-- A record with a seed of the right length is built. -/
lemma exists_raw (now : ℚ) (path : Path) {s : FileState} {action : String} {severity : ℕ}
    {seed : String} (haction : Bounded 1 200 action) (hseverity : severity ≤ 7)
    (hmode : s.mode < 8 ^ 4) (hseed : Bounded 1 256 seed) :
    ∃ r, raw c now path s action severity seed = some r ∧ r.action = action ∧
      r.path = clip (c.osText path) maxPath ∧ r.sha256 = s.sha256 := by
  have hvalid : FileFields.Valid
      { occurredAt := now, host := c.host, action := action, severity := severity
        path := clip (c.osText path) maxPath, size := s.size, mode := octal04 s.mode
        sha256 := s.sha256, idSeed := seed } := by
    refine ⟨c.host_bounded, haction, hseverity, ?_, ?_, hseed⟩
    · exact ⟨length_clip_pos (c.osText_pos path), length_clip_le _ (by decide)⟩
    · rw [Bounded, length_octal04 hmode]
      decide
  exact ⟨⟨_, hvalid⟩, dif_pos hvalid, rfl, rfl, rfl⟩

/-- A hashed file always gets its record. -/
lemma modified_isSome (now : ℚ) (path : Path) {s : FileState} {bytes : List UInt8}
    (hsha : s.sha256 = some (c.sha256.hexdigest bytes)) (hmode : s.mode < 8 ^ 4)
    (hctime : s.ctimeNs < 10 ^ 30) (hinode : s.inode < 2 ^ 64) :
    ∃ r, modified c now path s = some r ∧ r.action = "file_modified" ∧
      r.path = clip (c.osText path) maxPath ∧ r.sha256 = s.sha256 := by
  have hdigest := c.sha256.length_hexdigest bytes
  have hne : c.sha256.hexdigest bytes ≠ "" := by
    intro hempty
    rw [hempty] at hdigest
    cases hdigest
  have hseed : Bounded 1 256 (fingerprint s) := by
    have h30 := length_toString_le (by decide) hctime
    have h20 : (toString s.inode).length ≤ 20 :=
      length_toString_le (by decide) (lt_of_lt_of_le hinode (by norm_num))
    have hcolon : (":" : String).length = 1 := rfl
    unfold fingerprint Bounded
    rw [hsha]
    simp only [if_neg hne, String.length_append, hdigest, hcolon]
    omega
  exact exists_raw now path (by decide) (Nat.le_of_ble_eq_true rfl) hmode hseed

end Kernel

section Cache

variable {Path : Type} [DecidableEq Path] {c : Collector Path} {g : ℕ}

lemma evolves_place {fs : FileSystem Path} {path : Path} {id : FileId} {node : Node} {clock : ℕ}
    (hstamp : Stamped g clock node) :
    Evolves g clock fs
      { entries := Function.update fs.entries path (some id)
        nodes := Function.update fs.nodes id node } := by
  intro path'
  by_cases hpath : path' = path
  · subst hpath
    have hnow : (⟨Function.update fs.entries path' (some id), Function.update fs.nodes id node⟩ :
        FileSystem Path).lstat path' = some (id, node) := by
      simp [FileSystem.lstat]
    exact Or.inr (touched_of_eq hnow hstamp)
  · have hsame : (⟨Function.update fs.entries path (some id), Function.update fs.nodes id node⟩ :
          FileSystem Path).lstat path'
        = ({ fs with nodes := Function.update fs.nodes id node } :
          FileSystem Path).lstat path' := by
      simp [FileSystem.lstat, Function.update_of_ne hpath]
    rcases evolves_change hstamp path' with h | h
    · exact Or.inl (hsame.trans h)
    · refine Or.inr ?_
      intro id' node' h'
      exact h id' node' (hsame.symm.trans h')

lemma evolves_remove {fs : FileSystem Path} {path : Path} {clock : ℕ} :
    Evolves g clock fs { fs with entries := Function.update fs.entries path none } := by
  intro path'
  by_cases hpath : path' = path
  · subst hpath
    refine Or.inr ?_
    intro id node h
    simp [FileSystem.lstat] at h
  · exact Or.inl (by simp [FileSystem.lstat, Function.update_of_ne hpath])

/-! ## The invariant -/

def SnapshotOk (c : Collector Path) (g clock : ℕ) (fs : FileSystem Path)
    (snapshot : Snapshot Path) (sightings : Path → Option Sighting) : Prop :=
  ∀ path state, Dict.get snapshot path = some state →
    ∃ sighting, sightings path = some sighting ∧ EntryOk c g clock fs path state sighting

structure ScanOk (c : Collector Path) (g clock : ℕ) (fs : FileSystem Path) (scan : Scan Path) :
    Prop where
  past : scan.startNs ≤ clock
  snapshot : SnapshotOk c g clock fs scan.snapshot scan.sightings

def PhaseOk (c : Collector Path) (g clock : ℕ) (fs : FileSystem Path) : Phase Path → Prop
  | .idle => True
  | .scanning scan => ScanOk c g clock fs scan
  | .hashing scan pending => ScanOk c g clock fs scan ∧ PendingOk g fs scan pending

structure Invariant (c : Collector Path) (g : ℕ) (s : State Path) : Prop where
  baseline : SnapshotOk c g s.clock s.fs s.baseline s.sightings
  phase : PhaseOk c g s.clock s.fs s.phase

lemma SnapshotOk.evolve {clock clock' : ℕ} {fs fs' : FileSystem Path} {snapshot : Snapshot Path}
    {sightings : Path → Option Sighting} (h : SnapshotOk c g clock fs snapshot sightings)
    (hfs : Evolves g clock fs fs') (hclock : clock ≤ clock') :
    SnapshotOk c g clock' fs' snapshot sightings := by
  intro path state hstate
  obtain ⟨sighting, hsighting, hentry⟩ := h path state hstate
  exact ⟨sighting, hsighting, hentry.state_eq, hentry.settled.evolve hfs hentry.past,
    le_trans hentry.past hclock⟩

lemma ScanOk.evolve {clock clock' : ℕ} {fs fs' : FileSystem Path} {scan : Scan Path}
    (h : ScanOk c g clock fs scan) (hfs : Evolves g clock fs fs') (hclock : clock ≤ clock') :
    ScanOk c g clock' fs' scan :=
  ⟨le_trans h.past hclock, h.snapshot.evolve hfs hclock⟩

lemma ScanOk.record {clock : ℕ} {fs : FileSystem Path} {scan : Scan Path} {path : Path}
    {state : FileState} {sighting : Sighting} (h : ScanOk c g clock fs scan)
    (hentry : EntryOk c g clock fs path state sighting) :
    ScanOk c g clock fs (scan.record path state sighting) := by
  refine ⟨h.past, ?_⟩
  intro path' state' hstate
  simp only [Scan.record, Dict.get_set] at hstate ⊢
  by_cases hpath : path = path'
  · subst hpath
    rw [if_pos rfl, Option.some.injEq] at hstate
    subst hstate
    exact ⟨sighting, Function.update_self _ _ _, hentry⟩
  · rw [if_neg hpath] at hstate
    rw [Function.update_of_ne (Ne.symm hpath)]
    exact h.snapshot path' state' hstate

/-! ## Every step keeps it -/

lemma Invariant.snapshotFile {s : State Path} {scan : Scan Path} (hg : g ≤ racyWindowNs)
    (h : Invariant c g s) (hphase : s.phase = .scanning scan) (path : Path) :
    Invariant c g (snapshotFile c s scan path) := by
  have hscan : ScanOk c g s.clock s.fs scan := by
    have hok := h.phase
    rw [hphase] at hok
    exact hok
  unfold Integrity.snapshotFile
  split
  case h_1 => exact h
  case h_2 id node hnode =>
    split
    case isTrue => exact h
    case isFalse hregular =>
      dsimp only
      split
      case h_1 previous hcached =>
        obtain ⟨hprevious, hreuse⟩ := Option.filter_eq_some_iff.mp hcached
        rw [Bool.and_eq_true] at hreuse
        obtain ⟨sighting, -, hentry⟩ := h.baseline path previous hprevious
        exact ⟨h.baseline, hscan.record (entryOk_found hscan.past hnode
          (sha256_of_cached hg hentry hnode hreuse.1 hreuse.2))⟩
      case h_2 =>
        split
        case isTrue hlength =>
          obtain ⟨id', hid', hpair⟩ := Option.map_eq_some_iff.mp hnode
          rw [Prod.mk.injEq] at hpair
          refine ⟨h.baseline, hscan, ?_, Or.inl ?_⟩
          · rw [← hpair.1]
            exact hid'
          · rw [← hpair.1]
            exact hpair.2
        case isFalse hlength =>
          have hlarge : (none : Option String) = freshDigest c node := by
            rw [freshDigest, if_neg (fun hplain => hlength hplain.2.2)]
          exact ⟨h.baseline, hscan.record (entryOk_found hscan.past hnode hlarge)⟩

/-- The read records the digest of the file as it is then, and either nothing happened to it since
it was found or it was touched after the scan began. -/
lemma Invariant.completeHash {s : State Path} {scan : Scan Path} {pending : Pending Path}
    (h : Invariant c g s) (hphase : s.phase = .hashing scan pending) :
    Invariant c g (completeHash c s scan pending) := by
  have hok := h.phase
  rw [hphase] at hok
  obtain ⟨hscan, hpending⟩ := hok
  have hnode : s.fs.lstat pending.path = some (pending.id, s.fs.nodes pending.id) := by
    rw [FileSystem.lstat, hpending.entry, Option.map_some]
  refine ⟨h.baseline, hscan.record ⟨?_, ?_, hscan.past⟩⟩
  · rw [hnode, hashFile_eq]
  · rcases hpending.node with hsame | htouched
    · refine Or.inl ⟨?_, hsame⟩
      rw [hnode, hsame]
    · refine Or.inr ?_
      intro id node hnode'
      rw [hnode, Option.some.injEq, Prod.mk.injEq] at hnode'
      rw [← hnode'.2]
      exact htouched

lemma Invariant.drainOnce {s : State Path} {scan : Scan Path} (h : Invariant c g s)
    (hphase : s.phase = .scanning scan) (now : Path → String → ℚ) :
    Invariant c g (drainOnce c s scan now) := by
  have hok := h.phase
  rw [hphase] at hok
  exact ⟨hok.snapshot, trivial⟩

/-- A change of the file system, or of the clock. -/
lemma Invariant.evolve {s : State Path} (h : Invariant c g s) {fs : FileSystem Path} {clock : ℕ}
    (hfs : Evolves g s.clock s.fs fs) (hclock : s.clock ≤ clock)
    (hpending : ∀ scan pending, s.phase = .hashing scan pending → PendingOk g s.fs scan pending →
      PendingOk g fs scan pending) :
    Invariant c g { s with clock := clock, fs := fs } := by
  refine ⟨h.baseline.evolve hfs hclock, ?_⟩
  have hok := h.phase
  show PhaseOk c g clock fs s.phase
  cases hphase : s.phase with
  | idle => trivial
  | scanning scan =>
      rw [hphase] at hok
      exact hok.evolve hfs hclock
  | hashing scan pending =>
      rw [hphase] at hok
      exact ⟨hok.1.evolve hfs hclock, hpending scan pending hphase hok.2⟩

/-- Somebody replaces or removes the file between its `lstat` and its read. -/
def disturbs (s : State Path) (a : Action Path) : Bool :=
  match s.phase, a with
  | .hashing _ pending, .place path _ _ => decide (path = pending.path)
  | .hashing _ pending, .remove path => decide (path = pending.path)
  | _, _ => false

lemma Invariant.step {s t : State Path} {a : Action Path} (hg : g ≤ racyWindowNs)
    (h : Invariant c g s) (hquiet : disturbs s a = false) (hstep : step c g s a = some t) :
    Invariant c g t := by
  have hpast : ∀ scan pending, s.phase = .hashing scan pending → scan.startNs ≤ s.clock := by
    intro scan pending hphase
    have hok := h.phase
    rw [hphase] at hok
    exact hok.1.past
  cases a with
  | tick now =>
      rw [Integrity.step] at hstep
      split_ifs at hstep with hclock
      rw [← Option.some.inj hstep]
      exact h.evolve (evolves_refl _ _) hclock fun _ _ _ hp => hp
  | change id node =>
      rw [Integrity.step] at hstep
      split_ifs at hstep with hstamp
      rw [← Option.some.inj hstep]
      refine h.evolve (evolves_change hstamp) (le_refl _) ?_
      intro scan pending hphase hp
      exact hp.update rfl hstamp (hpast scan pending hphase)
  | place path id node =>
      rw [Integrity.step] at hstep
      split_ifs at hstep with hstamp
      rw [← Option.some.inj hstep]
      refine h.evolve (evolves_place hstamp) (le_refl _) ?_
      intro scan pending hphase hp
      unfold disturbs at hquiet
      rw [hphase] at hquiet
      have hother : path ≠ pending.path := of_decide_eq_false hquiet
      exact hp.update (Function.update_of_ne (Ne.symm hother) _ _) hstamp
        (hpast scan pending hphase)
  | remove path =>
      rw [Integrity.step] at hstep
      rw [← Option.some.inj hstep]
      refine h.evolve evolves_remove (le_refl _) ?_
      intro scan pending hphase hp
      unfold disturbs at hquiet
      rw [hphase] at hquiet
      have hother : path ≠ pending.path := of_decide_eq_false hquiet
      exact ⟨(Function.update_of_ne (Ne.symm hother) _ _).trans hp.entry, hp.node⟩
  | beginScan =>
      rw [Integrity.step] at hstep
      split at hstep
      case h_1 =>
        rw [← Option.some.inj hstep]
        refine ⟨h.baseline, le_refl _, ?_⟩
        intro path state hstate
        cases hstate
      case h_2 => cases hstep
  | lstat path =>
      rw [Integrity.step] at hstep
      split at hstep
      case h_1 scan hphase =>
        split_ifs at hstep
        rw [← Option.some.inj hstep]
        exact h.snapshotFile hg hphase path
      case h_2 => cases hstep
  | hash =>
      rw [Integrity.step] at hstep
      split at hstep
      case h_1 scan pending hphase =>
        rw [← Option.some.inj hstep]
        exact h.completeHash hphase
      case h_2 => cases hstep
  | interrupt =>
      rw [Integrity.step] at hstep
      split at hstep
      case h_1 => rw [← Option.some.inj hstep]; exact ⟨h.baseline, trivial⟩
      case h_2 => cases hstep
  | finish now =>
      rw [Integrity.step] at hstep
      split at hstep
      case h_1 scan hphase =>
        rw [← Option.some.inj hstep]
        exact h.drainOnce hphase now
      case h_2 => cases hstep

lemma invariant_of_reachable (hg : g ≤ racyWindowNs) {clock : ℕ} {fs : FileSystem Path}
    {s : State Path}
    (h : Reachable (restrict (fun s a => disturbs s a = false) (step c g)) (initial clock fs) s) :
    Invariant c g s := by
  refine h.invariant ⟨?_, trivial⟩ ?_
  · intro path state hstate
    cases hstate
  · intro s a t hs hstep
    obtain ⟨hquiet, hstep⟩ := restrict_eq_some.mp hstep
    exact hs.step hg hquiet hstep

/-! ## Reports -/

lemma mem_diff_of_contentChanged {now : Path → String → ℚ} {old new : Snapshot Path} {path : Path}
    {previous state : FileState} {r : RawFileEvent} (hold : Dict.get old path = some previous)
    (hnew : Dict.get new path = some state) (hchanged : contentChanged previous state = true)
    (hr : modified c (now path "file_modified") path state = some r) :
    r ∈ diff c now old new := by
  refine List.reduceOption_mem_iff.mpr (List.mem_append_left _ (List.mem_flatMap.mpr ?_))
  refine ⟨(path, state), Dict.mem_of_get hnew, ?_⟩
  rw [diffEntry, hold]
  simp only [hchanged, if_true, hr]
  exact List.mem_append_left _ (List.mem_singleton_self _)

/-! ## The result -/

/-- Every entry of a snapshot holds the digest its file had when it was visited. -/
def SnapshotFresh (c : Collector Path) (snapshot : Snapshot Path)
    (sightings : Path → Option Sighting) : Prop :=
  ∀ path state, Dict.get snapshot path = some state → ∃ sighting, sightings path = some sighting ∧
    state.sha256 = freshDigest c sighting.seen

/-- **The stat cache never hides a change.**  In every run, whatever the coarseness of the clock up
to the racy window: every snapshot entry, of the scan in progress and of the baseline, holds the
digest of its file at the moment of the visit, as if nothing were ever reused; and a scan that
completes reports every file whose content differs from the last scan's, unless the two contents
collide under SHA-256. -/
theorem statCache_sound (c : Collector Path) (g : ℕ) (hg : g ≤ racyWindowNs) (clock : ℕ)
    (fs : FileSystem Path) (s : State Path)
    (h : Reachable (restrict (fun s a => disturbs s a = false) (step c g)) (initial clock fs) s) :
    SnapshotFresh c s.baseline s.sightings ∧
    ∀ scan, s.phase = .scanning scan →
      SnapshotFresh c scan.snapshot scan.sightings ∧
      ∀ now t, step c g s (.finish now) = some t → s.seeded = true →
        ∀ path previous state old new,
          Dict.get s.baseline path = some previous → s.sightings path = some old →
          Dict.get scan.snapshot path = some state → scan.sightings path = some new →
          Plain c old.seen → Plain c new.seen → old.seen.content ≠ new.seen.content →
          (c.sha256.hexdigest old.seen.content = c.sha256.hexdigest new.seen.content →
            old.seen.content = new.seen.content) →
          ∃ r ∈ t.records, r.action = "file_modified" ∧ r.path = clip (c.osText path) maxPath ∧
            r.sha256 = some (c.sha256.hexdigest new.seen.content) := by
  have hinv := invariant_of_reachable hg h
  have hfresh : ∀ snapshot sightings, SnapshotOk c g s.clock s.fs snapshot sightings →
      SnapshotFresh c snapshot sightings := by
    intro snapshot sightings hok path state hstate
    obtain ⟨sighting, hsighting, hentry⟩ := hok path state hstate
    exact ⟨sighting, hsighting, by rw [hentry.state_eq]⟩
  refine ⟨hfresh _ _ hinv.baseline, ?_⟩
  intro scan hphase
  have hscan := hinv.phase
  rw [hphase] at hscan
  refine ⟨hfresh _ _ hscan.snapshot, ?_⟩
  intro now t hfinish hseeded path previous state old new hprevious hold hstate hnew hplain hplain'
    hcontent hdigest
  obtain ⟨old', hold', hentry⟩ := hinv.baseline path previous hprevious
  obtain ⟨new', hnew', hentry'⟩ := hscan.snapshot path state hstate
  rw [hold, Option.some.injEq] at hold'
  rw [hnew, Option.some.injEq] at hnew'
  subst hold' hnew'
  have hsha : previous.sha256 = some (c.sha256.hexdigest old.seen.content) := by
    rw [hentry.state_eq]
    exact if_pos hplain
  have hsha' : state.sha256 = some (c.sha256.hexdigest new.seen.content) := by
    rw [hentry'.state_eq]
    exact if_pos hplain'
  have hchanged : contentChanged previous state = true := by
    rw [contentChanged, hsha, hsha']
    exact decide_eq_true fun heq => hcontent (hdigest heq)
  obtain ⟨r, hr, haction, hpath, hrsha⟩ := modified_isSome (c := c)
    (now path "file_modified") path hsha'
    (by rw [hentry'.state_eq]; exact new.found.mode_lt)
    (by rw [hentry'.state_eq]; exact new.found.ctimeNs_lt)
    (by rw [hentry'.state_eq]; exact new.id.inode_lt)
  refine ⟨r, ?_, haction, hpath, hrsha.trans hsha'⟩
  simp only [step, hphase, Option.some.injEq] at hfinish
  rw [← hfinish]
  show r ∈ if s.seeded then diff c now s.baseline scan.snapshot else []
  rw [if_pos hseeded]
  exact mem_diff_of_contentChanged hprevious hstate hchanged hr

end Cache

/-- SHA-256 on the contents below. -/
def sampleSha256 : Sha256 where
  hexdigest bytes :=
    if bytes = [97] then "ca978112ca1bbdcafac231b39a23dc4da786eff8147c4e72b9807785afee48bb"
    else "3e23e8160039594a33894f6564e1b1348bbd7a0088d42c4acb73eeaed59c009d"
  length_hexdigest bytes := by
    split_ifs
    · decide
    · decide

/-- One watched file. -/
lemma web_bounded : Bounded 1 253 "web" := by decide

def passwdCollector : Collector Unit where
  sha256 := sampleSha256
  osText _ := "/etc/passwd"
  host := "web"
  maxHashBytes := 4
  maxFiles := 10
  osText_pos _ := by decide
  host_bounded := web_bounded

def passwdId : FileId := { inode := 7, device := 1, inode_lt := by decide }

lemma passwdMode_lt : 420 < 8 ^ 4 := by decide

def settledPasswd : Node :=
  { content := [97], mtimeNs := 0, ctimeNs := 1000, mode := 420, mode_lt := passwdMode_lt }

/-- The same length and the old mtime, but a ctime the kernel chose. -/
def forgedPasswd : Node :=
  { content := [98], mtimeNs := 0, ctimeNs := 5999999999, mode := 420, mode_lt := passwdMode_lt }

def forgedRewrite : List (Action Unit) :=
  [.beginScan, .lstat (), .hash, .finish fun _ _ => 5, .tick 6000000000,
    .change passwdId forgedPasswd, .tick 7000000000, .beginScan, .lstat (), .hash]

def passwdFs : FileSystem Unit :=
  { entries := fun _ => some passwdId, nodes := fun _ => settledPasswd }

/-- What the report is about, at the end of the second scan. -/
def compared (s : State Unit) : Bool × Bool × Option Sighting × Option (Bool × Option Sighting) :=
  (s.seeded, (Dict.get s.baseline ()).isSome, s.sightings (),
    match s.phase with
    | .scanning scan => some ((Dict.get scan.snapshot ()).isSome, scan.sightings ())
    | _ => none)

theorem statCache_sound_forgedRewrite :
    ∃ s t, run (restrict (fun s a => disturbs s a = false) (step passwdCollector 4000000))
        (initial 5000000000 passwdFs) forgedRewrite = some s ∧
      step passwdCollector 4000000 s (.finish fun _ _ => 7) = some t ∧
      ∃ r ∈ t.records, r.action = "file_modified" := by
  have hrun : (run (restrict (fun s a => disturbs s a = false) (step passwdCollector 4000000))
      (initial 5000000000 passwdFs) forgedRewrite).map compared =
        some (true, true, some ⟨5000000000, passwdId, settledPasswd, settledPasswd⟩,
          some (true, some ⟨7000000000, passwdId, forgedPasswd, forgedPasswd⟩)) := by
    decide +kernel
  obtain ⟨s, hs, hval⟩ := Option.map_eq_some_iff.mp hrun
  simp only [compared, Prod.mk.injEq] at hval
  obtain ⟨hseeded, hprevious, hold, hscan⟩ := hval
  obtain ⟨previous, hprevious⟩ := Option.isSome_iff_exists.mp hprevious
  split at hscan
  case h_2 => cases hscan
  case h_1 scan hphase =>
    simp only [Option.some.injEq, Prod.mk.injEq] at hscan
    obtain ⟨state, hstate⟩ := Option.isSome_iff_exists.mp hscan.1
    have hfinish : step passwdCollector 4000000 s (.finish fun _ _ => 7)
        = some (drainOnce passwdCollector s scan fun _ _ => 7) := by
      simp only [step, hphase]
    refine ⟨s, _, hs, hfinish, ?_⟩
    obtain ⟨-, hresult⟩ := statCache_sound passwdCollector 4000000 (by decide) 5000000000 passwdFs s
      ⟨forgedRewrite, hs⟩
    obtain ⟨-, hreport⟩ := hresult scan hphase
    obtain ⟨r, hr, haction, -⟩ := hreport _ _ hfinish hseeded () previous state _ _
      hprevious hold hstate hscan.2 (by decide) (by decide) (by decide) (by decide)
    exact ⟨r, hr, haction⟩

end Sentinel.Integrity
