import Mathlib.Logic.Function.Basic
import Sentinel.Collectors.Base
import Sentinel.Library.Dict
import Sentinel.Library.StepSystem
import Sentinel.Normalizer.Raw

/-!
# File-integrity scans

`collectors/integrity.py` beside a file system that changes under it.  A scan reads the clock once
and then visits files one by one: an `lstat`, which may be answered from the stat cache, and
otherwise one read of the content.  Every one of these is a step of its own, and so is every change
that somebody makes to a file, so a run is any interleaving of them.

The kernel: files are identified by inode and device; whatever is done to a file at time `t` stamps
it with a ctime between `t - g` and `t`, where `g` is the granularity of the coarse clock, and may
set its mtime to anything.  Times are nanoseconds.

The walk over the watched trees is left open: an `lstat` step may visit any path at any moment of a
scan, any number of times.  So is the moment at which a scan ends, at its last file, at `max_files`
or at its deadline.

A `Sighting` is not in the source.  It remembers which file a snapshot entry was made from, as it
was at the `lstat` (`found`) and at the moment of the visit (`seen`), the read if there was one.
-/

namespace Sentinel.Integrity

/-! ## Files -/

structure FileId where
  inode : ℕ
  device : ℕ
  inode_lt : inode < 2 ^ 64
deriving DecidableEq

/-- A file: its content and what `stat` says about it; `mode` is `S_IMODE(st_mode)`. -/
structure Node where
  content : List UInt8
  mtimeNs : ℤ
  ctimeNs : ℕ
  mode : ℕ
  uid : ℕ := 0
  gid : ℕ := 0
  regular : Bool := true
  readable : Bool := true
  ctimeNs_lt : ctimeNs < 10 ^ 30 := by decide
  mode_lt : mode < 8 ^ 4 := by decide
deriving DecidableEq

structure FileSystem (Path : Type) where
  entries : Path → Option FileId
  nodes : FileId → Node

/-- What `lstat` finds at a path. -/
def FileSystem.lstat {Path : Type} (fs : FileSystem Path) (path : Path) : Option (FileId × Node) :=
  (fs.entries path).map fun id => (id, fs.nodes id)

/-- `hashlib.sha256(...).hexdigest()`. -/
structure Sha256 where
  hexdigest : List UInt8 → String
  length_hexdigest : ∀ bytes, (hexdigest bytes).length = 64

/-! ## Fingerprints -/

/-- `_FileState`. -/
structure FileState where
  size : ℕ
  mtimeNs : ℤ
  mode : ℕ
  sha256 : Option String
  ctimeNs : ℕ
  inode : ℕ
  device : ℕ
  cacheable : Bool
  uid : ℕ
  gid : ℕ
deriving DecidableEq

/-- `same_stat`. -/
def FileState.sameStat (s other : FileState) : Bool :=
  decide (s.size = other.size ∧ s.mtimeNs = other.mtimeNs ∧ s.ctimeNs = other.ctimeNs ∧
    s.inode = other.inode ∧ s.device = other.device)

def racyWindowNs : ℕ := 2000000000

/-- The fingerprint `_snapshot_file` starts from; `racy_after_ns` may be negative. -/
def stateOf (id : FileId) (node : Node) (startNs : ℕ) : FileState where
  size := node.content.length
  mtimeNs := node.mtimeNs
  mode := node.mode
  sha256 := none
  ctimeNs := node.ctimeNs
  inode := id.inode
  device := id.device
  cacheable := decide ((node.ctimeNs : ℤ) < (startNs : ℤ) - (racyWindowNs : ℤ))
  uid := node.uid
  gid := node.gid

def hashChunk : ℕ := 65536

/-- The read loop of `_digest_if_same_file`: the bytes fed to the digest, or `none` when the file is
longer than the cap.  Every turn reads at least one byte, so `remaining` turns are enough. -/
def readLoop : ℕ → List UInt8 → ℕ → Option (List UInt8)
  | 0, _, _ => none
  | fuel + 1, content, remaining =>
      if remaining = 0 then none
      else
        match content.take (min hashChunk remaining) with
        | [] => some []
        | chunk =>
            (readLoop fuel (content.drop chunk.length) (remaining - chunk.length)).map (chunk ++ ·)

/-- `_hash_file` of what is found at the path when it is opened. -/
def hashFile (sha256 : Sha256) (maxHashBytes : ℕ) (expected : FileId) :
    Option (FileId × Node) → Option String
  | none => none
  | some (id, node) =>
      if !node.readable || !node.regular then none
      else if id ≠ expected then none
      else (readLoop (maxHashBytes + 1) node.content (maxHashBytes + 1)).map sha256.hexdigest

/-! ## Differences -/

/-- `f"{mode:04o}"`. -/
def octal04 (mode : ℕ) : String :=
  let digits := Nat.toDigits 8 mode
  String.ofList (List.replicate (4 - digits.length) '0' ++ digits)

/-- `_fingerprint`: an empty digest is falsy, like a missing one. -/
def fingerprint (s : FileState) : String :=
  let content :=
    match s.sha256 with
    | some digest => if digest = "" then toString s.size ++ ":" ++ toString s.mtimeNs else digest
    | none => toString s.size ++ ":" ++ toString s.mtimeNs
  content ++ ":" ++ toString s.ctimeNs ++ ":" ++ toString s.inode

/-- `_content_changed`. -/
def contentChanged (old new : FileState) : Bool :=
  match old.sha256, new.sha256 with
  | some a, some b => decide (a ≠ b)
  | _, _ =>
      if old.size ≠ new.size ∨ old.mtimeNs ≠ new.mtimeNs then true
      else decide (old.ctimeNs ≠ 0 ∧ new.ctimeNs ≠ 0 ∧ old.ctimeNs ≠ new.ctimeNs)

/-- `_attributes_changed`. -/
def attributesChanged (old new : FileState) : Bool :=
  decide ((old.mode, old.uid, old.gid) ≠ (new.mode, new.uid, new.gid))

/-- The collector's settings, and `os_text`, which makes the text of a path from its bytes. -/
structure Collector (Path : Type) where
  sha256 : Sha256
  osText : Path → String
  host : String
  maxHashBytes : ℕ
  maxFiles : ℕ
  osText_pos : ∀ path, 1 ≤ (osText path).length
  host_bounded : Bounded 1 253 host

section Collector

variable {Path : Type} [DecidableEq Path] (c : Collector Path)

/-- `_raw`. -/
def raw (occurredAt : ℚ) (path : Path) (s : FileState) (action : String) (severity : ℕ)
    (seed : String) : Option RawFileEvent :=
  RawFileEvent.build
    { occurredAt := occurredAt, host := c.host, action := action, severity := severity
      path := clip (c.osText path) maxPath, size := s.size, mode := octal04 s.mode
      sha256 := s.sha256, idSeed := seed }

def created (occurredAt : ℚ) (path : Path) (s : FileState) : Option RawFileEvent :=
  raw c occurredAt path s "file_created" 3 (fingerprint s)

def modified (occurredAt : ℚ) (path : Path) (s : FileState) : Option RawFileEvent :=
  raw c occurredAt path s "file_modified" 4 (fingerprint s)

def attrsModified (occurredAt : ℚ) (path : Path) (s : FileState) : Option RawFileEvent :=
  raw c occurredAt path s "file_attributes_modified" 5
    (octal04 s.mode ++ ":" ++ toString s.uid ++ ":" ++ toString s.gid ++ ":" ++ toString s.ctimeNs)

def deleted (occurredAt : ℚ) (path : Path) (s : FileState) : Option RawFileEvent :=
  raw c occurredAt path s "file_deleted" 5 (fingerprint s)

abbrev Snapshot (Path : Type) := List (Path × FileState)

/-- The records of one entry of the new snapshot. -/
def diffEntry (now : Path → String → ℚ) (old : Snapshot Path) (entry : Path × FileState) :
    List (Option RawFileEvent) :=
  match Dict.get old entry.1 with
  | none => [created c (now entry.1 "file_created") entry.1 entry.2]
  | some previous =>
      (if contentChanged previous entry.2
        then [modified c (now entry.1 "file_modified") entry.1 entry.2] else [])
      ++ (if attributesChanged previous entry.2
        then [attrsModified c (now entry.1 "file_attributes_modified") entry.1 entry.2] else [])

/-- `_diff`; every record reads the clock for itself. -/
def diff (now : Path → String → ℚ) (old new : Snapshot Path) : List RawFileEvent :=
  (new.flatMap (diffEntry c now old)
    ++ (old.filter fun entry => (Dict.get new entry.1).isNone).map
        fun entry => deleted c (now entry.1 "file_deleted") entry.1 entry.2).reduceOption

end Collector

/-! ## Scans as steps -/

structure Sighting where
  startNs : ℕ
  id : FileId
  found : Node
  seen : Node
deriving DecidableEq

structure Scan (Path : Type) where
  startNs : ℕ
  snapshot : Snapshot Path := []
  sightings : Path → Option Sighting := fun _ => none

/-- Between an `lstat` and the read that follows it. -/
structure Pending (Path : Type) where
  path : Path
  id : FileId
  found : Node

inductive Phase (Path : Type) where
  | idle
  | scanning (scan : Scan Path)
  | hashing (scan : Scan Path) (pending : Pending Path)

structure State (Path : Type) where
  clock : ℕ
  fs : FileSystem Path
  phase : Phase Path := .idle
  baseline : Snapshot Path := []
  sightings : Path → Option Sighting := fun _ => none
  seeded : Bool := false
  hashed : ℕ := 0
  hashReused : ℕ := 0
  records : List RawFileEvent := []

inductive Action (Path : Type) where
  | tick (now : ℕ)
  | change (id : FileId) (node : Node)
  | place (path : Path) (id : FileId) (node : Node)
  | remove (path : Path)
  | beginScan
  | lstat (path : Path)
  | hash
  | interrupt
  | finish (now : Path → String → ℚ)

/-- A file touched at `clock` carries a ctime from the last `g` nanoseconds. -/
def Stamped (g clock : ℕ) (node : Node) : Prop := clock ≤ node.ctimeNs + g ∧ node.ctimeNs ≤ clock

instance (g clock : ℕ) (node : Node) : Decidable (Stamped g clock node) :=
  inferInstanceAs (Decidable (_ ∧ _))

section Steps

variable {Path : Type} [DecidableEq Path] (c : Collector Path) (g : ℕ)

/-- `snapshot[key] = state`. -/
def Scan.record (scan : Scan Path) (path : Path) (state : FileState) (sighting : Sighting) :
    Scan Path :=
  { scan with
    snapshot := Dict.set scan.snapshot path state
    sightings := Function.update scan.sightings path (some sighting) }

/-- `_snapshot_file` up to its read: skip, answer from the cache, or leave unhashed or to hash. -/
def snapshotFile (s : State Path) (scan : Scan Path) (path : Path) : State Path :=
  match s.fs.lstat path with
  | none => s
  | some (id, node) =>
      if !node.regular then s
      else
        let state := stateOf id node scan.startNs
        let sighting : Sighting :=
          { startNs := scan.startNs, id := id, found := node, seen := node }
        match (Dict.get s.baseline path).filter
            fun previous => previous.cacheable && previous.sameStat state with
        | some previous =>
            { s with
              phase := .scanning
                (scan.record path { state with sha256 := previous.sha256 } sighting)
              hashReused := s.hashReused + 1 }
        | none =>
            if node.content.length ≤ c.maxHashBytes
            then { s with
              phase := .hashing scan { path := path, id := id, found := node }
              hashed := s.hashed + 1 }
            else { s with phase := .scanning (scan.record path state sighting) }

/-- The read that completes `_snapshot_file`. -/
def completeHash (s : State Path) (scan : Scan Path) (pending : Pending Path) : State Path :=
  let digest := hashFile c.sha256 c.maxHashBytes pending.id (s.fs.lstat pending.path)
  { s with
    phase := .scanning (scan.record pending.path
      { stateOf pending.id pending.found scan.startNs with sha256 := digest }
      { startNs := scan.startNs, id := pending.id, found := pending.found
        seen := s.fs.nodes pending.id }) }

/-- The end of `_drain_once`: the first snapshot is the baseline, later ones are compared to it. -/
def drainOnce (s : State Path) (scan : Scan Path) (now : Path → String → ℚ) : State Path :=
  { s with
    phase := .idle
    baseline := scan.snapshot
    sightings := scan.sightings
    seeded := true
    records := if s.seeded then diff c now s.baseline scan.snapshot else [] }

def step (s : State Path) : Action Path → Option (State Path)
  | .tick now => if s.clock ≤ now then some { s with clock := now } else none
  | .change id node =>
      if Stamped g s.clock node
      then some { s with fs := { s.fs with nodes := Function.update s.fs.nodes id node } }
      else none
  | .place path id node =>
      if Stamped g s.clock node
      then some { s with fs :=
        { entries := Function.update s.fs.entries path (some id)
          nodes := Function.update s.fs.nodes id node } }
      else none
  | .remove path =>
      some { s with fs := { s.fs with entries := Function.update s.fs.entries path none } }
  | .beginScan =>
      match s.phase with
      | .idle => some { s with phase := .scanning { startNs := s.clock } }
      | _ => none
  | .lstat path =>
      match s.phase with
      | .scanning scan =>
          if scan.snapshot.length < c.maxFiles then some (snapshotFile c s scan path) else none
      | _ => none
  | .hash =>
      match s.phase with
      | .hashing scan pending => some (completeHash c s scan pending)
      | _ => none
  | .interrupt =>
      match s.phase with
      | .scanning _ => some { s with phase := .idle }
      | _ => none
  | .finish now =>
      match s.phase with
      | .scanning scan => some (drainOnce c s scan now)
      | _ => none

def initial (clock : ℕ) (fs : FileSystem Path) : State Path := { clock := clock, fs := fs }

end Steps

end Sentinel.Integrity
