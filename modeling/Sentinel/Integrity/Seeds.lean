import Sentinel.Integrity.Reach
import Sentinel.Normalizer.Identity

/-!
# Going back to an earlier state is a new event

The id of a file event is made from the record's path, its action and its `id_seed`, so two records
with equal seeds are one event to the dedup window.  `Observed` follows one path through a run of
the collector and of the file system: the ctimes the path has shown, and the records built for it.

The kernel here promises no more than that whatever is done to the file at the path gives it a ctime
above every ctime the path has shown (`observe`); the clock may go anywhere.  A scan ends complete:
a watched path without an entry had no regular file at some moment of the scan (`missed`).

A fingerprint that was recorded once is, from then on, either the file as it is, digest included, or
older in ctime than whatever is at the path (`Older`).  So two entries with one ctime describe one
untouched file, and then nothing is reported between them.  Only the last of them may carry the
digest of a later content, when a write races its read; and that digest is another one.
-/

namespace Sentinel.Integrity

open StepSystem

/-! ## Seeds -/

/-- The seed of `_attrs_modified`. -/
def attrsSeed (s : FileState) : String :=
  octal04 s.mode ++ ":" ++ toString s.uid ++ ":" ++ toString s.gid ++ ":" ++ toString s.ctimeNs

/-- What a record with this action takes its `id_seed` from. -/
def idSeed (action : String) (s : FileState) : String :=
  if action = "file_attributes_modified" then attrsSeed s else fingerprint s

/-- What stands after the last colon can be read back. -/
lemma colon_inj {a b : String} {m n : ℕ} (h : a ++ ":" ++ toString m = b ++ ":" ++ toString n) :
    a = b ∧ m = n := by
  have hlist : a.toList ++ ':' :: (toString m).toList = b.toList ++ ':' :: (toString n).toList := by
    have htext := congrArg String.toList h
    simpa [String.toList_append] using htext
  have hm : ':' ∉ (toString m).toList := notMem_toString m (by decide)
  have hn : ':' ∉ (toString n).toList := notMem_toString n (by decide)
  rcases List.append_eq_append_iff.mp hlist with ⟨rest, hb, hrest⟩ | ⟨rest, ha, hrest⟩
  · cases rest with
    | nil =>
        rw [List.nil_append, List.cons.injEq] at hrest
        rw [List.append_nil] at hb
        exact ⟨(String.toList_inj.mp hb).symm, toString_injective hrest.2⟩
    | cons c rest =>
        rw [List.cons_append, List.cons.injEq] at hrest
        rw [hrest.2] at hm
        exact absurd (List.mem_append_right _ List.mem_cons_self) hm
  · cases rest with
    | nil =>
        rw [List.nil_append, List.cons.injEq] at hrest
        rw [List.append_nil] at ha
        exact ⟨String.toList_inj.mp ha, (toString_injective hrest.2).symm⟩
    | cons c rest =>
        rw [List.cons_append, List.cons.injEq] at hrest
        rw [hrest.2] at hn
        exact absurd (List.mem_append_right _ List.mem_cons_self) hn

lemma ctimeNs_of_attrsSeed {s t : FileState} (h : attrsSeed s = attrsSeed t) :
    s.ctimeNs = t.ctimeNs :=
  (colon_inj h).2

/-- A fingerprint shows the ctime, and the digest if there is one. -/
lemma fingerprint_inj {s t : FileState} (hs : ∀ digest ∈ s.sha256, digest ≠ "")
    (ht : ∀ digest ∈ t.sha256, digest ≠ "") (h : fingerprint s = fingerprint t) :
    s.ctimeNs = t.ctimeNs ∧
      ∀ digest digest', s.sha256 = some digest → t.sha256 = some digest' → digest = digest' := by
  obtain ⟨hrest, -⟩ := colon_inj h
  obtain ⟨hcontent, hctime⟩ := colon_inj hrest
  refine ⟨hctime, ?_⟩
  intro digest digest' hdigest hdigest'
  simpa [hdigest, hdigest', hs digest hdigest, ht digest' hdigest'] using hcontent

/-! ## One path through a run -/

section Files

variable {Path : Type} {c : Collector Path} {path : Path}

/-- A run as one path sees it. -/
structure Observed (Path : Type) where
  state : State Path
  /-- The ctimes the path has shown. -/
  seen : List ℕ
  /-- No regular file was at the path at some moment since the scan began. -/
  missed : Bool := false
  /-- The records built for the path so far. -/
  built : List RawFileEvent := []

def isFile (fs : FileSystem Path) (path : Path) : Bool :=
  match fs.lstat path with
  | none => false
  | some (_, node) => node.regular

def ctimesAt (fs : FileSystem Path) (path : Path) : List ℕ :=
  ((fs.lstat path).map fun found => found.2.ctimeNs).toList

def Observed.move (o : Observed Path) (path : Path) (fs : FileSystem Path) : Observed Path :=
  { o with
    state := { o.state with fs := fs }
    seen := ctimesAt fs path ++ o.seen
    missed := o.missed || !isFile fs path }

/-- The file touched is not at the path, or its ctime is new there. -/
def Later (o : Observed Path) (path : Path) (fs : FileSystem Path) (id : FileId) (node : Node) :
    Prop :=
  fs.entries path = some id → ∀ ctimeNs ∈ o.seen, ctimeNs < node.ctimeNs

instance (o : Observed Path) (path : Path) (fs : FileSystem Path) (id : FileId) (node : Node) :
    Decidable (Later o path fs id node) :=
  inferInstanceAs (Decidable (_ → _))

end Files

section Steps

variable {Path : Type} [DecidableEq Path]

/-- The records of `_diff` about the path. -/
def about (c : Collector Path) (path : Path) (now : Path → String → ℚ) (old new : Snapshot Path) :
    List RawFileEvent :=
  (reports c now old new).filterMap fun report => if report.1 = path then report.2 else none

/-- A scan may end if it has an entry for the path, unless that is not watched or was without a file
at some moment. -/
def complete (watched : Bool) (path : Path) (o : Observed Path) (scan : Scan Path) : Bool :=
  !watched || (Dict.get scan.snapshot path).isSome || o.missed

def Observed.finish (c : Collector Path) (path : Path) (o : Observed Path) (scan : Scan Path)
    (now : Path → String → ℚ) : Observed Path :=
  { o with
    state := drainOnce c o.state scan now
    missed := false
    built := o.built ++
      if o.state.seeded then about c path now o.state.baseline scan.snapshot else [] }

/-- The steps of the scan are those of `step`; what is done to files is bound by `Later` alone. -/
def observe (c : Collector Path) (watch : Path → Bool) (path : Path) (o : Observed Path) :
    Action Path → Option (Observed Path)
  | .tick now => some { o with state := { o.state with clock := now } }
  | .change id node =>
      let fs : FileSystem Path :=
        { o.state.fs with nodes := Function.update o.state.fs.nodes id node }
      if Later o path fs id node then some (o.move path fs) else none
  | .place other id node =>
      let fs : FileSystem Path :=
        { entries := Function.update o.state.fs.entries other (some id)
          nodes := Function.update o.state.fs.nodes id node }
      if Later o path fs id node then some (o.move path fs) else none
  | .remove other =>
      some (o.move path
        { o.state.fs with entries := Function.update o.state.fs.entries other none })
  | .beginScan =>
      (step c 0 o.state .beginScan).map fun s =>
        { o with state := s, missed := !isFile o.state.fs path }
  | .lstat other =>
      if watch other then (step c 0 o.state (.lstat other)).map fun s => { o with state := s }
      else none
  | .hash => (step c 0 o.state .hash).map fun s => { o with state := s }
  | .interrupt => (step c 0 o.state .interrupt).map fun s => { o with state := s }
  | .finish now =>
      match o.state.phase with
      | .scanning scan =>
          if complete (watch path) path o scan then some (o.finish c path scan now) else none
      | _ => none

/-- The first scan is still to come. -/
def observed (clock : ℕ) (fs : FileSystem Path) (path : Path) : Observed Path :=
  { state := initial clock fs, seen := ctimesAt fs path }

end Steps

/-! ## What a fingerprint is worth later -/

section Files

variable {Path : Type} {c : Collector Path} {path : Path}

/-- The fingerprint of this file, with its digest as it is. -/
def FileState.Describes (c : Collector Path) (s : FileState) (id : FileId) (node : Node) : Prop :=
  ∃ startNs, s = { stateOf id node startNs with sha256 := freshDigest c node }

/-- The regular file at the path is the one described. -/
def Intact (c : Collector Path) (fs : FileSystem Path) (path : Path) (s : FileState) : Prop :=
  ∃ id node, fs.lstat path = some (id, node) ∧ node.regular = true ∧ s.Describes c id node

/-- Whatever is at the path has a larger ctime. -/
def Outdated (fs : FileSystem Path) (path : Path) (ctimeNs : ℕ) : Prop :=
  ∀ id node, fs.lstat path = some (id, node) → ctimeNs < node.ctimeNs

lemma Outdated.lt {fs : FileSystem Path} {ctimeNs : ℕ} {id : FileId} {node : Node}
    (h : Outdated fs path ctimeNs) (hnode : fs.lstat path = some (id, node)) :
    ctimeNs < node.ctimeNs := h id node hnode

lemma Intact.describes {fs : FileSystem Path} {s : FileState} {id : FileId} {node : Node}
    (h : Intact c fs path s) (hnode : fs.lstat path = some (id, node)) : s.Describes c id node := by
  obtain ⟨id', node', hnode', -, hdescribes⟩ := h
  rw [hnode, Option.some.injEq, Prod.mk.injEq] at hnode'
  obtain ⟨rfl, rfl⟩ := hnode'
  exact hdescribes

/-- An entry, when its path is visited again. -/
lemma describes_or_lt {fs : FileSystem Path} {s : FileState} {id : FileId} {node : Node}
    (h : Intact c fs path s ∨ Outdated fs path s.ctimeNs)
    (hnode : fs.lstat path = some (id, node)) :
    s.ctimeNs < node.ctimeNs ∨ s.Describes c id node := by
  rcases h with h | h
  · exact Or.inr (h.describes hnode)
  · exact Or.inl (h.lt hnode)

/-- What is not a regular file is not the file of an entry. -/
lemma outdated_of_not_isFile {fs : FileSystem Path} {s : FileState}
    (h : Intact c fs path s ∨ Outdated fs path s.ctimeNs) (hfile : isFile fs path = false) :
    Outdated fs path s.ctimeNs := by
  rcases h with ⟨id, node, hnode, hregular, -⟩ | h
  · simp [isFile, hnode, hregular] at hfile
  · exact h

/-- The path leads where it did, or to a file with a new ctime. -/
def Advances (o : Observed Path) (path : Path) (fs : FileSystem Path) : Prop :=
  fs.lstat path = o.state.fs.lstat path ∨
    ∀ id node, fs.lstat path = some (id, node) → ∀ ctimeNs ∈ o.seen, ctimeNs < node.ctimeNs

lemma Outdated.advance {o : Observed Path} {fs : FileSystem Path} {ctimeNs : ℕ}
    (h : Outdated o.state.fs path ctimeNs) (hfs : Advances o path fs) (hseen : ctimeNs ∈ o.seen) :
    Outdated fs path ctimeNs := by
  intro id node hnode
  rcases hfs with hsame | hlater
  · exact h id node (hsame ▸ hnode)
  · exact hlater id node hnode ctimeNs hseen

lemma current_advance {o : Observed Path} {fs : FileSystem Path} {s : FileState}
    (h : Intact c o.state.fs path s ∨ Outdated o.state.fs path s.ctimeNs)
    (hfs : Advances o path fs) (hseen : s.ctimeNs ∈ o.seen) :
    Intact c fs path s ∨ Outdated fs path s.ctimeNs := by
  rcases h with ⟨id, node, hnode, hrest⟩ | h
  · rcases hfs with hsame | hlater
    · exact Or.inl ⟨id, node, hsame.trans hnode, hrest⟩
    · exact Or.inr fun id node hnode => hlater id node hnode s.ctimeNs hseen
  · exact Or.inr (h.advance hfs hseen)

/-- A visit of the path in the scan in progress found this file. -/
def Visited (path : Path) (id : FileId) (node : Node) : Phase Path → Prop
  | .idle => False
  | .scanning scan => ∃ sighting, scan.sightings path = some sighting ∧ sighting.id = id ∧
      sighting.found = node
  | .hashing scan pending =>
      (∃ sighting, scan.sightings path = some sighting ∧ sighting.id = id ∧
        sighting.found = node) ∨
      (pending.path = path ∧ pending.id = id ∧ pending.found = node)

/-- An entry made in an earlier scan. -/
structure Older (c : Collector Path) (path : Path) (o : Observed Path) (s : FileState) : Prop where
  seen : s.ctimeNs ∈ o.seen
  current : Intact c o.state.fs path s ∨ Outdated o.state.fs path s.ctimeNs
  missed : o.missed = true → Outdated o.state.fs path s.ctimeNs
  visited : ∀ id node, Visited path id node o.state.phase →
    s.ctimeNs < node.ctimeNs ∨ s.Describes c id node

lemma Older.advance {o : Observed Path} {fs : FileSystem Path} {s : FileState}
    (h : Older c path o s) (hfs : Advances o path fs) : Older c path (o.move path fs) s where
  seen := List.mem_append_right _ h.seen
  current := current_advance h.current hfs h.seen
  missed := by
    intro hmissed
    rcases (Bool.or_eq_true _ _).mp hmissed with hmissed | hfile
    · exact (h.missed hmissed).advance hfs h.seen
    · have hfile' : isFile fs path = false := by simpa using hfile
      exact outdated_of_not_isFile (current_advance h.current hfs h.seen) hfile'
  visited := h.visited

/-- A file between its `lstat` and its read. -/
structure Waiting (path : Path) (fs : FileSystem Path) (seen : List ℕ) (pending : Pending Path) :
    Prop where
  seen : pending.found.ctimeNs ∈ seen
  regular : pending.found.regular = true
  current : fs.lstat path = some (pending.id, pending.found) ∨
    Outdated fs path pending.found.ctimeNs

lemma Waiting.advance {o : Observed Path} {fs : FileSystem Path} {pending : Pending Path}
    (h : Waiting path o.state.fs o.seen pending) (hfs : Advances o path fs) :
    Waiting path fs (ctimesAt fs path ++ o.seen) pending := by
  refine ⟨List.mem_append_right _ h.seen, h.regular, ?_⟩
  rcases h.current with hsame | houtdated
  · rcases hfs with hkept | hlater
    · exact Or.inl (hkept.trans hsame)
    · exact Or.inr fun id node hnode => hlater id node hnode _ h.seen
  · exact Or.inr (houtdated.advance hfs h.seen)

lemma advances_of_later {o : Observed Path} {fs : FileSystem Path} {id : FileId} {node : Node}
    (hnodes : fs.nodes = Function.update o.state.fs.nodes id node)
    (hentries : fs.entries path = o.state.fs.entries path ∨ fs.entries path = some id)
    (h : Later o path fs id node) : Advances o path fs := by
  by_cases hid : fs.entries path = some id
  · refine Or.inr ?_
    intro id' node' hnode'
    rw [FileSystem.lstat, hid, Option.map_some, hnodes, Option.some.injEq, Prod.mk.injEq,
      Function.update_self] at hnode'
    rw [← hnode'.2]
    exact h hid
  · refine Or.inl ?_
    have hsame := hentries.resolve_right hid
    rw [FileSystem.lstat, FileSystem.lstat, hsame, hnodes]
    rw [hsame] at hid
    rcases hentry : o.state.fs.entries path with _ | id'
    · rfl
    · have hne : id' ≠ id := by
        rintro rfl
        exact hid hentry
      rw [Option.map_some, Option.map_some, Function.update_of_ne hne]

/-! ## Digests -/

lemma hashFile_ne_empty {sha256 : Sha256} {maxHashBytes : ℕ} {expected : FileId}
    {opened : Option (FileId × Node)} :
    ∀ digest ∈ hashFile sha256 maxHashBytes expected opened, digest ≠ "" := by
  rintro digest hdigest rfl
  unfold hashFile at hdigest
  split at hdigest
  · cases hdigest
  · split_ifs at hdigest
    · cases hdigest
    · cases hdigest
    · obtain ⟨bytes, -, hbytes⟩ := Option.map_eq_some_iff.mp hdigest
      have hlength := sha256.length_hexdigest bytes
      rw [hbytes] at hlength
      cases hlength

lemma freshDigest_ne_empty {node : Node} : ∀ digest ∈ freshDigest c node, digest ≠ "" := by
  rw [← hashFile_eq { inode := 0, device := 0, inode_lt := by decide } node]
  exact hashFile_ne_empty

/-- A digest that the stat cache answers is that of the file at the path. -/
lemma Older.sha256_of_sameStat {o : Observed Path} {entry : FileState} {id : FileId} {node : Node}
    {startNs : ℕ} (h : Older c path o entry) (hnode : o.state.fs.lstat path = some (id, node))
    (hstat : entry.sameStat (stateOf id node startNs) = true) :
    entry.sha256 = freshDigest c node := by
  have hctime : entry.ctimeNs = node.ctimeNs := (of_decide_eq_true hstat).2.2.1
  rcases describes_or_lt h.current hnode with hlt | ⟨_, hdescribes⟩
  · exact absurd hctime hlt.ne
  · rw [hdescribes]

end Files

section Invariant

variable {Path : Type} [DecidableEq Path] {c : Collector Path} {watch : Path → Bool} {path : Path}

/-- An entry whose file was gone when a scan ended. -/
structure Gone (path : Path) (o : Observed Path) (s : FileState) : Prop where
  outdated : Outdated o.state.fs path s.ctimeNs
  visited : ∀ id node, Visited path id node o.state.phase → s.ctimeNs < node.ctimeNs
  baseline : ∀ entry, Dict.get o.state.baseline path = some entry → s.ctimeNs < entry.ctimeNs

/-- What a scan in progress has for the path. -/
structure Fresh (c : Collector Path) (path : Path) (fs : FileSystem Path) (seen : List ℕ)
    (scan : Scan Path) : Prop where
  nodup : (Dict.keys scan.snapshot).Nodup
  entry : ∀ state, Dict.get scan.snapshot path = some state →
    ∃ sighting, scan.sightings path = some sighting ∧
      (∃ startNs, state = { stateOf sighting.id sighting.found startNs with
        sha256 := state.sha256 }) ∧
      (∀ digest ∈ state.sha256, digest ≠ "") ∧
      sighting.found.ctimeNs ∈ seen ∧
      (Intact c fs path state ∨ Outdated fs path state.ctimeNs)

/-- A record built for the path, and the entry its seed was made from. -/
structure Recorded (c : Collector Path) (path : Path) (o : Observed Path) (r : RawFileEvent)
    (s : FileState) : Prop where
  seed : r.idSeed = idSeed r.action s
  hashed : ∀ digest ∈ s.sha256, digest ≠ ""
  older : Older c path o s
  baseline : ∀ entry, Dict.get o.state.baseline path = some entry → s.ctimeNs ≤ entry.ctimeNs
  gone : r.action = "file_deleted" ∨ Dict.get o.state.baseline path = none → Gone path o s

/-- Nothing was found at the path in the scan in progress. -/
def Unvisited (path : Path) : Phase Path → Prop
  | .idle => True
  | .scanning scan => Dict.get scan.snapshot path = none
  | .hashing scan pending => Dict.get scan.snapshot path = none ∧ pending.path ≠ path

def Scanning (c : Collector Path) (path : Path) (fs : FileSystem Path) (seen : List ℕ) :
    Phase Path → Prop
  | .idle => True
  | .scanning scan => Fresh c path fs seen scan
  | .hashing scan pending =>
      Fresh c path fs seen scan ∧ (pending.path = path → Waiting path fs seen pending)

structure Followed (c : Collector Path) (watch : Path → Bool) (path : Path) (o : Observed Path) :
    Prop where
  seen : ∀ id node, o.state.fs.lstat path = some (id, node) → node.ctimeNs ∈ o.seen
  nodup : (Dict.keys o.state.baseline).Nodup
  baseline : ∀ entry, Dict.get o.state.baseline path = some entry →
    Older c path o entry ∧ ∀ digest ∈ entry.sha256, digest ≠ ""
  phase : Scanning c path o.state.fs o.seen o.state.phase
  built : ∀ r ∈ o.built, ∃ s, Recorded c path o r s
  distinct : o.built.Pairwise fun r r' => r.action = r'.action → r.idSeed ≠ r'.idSeed
  unwatched : watch path = false → o.built = [] ∧ Dict.get o.state.baseline path = none ∧
    Unvisited path o.state.phase

/-! ## Changes of the file system -/

lemma Fresh.advance {o : Observed Path} {fs : FileSystem Path} {scan : Scan Path}
    (h : Fresh c path o.state.fs o.seen scan) (hfs : Advances o path fs) :
    Fresh c path fs (ctimesAt fs path ++ o.seen) scan := by
  refine ⟨h.nodup, ?_⟩
  intro state hstate
  obtain ⟨sighting, hsighting, ⟨startNs, hstat⟩, hhashed, hseen, hcurrent⟩ := h.entry state hstate
  have hctime : state.ctimeNs = sighting.found.ctimeNs := by rw [hstat]; rfl
  refine ⟨sighting, hsighting, ⟨startNs, hstat⟩, hhashed, List.mem_append_right _ hseen, ?_⟩
  exact current_advance hcurrent hfs (hctime ▸ hseen)

lemma Followed.move {o : Observed Path} {fs : FileSystem Path} (h : Followed c watch path o)
    (hfs : Advances o path fs) : Followed c watch path (o.move path fs) where
  seen := by
    intro id node hnode
    refine List.mem_append_left _ ?_
    have hnode' : fs.lstat path = some (id, node) := hnode
    simp [ctimesAt, hnode']
  nodup := h.nodup
  baseline := by
    intro entry hentry
    obtain ⟨holder, hhashed⟩ := h.baseline entry hentry
    exact ⟨holder.advance hfs, hhashed⟩
  phase := by
    have hphase := h.phase
    show Scanning c path fs (ctimesAt fs path ++ o.seen) o.state.phase
    cases hcase : o.state.phase with
    | idle => trivial
    | scanning scan =>
        rw [hcase] at hphase
        exact Fresh.advance hphase hfs
    | hashing scan pending =>
        rw [hcase] at hphase
        exact ⟨hphase.1.advance hfs, fun hpath => (hphase.2 hpath).advance hfs⟩
  built := by
    intro r hr
    obtain ⟨s, hs⟩ := h.built r hr
    refine ⟨s, hs.seed, hs.hashed, hs.older.advance hfs, hs.baseline, ?_⟩
    intro hgone
    obtain ⟨houtdated, hvisited, hbaseline⟩ := hs.gone hgone
    exact ⟨houtdated.advance hfs hs.older.seen, hvisited, hbaseline⟩
  distinct := h.distinct
  unwatched := h.unwatched

/-! ## Steps of the scan -/

/-- A step of the scan leaves the files as they are; what it visits is what is at the path. -/
lemma Followed.rephase {o : Observed Path} {t : State Path} {missed : Bool}
    (h : Followed c watch path o) (hfs : t.fs = o.state.fs)
    (hbaseline : t.baseline = o.state.baseline)
    (hmissed : missed = true → o.missed = true ∨ isFile o.state.fs path = false)
    (hvisited : ∀ id node, Visited path id node t.phase →
      Visited path id node o.state.phase ∨ o.state.fs.lstat path = some (id, node))
    (hphase : Scanning c path o.state.fs o.seen t.phase)
    (hunwatched : watch path = false → Unvisited path t.phase) :
    Followed c watch path { o with state := t, missed := missed } := by
  have holder : ∀ s, Older c path o s →
      Older c path { o with state := t, missed := missed } s := by
    intro s hs
    refine ⟨hs.seen, hfs ▸ hs.current, ?_, ?_⟩
    · intro hm
      show Outdated t.fs path s.ctimeNs
      rw [hfs]
      rcases hmissed hm with hm | hfile
      · exact hs.missed hm
      · exact outdated_of_not_isFile hs.current hfile
    · intro id node hnode
      rcases hvisited id node hnode with hnode | hnode
      · exact hs.visited id node hnode
      · exact describes_or_lt hs.current hnode
  refine ⟨?_, ?_, ?_, ?_, ?_, h.distinct, ?_⟩
  · exact hfs ▸ h.seen
  · exact hbaseline ▸ h.nodup
  · intro entry hentry
    have hentry' : Dict.get o.state.baseline path = some entry := hbaseline ▸ hentry
    exact ⟨holder entry (h.baseline entry hentry').1, (h.baseline entry hentry').2⟩
  · exact hfs ▸ hphase
  · intro r hr
    obtain ⟨s, hs⟩ := h.built r hr
    refine ⟨s, hs.seed, hs.hashed, holder s hs.older, ?_, ?_⟩
    · exact hbaseline ▸ hs.baseline
    · intro hgone
      obtain ⟨houtdated, hseen, hentry⟩ := hs.gone (hgone.imp_right fun hnone => hbaseline ▸ hnone)
      refine ⟨hfs ▸ houtdated, ?_, hbaseline ▸ hentry⟩
      intro id node hnode
      rcases hvisited id node hnode with hnode | hnode
      · exact hseen id node hnode
      · exact houtdated.lt hnode
  · intro hwatch
    obtain ⟨hnone, hempty, -⟩ := h.unwatched hwatch
    exact ⟨hnone, hbaseline ▸ hempty, hunwatched hwatch⟩

/-- A new entry takes the place of what the scan had for its path. -/
lemma Fresh.record {fs : FileSystem Path} {seen : List ℕ} {scan : Scan Path} {other : Path}
    {state : FileState} {sighting : Sighting} (h : Fresh c path fs seen scan)
    (hstat : ∃ startNs, state = { stateOf sighting.id sighting.found startNs with
      sha256 := state.sha256 })
    (hnew : other = path → (∀ digest ∈ state.sha256, digest ≠ "") ∧
      sighting.found.ctimeNs ∈ seen ∧
      (Intact c fs path state ∨ Outdated fs path state.ctimeNs)) :
    Fresh c path fs seen (scan.record other state sighting) := by
  refine ⟨Dict.nodup_keys_set h.nodup _ _, ?_⟩
  intro state' hstate'
  have hstate : Dict.get (Dict.set scan.snapshot other state) path = some state' := hstate'
  rw [Dict.get_set] at hstate
  by_cases hpath : other = path
  · rw [if_pos hpath, Option.some.injEq] at hstate
    subst hstate
    obtain ⟨hhashed, hseen, hcurrent⟩ := hnew hpath
    refine ⟨sighting, ?_, hstat, hhashed, hseen, hcurrent⟩
    show Function.update scan.sightings other (some sighting) path = some sighting
    rw [hpath, Function.update_self]
  · rw [if_neg hpath] at hstate
    obtain ⟨sighting', hsighting', hrest⟩ := h.entry state' hstate
    refine ⟨sighting', ?_, hrest⟩
    show Function.update scan.sightings other (some sighting) path = some sighting'
    rw [Function.update_of_ne (Ne.symm hpath)]
    exact hsighting'

lemma visited_record {scan : Scan Path} {other : Path} {state : FileState} {sighting : Sighting}
    {id : FileId} {node : Node}
    (h : Visited path id node (.scanning (scan.record other state sighting))) :
    (other = path ∧ sighting.id = id ∧ sighting.found = node) ∨
      Visited path id node (.scanning scan) := by
  obtain ⟨sighting', hsighting', hid, hfound⟩ := h
  have hupdate : Function.update scan.sightings other (some sighting) path = some sighting' :=
    hsighting'
  by_cases hpath : path = other
  · rw [hpath, Function.update_self, Option.some.injEq] at hupdate
    subst hupdate
    exact Or.inl ⟨hpath.symm, hid, hfound⟩
  · rw [Function.update_of_ne hpath] at hupdate
    exact Or.inr ⟨sighting', hupdate, hid, hfound⟩

lemma unvisited_record {scan : Scan Path} {other : Path} {state : FileState} {sighting : Sighting}
    (h : Dict.get scan.snapshot path = none) (hne : other ≠ path) :
    Unvisited path (.scanning (scan.record other state sighting)) := by
  show Dict.get (Dict.set scan.snapshot other state) path = none
  rw [Dict.get_set, if_neg hne]
  exact h

lemma Followed.snapshotFile {o : Observed Path} {scan : Scan Path} (h : Followed c watch path o)
    (hphase : o.state.phase = .scanning scan) {other : Path} (hwatch : watch other = true) :
    Followed c watch path { o with state := snapshotFile c o.state scan other } := by
  have hfresh : Fresh c path o.state.fs o.seen scan := by
    have hscanning := h.phase
    rw [hphase] at hscanning
    exact hscanning
  have hother : watch path = false → other ≠ path := by
    rintro hunwatched rfl
    rw [hwatch] at hunwatched
    cases hunwatched
  have hnone : watch path = false → Dict.get scan.snapshot path = none := by
    intro hunwatched
    have hunvisited := (h.unwatched hunwatched).2.2
    rw [hphase] at hunvisited
    exact hunvisited
  unfold Integrity.snapshotFile
  split
  case h_1 => exact h
  case h_2 id node hnode =>
    split
    case isTrue => exact h
    case isFalse hregular =>
      have hregular' : node.regular = true := by simpa using hregular
      -- an entry that describes the file as it is
      have hrecord : ∀ (t : State Path) (sha256 : Option String), t.fs = o.state.fs →
          t.baseline = o.state.baseline → (other = path → sha256 = freshDigest c node) →
          t.phase = .scanning (scan.record other
            { stateOf id node scan.startNs with sha256 := sha256 }
            { startNs := scan.startNs, id := id, found := node, seen := node }) →
          Followed c watch path { o with state := t } := by
        intro t sha256 hfs hbaseline hsha ht
        refine h.rephase hfs hbaseline Or.inl ?_ ?_ ?_
        · intro id' node' hvisited
          rw [ht] at hvisited
          rcases visited_record hvisited with ⟨hpath, hid, hfound⟩ | hvisited
          · refine Or.inr ?_
            rw [← hpath, hnode, ← hid, ← hfound]
          · exact Or.inl (hphase ▸ hvisited)
        · rw [ht]
          refine hfresh.record ⟨scan.startNs, rfl⟩ ?_
          rintro rfl
          refine ⟨?_, h.seen id node hnode, Or.inl ?_⟩
          · rw [hsha rfl]
            exact freshDigest_ne_empty
          · exact ⟨id, node, hnode, hregular', scan.startNs, by rw [hsha rfl]⟩
        · intro hunwatched
          rw [ht]
          exact unvisited_record (hnone hunwatched) (hother hunwatched)
      dsimp only
      split
      case h_1 previous hcached =>
        obtain ⟨hprevious, hreuse⟩ := Option.filter_eq_some_iff.mp hcached
        rw [Bool.and_eq_true] at hreuse
        refine hrecord _ previous.sha256 rfl rfl ?_ rfl
        rintro rfl
        exact (h.baseline previous hprevious).1.sha256_of_sameStat hnode hreuse.2
      case h_2 =>
        split
        case isTrue hlength =>
          refine h.rephase rfl rfl Or.inl ?_ ?_ ?_
          · rintro id' node' (hvisited | ⟨hpath, hid, hfound⟩)
            · exact Or.inl (hphase ▸ hvisited)
            · refine Or.inr ?_
              rw [← hpath, ← hid, ← hfound]
              exact hnode
          · refine ⟨hfresh, ?_⟩
            rintro rfl
            exact ⟨h.seen id node hnode, hregular', Or.inl hnode⟩
          · intro hunwatched
            exact ⟨hnone hunwatched, hother hunwatched⟩
        case isFalse hlength =>
          refine hrecord _ none rfl rfl (fun _ => ?_) rfl
          rw [freshDigest, if_neg fun hplain => hlength hplain.2.2]

lemma Followed.completeHash {o : Observed Path} {scan : Scan Path} {pending : Pending Path}
    (h : Followed c watch path o) (hphase : o.state.phase = .hashing scan pending) :
    Followed c watch path { o with state := completeHash c o.state scan pending } := by
  have hscanning := h.phase
  rw [hphase] at hscanning
  obtain ⟨hfresh, hwaiting⟩ := hscanning
  refine h.rephase rfl rfl Or.inl ?_ ?_ ?_
  · intro id node hvisited
    rw [hphase]
    exact Or.inl ((visited_record hvisited).symm)
  · refine hfresh.record ⟨scan.startNs, rfl⟩ ?_
    intro hpath
    obtain ⟨hseen, hregular, hcurrent⟩ := hwaiting hpath
    refine ⟨hashFile_ne_empty, hseen, ?_⟩
    rcases hcurrent with hsame | houtdated
    · refine Or.inl ⟨pending.id, pending.found, hsame, hregular, scan.startNs, ?_⟩
      rw [hpath, hsame, hashFile_eq]
    · exact Or.inr houtdated
  · intro hunwatched
    have hunvisited := (h.unwatched hunwatched).2.2
    rw [hphase] at hunvisited
    exact unvisited_record hunvisited.1 hunvisited.2

lemma Followed.beginScan {o : Observed Path} (h : Followed c watch path o) :
    Followed c watch path
      { o with
        state := { o.state with phase := .scanning { startNs := o.state.clock } }
        missed := !isFile o.state.fs path } := by
  refine h.rephase rfl rfl ?_ ?_ ?_ ?_
  · intro hmissed
    exact Or.inr (by simpa using hmissed)
  · rintro id node ⟨sighting, hsighting, -⟩
    cases hsighting
  · refine ⟨List.nodup_nil, ?_⟩
    intro state hstate
    cases hstate
  · intro _
    rfl

lemma Followed.interrupt {o : Observed Path} (h : Followed c watch path o) :
    Followed c watch path { o with state := { o.state with phase := .idle } } :=
  h.rephase rfl rfl Or.inl (fun _ _ hvisited => hvisited.elim) trivial fun _ => trivial

/-! ## The records of one scan -/

omit [DecidableEq Path] in
lemma idSeed_of_raw {occurredAt : ℚ} {s : FileState} {action seed : String} {severity : ℕ}
    {r : RawFileEvent} (h : raw c occurredAt path s action severity seed = some r) :
    r.idSeed = seed := by
  unfold raw RawFileEvent.build at h
  split_ifs at h
  rw [← Option.some.inj h]

variable {now : Path → String → ℚ} {old new : Snapshot Path}

lemma about_eq (hold : (Dict.keys old).Nodup) (hnew : (Dict.keys new).Nodup) :
    about c path now old new =
      ((Dict.get new path).elim [] fun state =>
        (diffEntry c now old (path, state)).reduceOption)
      ++ (Dict.get old path).elim [] fun state =>
        if Dict.get new path = none
        then (deleted c (now path "file_deleted") path state).toList else [] := by
  rw [about, reports, List.filterMap_append]
  congr 1
  · rw [List.filterMap_flatMap, Dict.flatMap_eq_get hnew (k := path)]
    · rcases Dict.get new path with _ | state
      · rfl
      · simp [List.filterMap_map, List.reduceOption]
    · intro entry _ hne
      simp [List.filterMap_map, hne]
  · rw [List.filterMap_map, List.filterMap_filter, List.filterMap_eq_flatMap_toList,
      Dict.flatMap_eq_get hold (k := path)]
    · rcases Dict.get old path with _ | state
      · rfl
      · rcases hgone : Dict.get new path with _ | state'
        · simp [hgone]
        · simp [hgone]
    · intro entry _ hne
      simp [hne]

/-- Where a record about the path comes from. -/
inductive Origin (old new : Snapshot Path) (path : Path) (r : RawFileEvent) : Prop where
  | created (state : FileState) (hnew : Dict.get new path = some state)
      (hold : Dict.get old path = none) (haction : r.action = "file_created")
      (hseed : r.idSeed = fingerprint state)
  | modified (previous state : FileState) (hnew : Dict.get new path = some state)
      (hold : Dict.get old path = some previous) (haction : r.action = "file_modified")
      (hseed : r.idSeed = fingerprint state) (hchanged : contentChanged previous state = true)
  | attributes (previous state : FileState) (hnew : Dict.get new path = some state)
      (hold : Dict.get old path = some previous) (haction : r.action = "file_attributes_modified")
      (hseed : r.idSeed = attrsSeed state) (hchanged : attributesChanged previous state = true)
  | deleted (previous : FileState) (hnew : Dict.get new path = none)
      (hold : Dict.get old path = some previous) (haction : r.action = "file_deleted")
      (hseed : r.idSeed = fingerprint previous)

lemma origin_of_mem_about (hold : (Dict.keys old).Nodup) (hnew : (Dict.keys new).Nodup)
    {r : RawFileEvent} (h : r ∈ about c path now old new) : Origin old new path r := by
  rw [about_eq hold hnew] at h
  rcases List.mem_append.mp h with h | h
  · rcases hstate : Dict.get new path with _ | state
    · rw [hstate] at h
      exact absurd h List.not_mem_nil
    · rw [hstate] at h
      have hrecord := List.reduceOption_mem_iff.mp h
      unfold diffEntry at hrecord
      dsimp only at hrecord
      split at hrecord
      case h_1 hprevious =>
        have hraw := (List.mem_singleton.mp hrecord).symm
        exact .created state hstate hprevious (action_of_raw hraw) (idSeed_of_raw hraw)
      case h_2 previous hprevious =>
        rcases List.mem_append.mp hrecord with hrecord | hrecord
        · split_ifs at hrecord with hchanged
          · have hraw := (List.mem_singleton.mp hrecord).symm
            exact .modified previous state hstate hprevious (action_of_raw hraw)
              (idSeed_of_raw hraw) hchanged
          · exact absurd hrecord List.not_mem_nil
        · split_ifs at hrecord with hchanged
          · have hraw := (List.mem_singleton.mp hrecord).symm
            exact .attributes previous state hstate hprevious (action_of_raw hraw)
              (idSeed_of_raw hraw) hchanged
          · exact absurd hrecord List.not_mem_nil
  · rcases hprevious : Dict.get old path with _ | previous
    · rw [hprevious] at h
      exact absurd h List.not_mem_nil
    · rw [hprevious] at h
      dsimp only [Option.elim] at h
      split_ifs at h with hgone
      · have hraw := Option.mem_toList.mp h
        exact .deleted previous hgone hprevious (action_of_raw hraw) (idSeed_of_raw hraw)
      · exact absurd h List.not_mem_nil

/-- One scan builds no two records of one action for a path. -/
lemma pairwise_about (hold : (Dict.keys old).Nodup) (hnew : (Dict.keys new).Nodup) :
    (about c path now old new).Pairwise fun r r' => r.action ≠ r'.action := by
  have hsmall : ∀ (a b : Option RawFileEvent) (p q : Prop) [Decidable p] [Decidable q],
      (∀ r r', a = some r → b = some r' → r.action ≠ r'.action) →
      ((if p then [a] else []) ++ (if q then [b] else [])).reduceOption.Pairwise
        fun r r' => r.action ≠ r'.action := by
    intro a b p q _ _ hne
    split_ifs
    · rcases a with _ | r
      · rcases b with _ | r'
        · simp
        · simp
      · rcases b with _ | r'
        · simp
        · simpa using hne r r' rfl rfl
    · rcases a with _ | r
      · simp
      · simp
    · rcases b with _ | r'
      · simp
      · simp
    · simp
  rw [about_eq hold hnew]
  rcases Dict.get new path with _ | state
  · rcases Dict.get old path with _ | previous
    · simp
    · rcases deleted c (now path "file_deleted") path previous with _ | r
      · simp
      · simp
  · have hlast : ((Dict.get old path).elim [] fun previous =>
        if (some state : Option FileState) = none
        then (deleted c (now path "file_deleted") path previous).toList else []) = [] := by
      rcases Dict.get old path with _ | previous
      · rfl
      · simp
    rw [hlast, List.append_nil]
    dsimp only [Option.elim, diffEntry]
    rcases Dict.get old path with _ | previous
    · rcases created c (now path "file_created") path state with _ | r
      · simp
      · simp
    · refine hsmall _ _ _ _ ?_
      intro r r' hr hr'
      rw [action_of_raw hr, action_of_raw hr']
      decide

/-! ## Why seeds do not repeat -/

/-- Fingerprints of one file differ in content only by their digests. -/
lemma digests_of_contentChanged {id : FileId} {node : Node} {s t : FileState} {startNs startNs' : ℕ}
    (hs : s = { stateOf id node startNs with sha256 := s.sha256 })
    (ht : t = { stateOf id node startNs' with sha256 := t.sha256 })
    (h : contentChanged s t = true) :
    ∃ digest digest', s.sha256 = some digest ∧ t.sha256 = some digest' ∧ digest ≠ digest' := by
  unfold contentChanged at h
  split at h
  case h_1 digest digest' hdigest hdigest' =>
    exact ⟨digest, digest', hdigest, hdigest', of_decide_eq_true h⟩
  case h_2 =>
    rw [hs, ht] at h
    simp [stateOf] at h

lemma attributesChanged_of_stat {id : FileId} {node : Node} {s t : FileState}
    {startNs startNs' : ℕ} (hs : s = { stateOf id node startNs with sha256 := s.sha256 })
    (ht : t = { stateOf id node startNs' with sha256 := t.sha256 }) :
    attributesChanged s t = false := by
  unfold attributesChanged
  rw [hs, ht]
  simp [stateOf]

/-- **The argument.**  A record of the scan that ends and an older one of the same action have
different seeds. -/
lemma Followed.seed_ne {o : Observed Path} {scan : Scan Path} (h : Followed c watch path o)
    (hphase : o.state.phase = .scanning scan) {r r' : RawFileEvent} (hr : r ∈ o.built)
    (hr' : r' ∈ about c path now o.state.baseline scan.snapshot) (haction : r.action = r'.action) :
    r.idSeed ≠ r'.idSeed := by
  have hfresh : Fresh c path o.state.fs o.seen scan := by
    have hscanning := h.phase
    rw [hphase] at hscanning
    exact hscanning
  obtain ⟨s, hs⟩ := h.built r hr
  have hvisited : ∀ sighting, scan.sightings path = some sighting →
      Visited path sighting.id sighting.found o.state.phase := by
    intro sighting hsighting
    rw [hphase]
    exact ⟨sighting, hsighting, rfl, rfl⟩
  intro hseeds
  have hplain : r'.action ≠ "file_attributes_modified" → r.idSeed = fingerprint s := by
    intro hne
    rw [hs.seed, idSeed, if_neg (haction ▸ hne)]
  cases origin_of_mem_about h.nodup hfresh.nodup hr' with
  | created state hnew hold haction' hseed =>
      -- the file was gone in between
      obtain ⟨sighting, hsighting, ⟨_, hstat⟩, hhashed, -⟩ := hfresh.entry state hnew
      have hlt := (hs.gone (Or.inr hold)).visited _ _ (hvisited sighting hsighting)
      rw [hplain (haction' ▸ by decide), hseed] at hseeds
      have hctime := (fingerprint_inj hs.hashed hhashed hseeds).1
      rw [hstat] at hctime
      exact hlt.ne hctime
  | deleted previous hnew hold haction' hseed =>
      have hlt := (hs.gone (Or.inl (haction.trans haction'))).baseline previous hold
      rw [hplain (haction' ▸ by decide), hseed] at hseeds
      exact hlt.ne (fingerprint_inj hs.hashed (h.baseline previous hold).2 hseeds).1
  | modified previous state hnew hold haction' hseed hchanged =>
      obtain ⟨sighting, hsighting, ⟨_, hstat⟩, hhashed, -⟩ := hfresh.entry state hnew
      rw [hplain (haction' ▸ by decide), hseed] at hseeds
      obtain ⟨hctime, hdigests⟩ := fingerprint_inj hs.hashed hhashed hseeds
      have hfound : state.ctimeNs = sighting.found.ctimeNs := by rw [hstat]; rfl
      rcases hs.older.visited _ _ (hvisited sighting hsighting) with hlt | ⟨_, hdescribes⟩
      · exact hlt.ne (hctime.trans hfound)
      rcases (h.baseline previous hold).1.visited _ _ (hvisited sighting hsighting)
        with hlt | ⟨_, hprevious⟩
      · have hle := hs.baseline previous hold
        omega
      -- all three describe one file, and only the last digest can be another one
      have hsha : previous.sha256 = s.sha256 := by rw [hprevious, hdescribes]
      obtain ⟨digest, digest', hdigest, hdigest', hne⟩ :=
        digests_of_contentChanged (by rw [hprevious]) hstat hchanged
      exact hne (hdigests digest digest' (hsha ▸ hdigest) hdigest')
  | attributes previous state hnew hold haction' hseed hchanged =>
      obtain ⟨sighting, hsighting, ⟨_, hstat⟩, -⟩ := hfresh.entry state hnew
      rw [hs.seed, idSeed, if_pos (haction.trans haction'), hseed] at hseeds
      have hctime := ctimeNs_of_attrsSeed hseeds
      have hfound : state.ctimeNs = sighting.found.ctimeNs := by rw [hstat]; rfl
      rcases (h.baseline previous hold).1.visited _ _ (hvisited sighting hsighting)
        with hlt | ⟨_, hprevious⟩
      · have hle := hs.baseline previous hold
        omega
      rw [attributesChanged_of_stat (by rw [hprevious]) hstat] at hchanged
      cases hchanged

/-! ## The end of a scan -/

/-- What a scan that ends has for the path becomes the baseline. -/
lemma Followed.entry_finish {o : Observed Path} {scan : Scan Path} (h : Followed c watch path o)
    (hphase : o.state.phase = .scanning scan) {state : FileState}
    (hstate : Dict.get scan.snapshot path = some state) (now : Path → String → ℚ) :
    Older c path (o.finish c path scan now) state ∧ (∀ digest ∈ state.sha256, digest ≠ "") ∧
      ∃ id node, Visited path id node o.state.phase ∧ state.ctimeNs = node.ctimeNs := by
  have hfresh := h.phase
  rw [hphase] at hfresh
  obtain ⟨sighting, hsighting, ⟨_, hstat⟩, hhashed, hseen, hcurrent⟩ := hfresh.entry state hstate
  have hctime : state.ctimeNs = sighting.found.ctimeNs := by rw [hstat]; rfl
  refine ⟨⟨hctime ▸ hseen, hcurrent, ?_, ?_⟩, hhashed, sighting.id, sighting.found, ?_, hctime⟩
  · intro hmissed
    cases hmissed
  · exact fun _ _ hvisited => hvisited.elim
  · rw [hphase]
    exact ⟨sighting, hsighting, rfl, rfl⟩

/-- Without an entry for it, a watched path was empty at a moment of the scan. -/
lemma missed_of_complete {o : Observed Path} {scan : Scan Path}
    (hcomplete : complete (watch path) path o scan = true) (hwatched : watch path = true)
    (hempty : Dict.get scan.snapshot path = none) : o.missed = true := by
  simpa [complete, hempty, hwatched] using hcomplete

/-- An older record outlasts the end of a scan. -/
lemma Recorded.finish {o : Observed Path} {scan : Scan Path} {r : RawFileEvent} {s : FileState}
    (hs : Recorded c path o r s) (h : Followed c watch path o)
    (hphase : o.state.phase = .scanning scan)
    (hmissed : Dict.get scan.snapshot path = none → o.missed = true) :
    Recorded c path (o.finish c path scan now) r s := by
  refine ⟨hs.seed, hs.hashed, ⟨hs.older.seen, hs.older.current, ?_, ?_⟩, ?_, ?_⟩
  · intro hm
    cases hm
  · exact fun _ _ hvisited => hvisited.elim
  · intro state hstate
    obtain ⟨-, -, id, node, hvisited, hctime⟩ := h.entry_finish hphase hstate now
    rw [hctime]
    rcases hs.older.visited id node hvisited with hlt | ⟨_, hdescribes⟩
    · exact hlt.le
    · exact le_of_eq (by rw [hdescribes]; rfl)
  · intro hgone
    refine ⟨?_, fun _ _ hvisited => hvisited.elim, ?_⟩
    · rcases hgone with hdeleted | hempty
      · exact (hs.gone (Or.inl hdeleted)).outdated
      · exact hs.older.missed (hmissed hempty)
    · intro state hstate
      obtain ⟨-, -, id, node, hvisited, hctime⟩ := h.entry_finish hphase hstate now
      rw [hctime]
      rcases hgone with hdeleted | hempty
      · exact (hs.gone (Or.inl hdeleted)).visited id node hvisited
      · have hnone : Dict.get scan.snapshot path = none := hempty
        rw [show Dict.get scan.snapshot path = some state from hstate] at hnone
        cases hnone

/-- A record made from an entry of the scan that ends. -/
lemma recorded_of_new {o : Observed Path} {scan : Scan Path} {r : RawFileEvent}
    {state : FileState} (h : Followed c watch path o) (hphase : o.state.phase = .scanning scan)
    (hstate : Dict.get scan.snapshot path = some state) (hseed : r.idSeed = idSeed r.action state)
    (haction : r.action ≠ "file_deleted") :
    Recorded c path (o.finish c path scan now) r state := by
  obtain ⟨holder, hhashed, -⟩ := h.entry_finish hphase hstate now
  refine ⟨hseed, hhashed, holder, ?_, ?_⟩
  · intro state' hstate'
    have hsame : Dict.get scan.snapshot path = some state' := hstate'
    rw [hstate, Option.some.injEq] at hsame
    rw [hsame]
  · rintro (hdeleted | hempty)
    · exact absurd hdeleted haction
    · have hnone : Dict.get scan.snapshot path = none := hempty
      rw [hstate] at hnone
      cases hnone

/-- A record made from an entry that the scan that ends no longer has. -/
lemma recorded_of_gone {o : Observed Path} {scan : Scan Path} {r : RawFileEvent}
    {previous : FileState} (h : Followed c watch path o)
    (hold : Dict.get o.state.baseline path = some previous)
    (hempty : Dict.get scan.snapshot path = none) (hmissed : o.missed = true)
    (hseed : r.idSeed = idSeed r.action previous) :
    Recorded c path (o.finish c path scan now) r previous := by
  obtain ⟨holder, hhashed⟩ := h.baseline previous hold
  have hnone : ∀ state, Dict.get (o.finish c path scan now).state.baseline path ≠ some state := by
    intro state hstate
    have hsome : Dict.get scan.snapshot path = some state := hstate
    rw [hempty] at hsome
    cases hsome
  refine ⟨hseed, hhashed, ⟨holder.seen, holder.current, ?_, ?_⟩, ?_, ?_⟩
  · intro hm
    cases hm
  · exact fun _ _ hvisited => hvisited.elim
  · exact fun state hstate => absurd hstate (hnone state)
  · intro _
    exact ⟨holder.missed hmissed, fun _ _ hvisited => hvisited.elim,
      fun state hstate => absurd hstate (hnone state)⟩

/-- The scan that ends becomes the baseline, and its records are new. -/
lemma Followed.finish {o : Observed Path} {scan : Scan Path} (h : Followed c watch path o)
    (hphase : o.state.phase = .scanning scan)
    (hcomplete : complete (watch path) path o scan = true) (now : Path → String → ℚ) :
    Followed c watch path (o.finish c path scan now) := by
  have hnodup : (Dict.keys scan.snapshot).Nodup := by
    have hfresh := h.phase
    rw [hphase] at hfresh
    exact hfresh.nodup
  have hnone : watch path = false → Dict.get scan.snapshot path = none := by
    intro hunwatched
    have hunvisited := (h.unwatched hunwatched).2.2
    rw [hphase] at hunvisited
    exact hunvisited
  refine ⟨h.seen, hnodup, ?_, trivial, ?_, ?_, ?_⟩
  · intro state hstate
    obtain ⟨holder, hhashed, -⟩ := h.entry_finish hphase hstate now
    exact ⟨holder, hhashed⟩
  · intro r hr
    rcases List.mem_append.mp hr with hr | hr
    · obtain ⟨s, hs⟩ := h.built r hr
      have hwatched : watch path = true := by
        rcases hw : watch path with _ | _
        · rw [(h.unwatched hw).1] at hr
          exact absurd hr List.not_mem_nil
        · rfl
      exact ⟨s, hs.finish h hphase (missed_of_complete hcomplete hwatched)⟩
    · split_ifs at hr with hseeded
      · cases origin_of_mem_about h.nodup hnodup hr with
        | created state hstate hold haction hseed =>
            refine ⟨state, recorded_of_new h hphase hstate ?_ (by rw [haction]; decide)⟩
            rw [hseed, haction]
            rfl
        | modified previous state hstate hold haction hseed hchanged =>
            refine ⟨state, recorded_of_new h hphase hstate ?_ (by rw [haction]; decide)⟩
            rw [hseed, haction]
            rfl
        | attributes previous state hstate hold haction hseed hchanged =>
            refine ⟨state, recorded_of_new h hphase hstate ?_ (by rw [haction]; decide)⟩
            rw [hseed, haction]
            rfl
        | deleted previous hempty hold haction hseed =>
            have hwatched : watch path = true := by
              rcases hw : watch path with _ | _
              · rw [(h.unwatched hw).2.1] at hold
                cases hold
              · rfl
            refine ⟨previous, recorded_of_gone h hold hempty
              (missed_of_complete hcomplete hwatched hempty) ?_⟩
            rw [hseed, haction]
            rfl
      · exact absurd hr List.not_mem_nil
  · refine List.pairwise_append.mpr ⟨h.distinct, ?_, ?_⟩
    · split_ifs
      · exact (pairwise_about h.nodup hnodup).imp fun hne heq => absurd heq hne
      · exact List.Pairwise.nil
    · intro r hr r' hr'
      split_ifs at hr' with hseeded
      · exact h.seed_ne hphase hr hr'
      · exact absurd hr' List.not_mem_nil
  · intro hunwatched
    obtain ⟨hbuilt, hempty, -⟩ := h.unwatched hunwatched
    refine ⟨?_, hnone hunwatched, trivial⟩
    show (o.built ++
      if o.state.seeded then about c path now o.state.baseline scan.snapshot else []) = []
    rw [hbuilt, List.nil_append, about_eq h.nodup hnodup, hnone hunwatched, hempty]
    simp

/-! ## Every step keeps the path followed -/

lemma Followed.observe {o o' : Observed Path} {a : Action Path} (h : Followed c watch path o)
    (hstep : observe c watch path o a = some o') : Followed c watch path o' := by
  cases a with
  | tick now =>
      rw [Integrity.observe, Option.some.injEq] at hstep
      rw [← hstep]
      exact h.rephase rfl rfl Or.inl (fun _ _ hvisited => Or.inl hvisited) h.phase
        fun hunwatched => (h.unwatched hunwatched).2.2
  | change id node =>
      dsimp only [Integrity.observe] at hstep
      split_ifs at hstep with hlater
      rw [← Option.some.inj hstep]
      exact h.move (advances_of_later rfl (Or.inl rfl) hlater)
  | place other id node =>
      dsimp only [Integrity.observe] at hstep
      split_ifs at hstep with hlater
      rw [← Option.some.inj hstep]
      refine h.move (advances_of_later rfl ?_ hlater)
      by_cases hpath : path = other
      · refine Or.inr ?_
        show Function.update o.state.fs.entries other (some id) path = some id
        rw [hpath, Function.update_self]
      · exact Or.inl (Function.update_of_ne hpath _ _)
  | remove other =>
      rw [Integrity.observe, Option.some.injEq] at hstep
      rw [← hstep]
      refine h.move ?_
      by_cases hpath : path = other
      · refine Or.inr ?_
        intro id node hnode
        simp [FileSystem.lstat, hpath] at hnode
      · exact Or.inl (by simp [FileSystem.lstat, Function.update_of_ne hpath])
  | beginScan =>
      obtain ⟨s, hs, rfl⟩ := Option.map_eq_some_iff.mp hstep
      rw [step] at hs
      split at hs
      · rw [← Option.some.inj hs]
        exact h.beginScan
      · cases hs
  | lstat other =>
      rw [Integrity.observe] at hstep
      split_ifs at hstep with hwatch
      obtain ⟨s, hs, rfl⟩ := Option.map_eq_some_iff.mp hstep
      rw [step] at hs
      split at hs
      · rename_i scan hphase
        split_ifs at hs
        rw [← Option.some.inj hs]
        exact h.snapshotFile hphase hwatch
      · cases hs
  | hash =>
      obtain ⟨s, hs, rfl⟩ := Option.map_eq_some_iff.mp hstep
      rw [step] at hs
      split at hs
      · rename_i scan pending hphase
        rw [← Option.some.inj hs]
        exact h.completeHash hphase
      · cases hs
  | interrupt =>
      obtain ⟨s, hs, rfl⟩ := Option.map_eq_some_iff.mp hstep
      rw [step] at hs
      split at hs
      · rw [← Option.some.inj hs]
        exact h.interrupt
      · cases hs
  | finish now =>
      rw [Integrity.observe] at hstep
      split at hstep
      · rename_i scan hphase
        split_ifs at hstep with hcomplete
        rw [← Option.some.inj hstep]
        exact h.finish hphase hcomplete now
      · cases hstep

lemma followed_observed (clock : ℕ) (fs : FileSystem Path) :
    Followed c watch path (observed clock fs path) where
  seen := by
    intro id node hnode
    have hnode' : fs.lstat path = some (id, node) := hnode
    simp [observed, ctimesAt, hnode']
  nodup := List.nodup_nil
  baseline := by
    intro entry hentry
    cases hentry
  phase := trivial
  built := fun _ hr => absurd hr List.not_mem_nil
  distinct := List.Pairwise.nil
  unwatched := fun _ => ⟨rfl, rfl, trivial⟩

omit [DecidableEq Path] in
/-- The clock is in no seed, and decides about no record. -/
lemma idSeed_raw (occurredAt occurredAt' : ℚ) (s : FileState) (action seed : String)
    (severity : ℕ) :
    (raw c occurredAt path s action severity seed).map (fun r => r.idSeed)
      = (raw c occurredAt' path s action severity seed).map fun r => r.idSeed := by
  unfold raw RawFileEvent.build
  split_ifs with hvalid hvalid' hvalid'
  · rfl
  · exact absurd ⟨hvalid.1, hvalid.2, hvalid.3, hvalid.4, hvalid.5, hvalid.6⟩ hvalid'
  · exact absurd ⟨hvalid'.1, hvalid'.2, hvalid'.3, hvalid'.4, hvalid'.5, hvalid'.6⟩ hvalid
  · rfl

/-- Diffing two snapshots again gives the same seeds. -/
lemma idSeeds_diff (now now' : Path → String → ℚ) (old new : Snapshot Path) :
    (diff c now old new).map (fun r => r.idSeed)
      = (diff c now' old new).map fun r => r.idSeed := by
  have hentry : ∀ entry : Path × FileState,
      (diffEntry c now old entry).map (Option.map fun r => r.idSeed)
        = (diffEntry c now' old entry).map (Option.map fun r => r.idSeed) := by
    intro entry
    unfold diffEntry
    split
    · exact congrArg (fun r => [r]) (idSeed_raw _ _ _ _ _ _)
    · rw [List.map_append, List.map_append]
      congr 1
      · split_ifs
        · exact congrArg (fun r => [r]) (idSeed_raw _ _ _ _ _ _)
        · rfl
      · split_ifs
        · exact congrArg (fun r => [r]) (idSeed_raw _ _ _ _ _ _)
        · rfl
  rw [diff, diff, ← List.reduceOption_map, ← List.reduceOption_map, List.map_append,
    List.map_append, List.map_flatMap, List.map_flatMap, List.map_map, List.map_map]
  congr 2
  · exact List.flatMap_congr fun entry _ => hentry entry
  · exact List.map_congr_left fun entry _ => idSeed_raw _ _ _ _ _ _

/-- **Going back to an earlier state is a new event.**  In every run of scans and of operations on
the files in which whatever is done to the file at the path gives it a ctime above every ctime the
path has shown, and in which no scan is cut short, any two records built for the path with one
action have different seeds, wherever the steps of the scans and the operations interleave; and
diffing two snapshots again yields the same seeds. -/
theorem idSeeds_distinct (c : Collector Path) (watch : Path → Bool) (path : Path) (clock : ℕ)
    (fs : FileSystem Path) (o : Observed Path)
    (h : Reachable (observe c watch path) (observed clock fs path) o) :
    (o.built.Pairwise fun r r' => r.action = r'.action → r.idSeed ≠ r'.idSeed) ∧
      ∀ now now' old new, (diff c now old new).map (fun r => r.idSeed)
        = (diff c now' old new).map fun r => r.idSeed := by
  have hfollowed : Followed c watch path o :=
    h.invariant (followed_observed clock fs) fun _ _ _ hs hstep => hs.observe hstep
  exact ⟨hfollowed.distinct, idSeeds_diff⟩

end Invariant

/-- The content written at this moment, `97` or `98`. -/
def rewritten (content : UInt8) (ctimeNs : ℕ) (h : ctimeNs < 10 ^ 30) : Node :=
  { content := [content], mtimeNs := 0, ctimeNs := ctimeNs, mode := 420, ctimeNs_lt := h
    mode_lt := passwdMode_lt }

/-- A line is added, taken out again and added once more, with a scan after each. -/
def backAndForth : List (Action Unit) :=
  [.beginScan, .lstat (), .hash, .finish fun _ _ => 5,
    .change passwdId (rewritten 98 2000 (by decide)),
    .beginScan, .lstat (), .hash, .finish fun _ _ => 6,
    .change passwdId (rewritten 97 3000 (by decide)),
    .beginScan, .lstat (), .hash, .finish fun _ _ => 7,
    .change passwdId (rewritten 98 4000 (by decide)),
    .beginScan, .lstat (), .hash, .finish fun _ _ => 8]

theorem idSeeds_distinct_backAndForth :
    ∃ o, run (observe passwdCollector (fun _ => true) ()) (observed 5000000000 passwdFs ())
        backAndForth = some o ∧
      (o.built.map fun r => r.action) = ["file_modified", "file_modified", "file_modified"] ∧
      o.built.Pairwise fun r r' => r.idSeed ≠ r'.idSeed := by
  have hrun : (run (observe passwdCollector (fun _ => true) ()) (observed 5000000000 passwdFs ())
      backAndForth).map (fun o => o.built.map fun r => r.action)
        = some ["file_modified", "file_modified", "file_modified"] := by
    decide +kernel
  obtain ⟨o, ho, hactions⟩ := Option.map_eq_some_iff.mp hrun
  obtain ⟨hdistinct, -⟩ := idSeeds_distinct passwdCollector (fun _ => true) () 5000000000 passwdFs o
    ⟨backAndForth, ho⟩
  refine ⟨o, ho, hactions, hdistinct.imp_of_mem ?_⟩
  intro r r' hr hr' hne
  have hmodified : ∀ r ∈ o.built, r.action = "file_modified" := by
    intro r hr
    have hmem := List.mem_map_of_mem (f := fun r : RawFileEvent => r.action) hr
    rw [hactions] at hmem
    simpa using hmem
  exact hne ((hmodified r hr).trans (hmodified r' hr').symm)

end Sentinel.Integrity
