import Sentinel.Integrity.StatCache

/-!
# The walk over the watched trees

`_iter_files`, `_walk` and `_scan` of `collectors/integrity.py`, for a scan during which nothing
changes.  A directory is listed in the order of `os.scandir`, which may be any order; the walk
yields the files of a directory before it enters the directories below.  A symbolic link to a
directory is neither a file of the walk nor entered, so it is left out of a listing, and a path that
leads through one is not a path of the tree.  Paths are host-native, as lists of components.

`reached` says which files a scan records: the first `max_files` regular files of the walk, however
often the walk comes by them (`keys_scan`).  A complete scan is one run of the steps of
`Integrity.step` (`scan_is_run`).
-/

namespace Sentinel.Integrity

open StepSystem

/-! ## Trees -/

abbrev HostPath := List String

/-- The entries of a directory, in the order of `os.scandir`; what is not a directory is a file,
regular or not. -/
inductive Listing where
  | nil
  | file (name : String) (id : FileId) (rest : Listing)
  | dir (name : String) (entries : Listing) (rest : Listing)

inductive Entry where
  | file (id : FileId)
  | dir (entries : Listing)

namespace Listing

def names : Listing → List String
  | nil => []
  | file name _ rest => name :: rest.names
  | dir name _ rest => name :: rest.names

/-- No directory has two entries of one name. -/
def Distinct : Listing → Prop
  | nil => True
  | file name _ rest => name ∉ rest.names ∧ rest.Distinct
  | dir name entries rest => name ∉ rest.names ∧ entries.Distinct ∧ rest.Distinct

instance decidableDistinct : ∀ listing : Listing, Decidable listing.Distinct
  | nil => isTrue trivial
  | file _ _ rest =>
      have := decidableDistinct rest
      inferInstanceAs (Decidable (_ ∧ _))
  | dir _ entries rest =>
      have := decidableDistinct entries
      have := decidableDistinct rest
      inferInstanceAs (Decidable (_ ∧ _ ∧ _))

def entry (name : String) : Listing → Option Entry
  | nil => none
  | file name' id rest => if name' = name then some (.file id) else rest.entry name
  | dir name' entries rest => if name' = name then some (.dir entries) else rest.entry name

def lookup : HostPath → Listing → Option Entry
  | [], listing => some (.dir listing)
  | name :: path, listing =>
      match listing.entry name with
      | none => none
      | some (.file id) => if path = [] then some (.file id) else none
      | some (.dir entries) => lookup path entries

/-- `filenames` of `os.walk`. -/
def filenames : Listing → List String
  | nil => []
  | file name _ rest => name :: rest.filenames
  | dir _ _ rest => rest.filenames

/-- The files in the directories of a listing, one directory after the other. -/
def descend (current : HostPath) : Listing → List HostPath
  | nil => []
  | file _ _ rest => rest.descend current
  | dir name entries rest =>
      (entries.filenames.map fun filename => current ++ [name] ++ [filename])
        ++ entries.descend (current ++ [name]) ++ rest.descend current

/-- `_walk`. -/
def walk (recursive : Bool) (directory : HostPath) (entries : Listing) : List HostPath :=
  (entries.filenames.map fun filename => directory ++ [filename])
    ++ if recursive then entries.descend directory else []

end Listing

/-- A file system at rest; sizes and times are what `stat` can return. -/
structure Tree where
  root : Listing
  nodes : FileId → Node
  distinct : root.Distinct
  size_lt : ∀ id, (nodes id).content.length < 2 ^ 64
  mtimeNs_lt : ∀ id, (nodes id).mtimeNs.natAbs < 10 ^ 30

def Tree.fs (tree : Tree) : FileSystem HostPath where
  entries path :=
    match tree.root.lookup path with
    | some (.file id) => some id
    | _ => none
  nodes := tree.nodes

/-- The configured paths. -/
structure Watch where
  paths : List HostPath
  recursive : Bool := true

/-- `_iter_files`. -/
def iterFiles (recursive : Bool) (tree : Tree) (root : HostPath) : List HostPath :=
  match tree.root.lookup root with
  | none => []
  | some (.file id) => if (tree.nodes id).regular then [root] else []
  | some (.dir entries) => entries.walk recursive root

def found (watch : Watch) (tree : Tree) : List HostPath :=
  watch.paths.flatMap (iterFiles watch.recursive tree)

/-! ## Scans -/

/-- A complete scan: when it began, and the tree it walked. -/
structure Poll where
  startNs : ℕ
  tree : Tree

section Scans

variable (c : Collector HostPath)

/-- `_snapshot_file`, of a file that nobody touches meanwhile. -/
def snapshotOf (fs : FileSystem HostPath) (previous : Snapshot HostPath) (startNs : ℕ)
    (path : HostPath) : Option FileState :=
  match fs.lstat path with
  | none => none
  | some (id, node) =>
      if !node.regular then none
      else
        let state := stateOf id node startNs
        match (Dict.get previous path).filter
            fun previous => previous.cacheable && previous.sameStat state with
        | some previous => some { state with sha256 := previous.sha256 }
        | none =>
            if node.content.length ≤ c.maxHashBytes
            then some
              { state with sha256 := hashFile c.sha256 c.maxHashBytes id (fs.lstat path) }
            else some state

/-- The loop of `_scan`, which returns as soon as the snapshot has `max_files` entries. -/
def scanFiles (fs : FileSystem HostPath) (previous : Snapshot HostPath) (startNs : ℕ) :
    List HostPath → Snapshot HostPath → Snapshot HostPath
  | [], snapshot => snapshot
  | path :: paths, snapshot =>
      if c.maxFiles ≤ snapshot.length then snapshot
      else
        scanFiles fs previous startNs paths
          (match snapshotOf c fs previous startNs path with
          | none => snapshot
          | some state => Dict.set snapshot path state)

/-- `_scan`. -/
def scan (watch : Watch) (previous : Snapshot HostPath) (poll : Poll) : Snapshot HostPath :=
  scanFiles c poll.tree.fs previous poll.startNs (found watch poll.tree) []

/-- `_baseline` after these scans. -/
def baselineAfter (watch : Watch) (polls : List Poll) : Snapshot HostPath :=
  polls.foldl (scan c watch) []

end Scans

/-! ## What the walk finds -/

namespace Listing

lemma mem_names_of_entry {name : String} {e : Entry} :
    ∀ {listing : Listing}, listing.entry name = some e → name ∈ listing.names
  | nil, h => by cases h
  | file name' _ rest, h => by
      rw [entry] at h
      split_ifs at h with hname
      · exact hname ▸ List.mem_cons_self
      · exact List.mem_cons_of_mem _ (mem_names_of_entry h)
  | dir name' _ rest, h => by
      rw [entry] at h
      split_ifs at h with hname
      · exact hname ▸ List.mem_cons_self
      · exact List.mem_cons_of_mem _ (mem_names_of_entry h)

lemma mem_filenames_iff {name : String} : ∀ {listing : Listing}, listing.Distinct →
    (name ∈ listing.filenames ↔ ∃ id, listing.entry name = some (.file id))
  | nil, _ => by simp [filenames, entry]
  | file name' id rest, h => by
      rw [filenames, entry, List.mem_cons]
      by_cases hname : name' = name
      · rw [if_pos hname]
        exact iff_of_true (Or.inl hname.symm) ⟨id, rfl⟩
      · rw [if_neg hname, ← mem_filenames_iff h.2]
        exact or_iff_right (Ne.symm hname)
  | dir name' entries rest, h => by
      rw [filenames, entry, mem_filenames_iff h.2.2]
      split_ifs with hname
      · constructor
        · rintro ⟨id, hid⟩
          exact absurd (mem_names_of_entry hid) (hname ▸ h.1)
        · rintro ⟨id, hid⟩
          cases hid
      · exact Iff.rfl

/-- The entries of a directory are entered with distinct names too. -/
lemma distinct_of_entry {name : String} {entries : Listing} : ∀ {listing : Listing},
    listing.Distinct → listing.entry name = some (.dir entries) → entries.Distinct
  | nil, _, h => by cases h
  | file name' _ rest, hdistinct, h => by
      rw [entry] at h
      split_ifs at h with hname
      · cases h
      · exact distinct_of_entry hdistinct.2 h
  | dir name' entries' rest, hdistinct, h => by
      rw [entry] at h
      split_ifs at h
      · rw [Option.some.injEq, Entry.dir.injEq] at h
        exact h ▸ hdistinct.2.1
      · exact distinct_of_entry hdistinct.2.2 h

lemma distinct_of_lookup {entries : Listing} : ∀ {path : HostPath} {listing : Listing},
    listing.Distinct → listing.lookup path = some (.dir entries) → entries.Distinct
  | [], listing, hdistinct, h => by
      rw [lookup, Option.some.injEq, Entry.dir.injEq] at h
      exact h ▸ hdistinct
  | name :: path, listing, hdistinct, h => by
      rw [lookup] at h
      split at h
      · cases h
      · split_ifs at h
        cases h
      · rename_i entries' hentry
        exact distinct_of_lookup (distinct_of_entry hdistinct hentry) h

lemma lookup_append (rest : HostPath) : ∀ (path : HostPath) (listing : Listing),
    listing.lookup (path ++ rest) =
      match listing.lookup path with
      | none => none
      | some (.file id) => if rest = [] then some (.file id) else none
      | some (.dir entries) => entries.lookup rest
  | [], listing => rfl
  | name :: path, listing => by
      rw [List.cons_append, lookup, lookup]
      cases hentry : listing.entry name with
      | none => rfl
      | some e =>
          cases e with
          | file id =>
              cases path with
              | nil => rfl
              | cons _ _ => rfl
          | dir entries => exact lookup_append rest path entries

/-- The walk below a directory finds the files two or more levels down. -/
lemma mem_descend_iff {path : HostPath} : ∀ {listing : Listing} {current : HostPath},
    listing.Distinct →
    (path ∈ listing.descend current ↔ ∃ rel id, path = current ++ rel ∧ 2 ≤ rel.length ∧
      listing.lookup rel = some (.file id))
  | nil, current, _ => by
      refine iff_of_false (List.not_mem_nil) ?_
      rintro ⟨rel, id, -, -, h⟩
      cases rel with
      | nil => cases h
      | cons name rel => cases h
  | file name' id' rest, current, hdistinct => by
      rw [descend, mem_descend_iff hdistinct.2]
      refine exists_congr fun rel => exists_congr fun id => and_congr_right fun _ =>
        and_congr_right fun hlong => ?_
      match rel, hlong with
      | name :: next :: rel, hlong =>
          rw [lookup, lookup, entry]
          by_cases hname : name' = name
          · have hnone : rest.entry name = none := by
              rcases h : rest.entry name with _ | e
              · rfl
              · exact absurd (mem_names_of_entry h) (hname ▸ hdistinct.1)
            rw [if_pos hname, hnone]
            simp
          · rw [if_neg hname]
  | dir name' entries rest, current, hdistinct => by
      rw [descend, List.mem_append, List.mem_append, mem_descend_iff hdistinct.2.1,
        mem_descend_iff hdistinct.2.2]
      have hhere : ∀ (rel : HostPath), (dir name' entries rest).lookup (name' :: rel)
          = entries.lookup rel := by
        intro rel
        rw [lookup, entry, if_pos rfl]
      constructor
      · rintro ((h | ⟨rel, id, rfl, hlong, hrel⟩) | ⟨rel, id, rfl, hlong, hrel⟩)
        · obtain ⟨filename, hfile, rfl⟩ := List.mem_map.mp h
          obtain ⟨id, hid⟩ := (mem_filenames_iff hdistinct.2.1).mp hfile
          refine ⟨[name', filename], id, by simp, le_refl 2, ?_⟩
          rw [hhere, lookup, hid]
          rfl
        · refine ⟨name' :: rel, id, by simp, ?_, (hhere rel).trans hrel⟩
          exact le_trans hlong (Nat.le_succ _)
        · refine ⟨rel, id, rfl, hlong, ?_⟩
          match rel, hlong with
          | name :: next :: rel, hlong =>
              have hname : name' ≠ name := by
                rintro rfl
                rw [lookup] at hrel
                rcases h : rest.entry name' with _ | e
                · rw [h] at hrel
                  cases hrel
                · exact hdistinct.1 (mem_names_of_entry h)
              rw [lookup, entry, if_neg hname]
              rw [lookup] at hrel
              exact hrel
      · rintro ⟨rel, id, rfl, hlong, hrel⟩
        match rel, hlong with
        | name :: next :: rel, hlong =>
            by_cases hname : name' = name
            · subst hname
              rw [hhere] at hrel
              refine Or.inl ?_
              cases rel with
              | nil =>
                  refine Or.inl (List.mem_map.mpr ⟨next, ?_, by simp⟩)
                  rw [mem_filenames_iff hdistinct.2.1]
                  rw [lookup] at hrel
                  split at hrel
                  · cases hrel
                  · rename_i id' hentry
                    exact ⟨id', hentry⟩
                  · cases hrel
              | cons after rel =>
                  exact Or.inr ⟨next :: after :: rel, id, by simp, Nat.le_add_left _ _, hrel⟩
            · refine Or.inr ⟨name :: next :: rel, id, rfl, hlong, ?_⟩
              rw [lookup, entry, if_neg hname] at hrel
              rw [lookup]
              exact hrel

lemma mem_walk_iff {recursive : Bool} {directory path : HostPath} {entries : Listing}
    (hdistinct : entries.Distinct) :
    path ∈ entries.walk recursive directory ↔ ∃ rel id, path = directory ++ rel ∧
      (recursive = true ∨ rel.length ≤ 1) ∧ entries.lookup rel = some (.file id) := by
  have hone : ∀ filename, (∃ id, entries.lookup [filename] = some (.file id)) ↔
      filename ∈ entries.filenames := by
    intro filename
    rw [mem_filenames_iff hdistinct]
    refine exists_congr fun id => ?_
    rw [lookup]
    rcases entries.entry filename with _ | ⟨id'⟩ | entries'
    · rfl
    · rfl
    · simp [lookup]
  rw [walk, List.mem_append, List.mem_map]
  constructor
  · rintro (⟨filename, hfile, rfl⟩ | h)
    · obtain ⟨id, hid⟩ := (hone filename).mpr hfile
      exact ⟨[filename], id, rfl, Or.inr (le_refl 1), hid⟩
    · split_ifs at h with hrecursive
      · obtain ⟨rel, id, hpath, -, hrel⟩ := (mem_descend_iff hdistinct).mp h
        exact ⟨rel, id, hpath, Or.inl hrecursive, hrel⟩
      · exact absurd h List.not_mem_nil
  · rintro ⟨rel, id, rfl, hdepth, hrel⟩
    match rel with
    | [] => cases hrel
    | [filename] => exact Or.inl ⟨filename, (hone filename).mp ⟨id, hrel⟩, rfl⟩
    | name :: next :: rel =>
        have hrecursive : recursive = true := by
          rcases hdepth with h | h
          · exact h
          · exact absurd h (by simp)
        rw [if_pos hrecursive, mem_descend_iff hdistinct]
        exact Or.inr ⟨_, id, rfl, Nat.le_add_left _ _, hrel⟩

end Listing

/-- A path is watched if it is a configured one or is below it, and not too deep. -/
def Watch.Covers (watch : Watch) (path : HostPath) : Prop :=
  ∃ root ∈ watch.paths, ∃ rel, path = root ++ rel ∧ (watch.recursive = true ∨ rel.length ≤ 1)

lemma Tree.lstat_eq_some_iff {tree : Tree} {path : HostPath} {id : FileId} {node : Node} :
    tree.fs.lstat path = some (id, node) ↔
      tree.root.lookup path = some (.file id) ∧ node = tree.nodes id := by
  rcases hlookup : tree.root.lookup path with _ | ⟨id'⟩ | entries
  · simp [FileSystem.lstat, fs, hlookup]
  · simp only [FileSystem.lstat, fs, hlookup, Option.map_some, Option.some.injEq, Prod.mk.injEq,
      Entry.file.injEq]
    constructor
    · rintro ⟨rfl, rfl⟩
      exact ⟨rfl, rfl⟩
    · rintro ⟨rfl, rfl⟩
      exact ⟨rfl, rfl⟩
  · simp [FileSystem.lstat, fs, hlookup]

/-- The walk finds the watched regular files. -/
lemma mem_found_iff {watch : Watch} {tree : Tree} {path : HostPath} {id : FileId} {node : Node}
    (hfile : tree.fs.lstat path = some (id, node)) (hregular : node.regular = true) :
    path ∈ found watch tree ↔ watch.Covers path := by
  obtain ⟨hlookup, rfl⟩ := Tree.lstat_eq_some_iff.mp hfile
  rw [found, List.mem_flatMap]
  refine exists_congr fun root => and_congr_right fun _ => ?_
  rw [iterFiles]
  constructor
  · intro h
    split at h
    · exact absurd h List.not_mem_nil
    · split_ifs at h
      · exact ⟨[], by rw [List.mem_singleton.mp h, List.append_nil], Or.inr (Nat.zero_le 1)⟩
      · exact absurd h List.not_mem_nil
    · rename_i entries hentries
      rw [Listing.mem_walk_iff (Listing.distinct_of_lookup tree.distinct hentries)] at h
      obtain ⟨rel, -, hpath, hdepth, -⟩ := h
      exact ⟨rel, hpath, hdepth⟩
  · rintro ⟨rel, rfl, hdepth⟩
    rw [Listing.lookup_append] at hlookup
    split at hlookup
    · cases hlookup
    · split_ifs at hlookup with hrel
      rw [Option.some.injEq, Entry.file.injEq] at hlookup
      rw [hrel, List.append_nil, hlookup]
      simp [hregular]
    · rename_i entries hentries
      exact (Listing.mem_walk_iff (Listing.distinct_of_lookup tree.distinct hentries)).mpr
        ⟨rel, id, rfl, hdepth, hlookup⟩

/-! ## What a scan records -/

/-- A regular file is at the path. -/
def Tree.isRegular (tree : Tree) (path : HostPath) : Bool :=
  match tree.fs.lstat path with
  | none => false
  | some (_, node) => node.regular

lemma Tree.isRegular_iff {tree : Tree} {path : HostPath} :
    tree.isRegular path = true ↔
      ∃ id node, tree.fs.lstat path = some (id, node) ∧ node.regular = true := by
  unfold isRegular
  rcases tree.fs.lstat path with _ | ⟨id, node⟩
  · simp
  · simp

/-- The paths a scan gets to: the first `max_files` regular files of the walk. -/
def reached (maxFiles : ℕ) (watch : Watch) (tree : Tree) : List HostPath :=
  (((found watch tree).filter tree.isRegular).eraseDups).take maxFiles

section Snapshots

variable {c : Collector HostPath} {tree : Tree} {previous : Snapshot HostPath} {startNs : ℕ}

lemma isSome_snapshotOf (c : Collector HostPath) (tree : Tree) (previous : Snapshot HostPath)
    (startNs : ℕ) (path : HostPath) :
    (snapshotOf c tree.fs previous startNs path).isSome = tree.isRegular path := by
  unfold snapshotOf Tree.isRegular
  rcases tree.fs.lstat path with _ | ⟨id, node⟩
  · rfl
  · dsimp only
    cases node.regular with
    | false => rfl
    | true =>
        rw [if_neg (by decide)]
        split
        · rfl
        · split_ifs
          · rfl
          · rfl

/-- A file's fingerprint is its stat, and the digest of its last entry, if that is to be trusted and
has the same stat, or a fresh one. -/
lemma snapshotOf_cases {path : HostPath} {state : FileState}
    (h : snapshotOf c tree.fs previous startNs path = some state) :
    ∃ id node, tree.fs.lstat path = some (id, node) ∧ node.regular = true ∧
      state = { stateOf id node startNs with sha256 := state.sha256 } ∧
      ((∃ last, Dict.get previous path = some last ∧ last.cacheable = true ∧
          last.sameStat (stateOf id node startNs) = true ∧ state.sha256 = last.sha256) ∨
        ((∀ last, Dict.get previous path = some last → last.cacheable = true →
            last.sameStat (stateOf id node startNs) = false) ∧
          state.sha256 = freshDigest c node)) := by
  unfold snapshotOf at h
  split at h
  case h_1 => cases h
  case h_2 id node hnode =>
    split at h
    case isTrue => cases h
    case isFalse hregular =>
      refine ⟨id, node, hnode, by simpa using hregular, ?_⟩
      dsimp only at h
      split at h
      case h_1 last hcached =>
        obtain ⟨hlast, hreuse⟩ := Option.filter_eq_some_iff.mp hcached
        rw [Bool.and_eq_true] at hreuse
        rw [Option.some.injEq] at h
        subst h
        exact ⟨rfl, Or.inl ⟨last, hlast, hreuse.1, hreuse.2, rfl⟩⟩
      case h_2 hcached =>
        have hstale : ∀ last, Dict.get previous path = some last → last.cacheable = true →
            last.sameStat (stateOf id node startNs) = false := by
          intro last hlast hcacheable
          rw [hlast, Option.filter_eq_none_iff] at hcached
          simpa [hcacheable] using hcached last rfl
        split_ifs at h with hlength
        · rw [Option.some.injEq] at h
          subst h
          exact ⟨rfl, Or.inr ⟨hstale, by rw [hnode, hashFile_eq]⟩⟩
        · rw [Option.some.injEq] at h
          subst h
          refine ⟨rfl, Or.inr ⟨hstale, ?_⟩⟩
          rw [freshDigest, if_neg fun hplain => hlength hplain.2.2]
          rfl

/-- What a scan adds to the files it has. -/
lemma keys_scanFiles : ∀ (paths : List HostPath) (snapshot : Snapshot HostPath),
    Dict.keys (scanFiles c tree.fs previous startNs paths snapshot) = Dict.keys snapshot
      ++ (((paths.filter tree.isRegular).filter
        fun path => path ∉ Dict.keys snapshot).eraseDups).take (c.maxFiles - snapshot.length)
  | [], snapshot => by simp [scanFiles]
  | path :: paths, snapshot => by
      rw [scanFiles]
      split_ifs with hfull
      · rw [Nat.sub_eq_zero_of_le hfull, List.take_zero, List.append_nil]
      have hregular := isSome_snapshotOf c tree previous startNs path
      rw [keys_scanFiles paths]
      cases hstate : snapshotOf c tree.fs previous startNs path with
      | none =>
          rw [hstate, Option.isSome_none] at hregular
          rw [List.filter_cons_of_neg (by rw [← hregular]; decide)]
      | some state =>
          rw [hstate, Option.isSome_some] at hregular
          rw [List.filter_cons_of_pos hregular.symm]
          dsimp only
          by_cases hmem : path ∈ Dict.keys snapshot
          · have hkeys : Dict.keys (Dict.set snapshot path state) = Dict.keys snapshot := by
              rw [Dict.keys_set, if_pos hmem]
            have hlength : (Dict.set snapshot path state).length = snapshot.length := by
              have := congrArg List.length hkeys
              simpa [Dict.keys] using this
            rw [List.filter_cons_of_neg (by simpa using hmem), hkeys, hlength]
          · have hkeys : Dict.keys (Dict.set snapshot path state)
                = Dict.keys snapshot ++ [path] := by
              rw [Dict.keys_set, if_neg hmem]
            have hlength : (Dict.set snapshot path state).length = snapshot.length + 1 := by
              have := congrArg List.length hkeys
              simpa [Dict.keys] using this
            have hrest : c.maxFiles - snapshot.length
                = c.maxFiles - (snapshot.length + 1) + 1 := by omega
            have hfresh : (paths.filter tree.isRegular).filter
                  (fun other => other ∉ Dict.keys snapshot ++ [path])
                = ((paths.filter tree.isRegular).filter
                    fun other => other ∉ Dict.keys snapshot).filter
                  fun other => !other == path := by
              rw [List.filter_filter (l := paths.filter tree.isRegular)]
              refine List.filter_congr fun other _ => ?_
              by_cases heq : other = path
              · simp [heq]
              · simp [heq]
            rw [List.filter_cons_of_pos (by simpa using hmem), List.eraseDups_cons, hkeys, hlength,
              hrest, List.take_succ_cons, List.append_assoc, List.singleton_append, hfresh]

lemma nodup_keys_scanFiles : ∀ (paths : List HostPath) (snapshot : Snapshot HostPath),
    (Dict.keys snapshot).Nodup →
    (Dict.keys (scanFiles c tree.fs previous startNs paths snapshot)).Nodup
  | [], _, h => h
  | path :: paths, snapshot, h => by
      rw [scanFiles]
      split_ifs
      · exact h
      refine nodup_keys_scanFiles paths _ ?_
      split
      · exact h
      · exact Dict.nodup_keys_set h _ _

/-- Every entry of a snapshot is the fingerprint of its file. -/
lemma snapshotOf_of_mem_scanFiles (entry : HostPath × FileState) :
    ∀ (paths : List HostPath) (snapshot : Snapshot HostPath),
    (entry ∈ snapshot → snapshotOf c tree.fs previous startNs entry.1 = some entry.2) →
    entry ∈ scanFiles c tree.fs previous startNs paths snapshot →
    snapshotOf c tree.fs previous startNs entry.1 = some entry.2
  | [], _, hold, h => hold h
  | path :: paths, snapshot, hold, h => by
      rw [scanFiles] at h
      split_ifs at h
      · exact hold h
      refine snapshotOf_of_mem_scanFiles entry paths _ ?_ h
      intro hentry
      split at hentry
      · exact hold hentry
      · rename_i state hstate
        rcases Dict.mem_set hentry with rfl | hentry
        · exact hstate
        · exact hold hentry

/-- A scan records the files it gets to, in the order of the walk. -/
lemma keys_scan (c : Collector HostPath) (watch : Watch) (previous : Snapshot HostPath)
    (poll : Poll) :
    Dict.keys (scan c watch previous poll) = reached c.maxFiles watch poll.tree := by
  rw [scan, keys_scanFiles]
  simp [Dict.keys, reached]

variable {watch : Watch} {poll : Poll}

lemma nodup_keys_scan : (Dict.keys (scan c watch previous poll)).Nodup :=
  nodup_keys_scanFiles _ _ List.nodup_nil

lemma get_scan_eq_some_iff {path : HostPath} {state : FileState} :
    Dict.get (scan c watch previous poll) path = some state ↔
      path ∈ reached c.maxFiles watch poll.tree ∧
        snapshotOf c poll.tree.fs previous poll.startNs path = some state := by
  have hentry : ∀ state', Dict.get (scan c watch previous poll) path = some state' →
      snapshotOf c poll.tree.fs previous poll.startNs path = some state' := by
    intro state' hstate'
    exact snapshotOf_of_mem_scanFiles (path, state') _ _ (fun h => by cases h)
      (Dict.mem_of_get hstate')
  rw [← keys_scan c watch previous poll]
  constructor
  · intro hstate
    exact ⟨List.mem_map_of_mem (Dict.mem_of_get hstate), hentry state hstate⟩
  · rintro ⟨hkey, hstate⟩
    rcases hget : Dict.get (scan c watch previous poll) path with _ | state'
    · exact absurd hkey (Dict.get_eq_none_iff.mp hget)
    · exact (hentry state' hget).symm.trans hstate

lemma get_scan_eq_none_iff {path : HostPath} :
    Dict.get (scan c watch previous poll) path = none ↔
      path ∉ reached c.maxFiles watch poll.tree := by
  rw [Dict.get_eq_none_iff, keys_scan]

end Snapshots

lemma baselineAfter_concat (c : Collector HostPath) (watch : Watch) (polls : List Poll)
    (poll : Poll) :
    baselineAfter c watch (polls ++ [poll]) = scan c watch (baselineAfter c watch polls) poll := by
  rw [baselineAfter, List.foldl_concat]
  rfl

/-! ## Scans as runs -/

section Runs

variable {c : Collector HostPath} {g : ℕ} {tree : Tree}

/-- The visit of a file is an `lstat` and the read it may ask for. -/
lemma visit_is_run {s : State HostPath} {scan : Scan HostPath} (hphase : s.phase = .scanning scan)
    (hroom : scan.snapshot.length < c.maxFiles) (path : HostPath) :
    ∃ actions t scan', run (step c g) s actions = some t ∧ t.phase = .scanning scan' ∧
      scan'.startNs = scan.startNs ∧
      scan'.snapshot = (match snapshotOf c s.fs s.baseline scan.startNs path with
        | none => scan.snapshot
        | some state => Dict.set scan.snapshot path state) ∧
      t.fs = s.fs ∧ t.baseline = s.baseline ∧ t.seeded = s.seeded := by
  have hlstat : step c g s (.lstat path) = some (snapshotFile c s scan path) := by
    simp only [step, hphase, if_pos hroom]
  have hone : ∀ t, snapshotFile c s scan path = t → run (step c g) s [.lstat path] = some t := by
    rintro t rfl
    rw [run, hlstat]
    rfl
  unfold snapshotOf
  rcases hnode : s.fs.lstat path with _ | ⟨id, node⟩
  · refine ⟨[.lstat path], s, scan, hone s ?_, hphase, rfl, rfl, rfl, rfl, rfl⟩
    simp only [snapshotFile, hnode]
  · cases hregular : node.regular with
    | false =>
        refine ⟨[.lstat path], s, scan, hone s ?_, hphase, rfl, ?_, rfl, rfl, rfl⟩
        · simp only [snapshotFile, hnode, hregular]
          rfl
        · simp only [hregular]
          rfl
    | true =>
        rcases hcached : (Dict.get s.baseline path).filter (fun previous =>
            previous.cacheable && previous.sameStat (stateOf id node scan.startNs))
          with _ | previous
        · by_cases hlength : node.content.length ≤ c.maxHashBytes
          · have hvisit : snapshotFile c s scan path = { s with
                phase := .hashing scan { path := path, id := id, found := node }
                hashed := s.hashed + 1 } := by
              simp only [snapshotFile, hnode, hregular, hcached, if_pos hlength]
              rfl
            have hread : run (step c g) s [.lstat path, .hash] = some (completeHash c { s with
                phase := .hashing scan { path := path, id := id, found := node }
                hashed := s.hashed + 1 } scan { path := path, id := id, found := node }) := by
              rw [run, hlstat, hvisit, Option.bind_some, run]
              rfl
            refine ⟨_, _, _, hread, rfl, rfl, ?_, rfl, rfl, rfl⟩
            simp only [hregular, hcached, if_pos hlength, hnode]
            rfl
          · have hvisit : snapshotFile c s scan path = { s with
                phase := .scanning (scan.record path (stateOf id node scan.startNs)
                  { startNs := scan.startNs, id := id, found := node, seen := node }) } := by
              simp only [snapshotFile, hnode, hregular, hcached, if_neg hlength]
              rfl
            refine ⟨[.lstat path], _, _, hone _ hvisit, rfl, rfl, ?_, rfl, rfl, rfl⟩
            simp only [hregular, hcached, if_neg hlength]
            rfl
        · have hvisit : snapshotFile c s scan path = { s with
              phase := .scanning (scan.record path
                { stateOf id node scan.startNs with sha256 := previous.sha256 }
                { startNs := scan.startNs, id := id, found := node, seen := node })
              hashReused := s.hashReused + 1 } := by
            simp only [snapshotFile, hnode, hregular, hcached]
            rfl
          refine ⟨[.lstat path], _, _, hone _ hvisit, rfl, rfl, ?_, rfl, rfl, rfl⟩
          simp only [hregular, hcached]
          rfl

/-- The loop over the walk, from any moment of a scan on. -/
lemma scanFiles_is_run : ∀ (paths : List HostPath) {s : State HostPath} {scan : Scan HostPath},
    s.phase = .scanning scan →
    ∃ actions t scan', run (step c g) s actions = some t ∧ t.phase = .scanning scan' ∧
      scan'.snapshot = scanFiles c s.fs s.baseline scan.startNs paths scan.snapshot ∧
      t.fs = s.fs ∧ t.baseline = s.baseline ∧ t.seeded = s.seeded
  | [], s, scan, hphase => ⟨[], s, scan, rfl, hphase, rfl, rfl, rfl, rfl⟩
  | path :: paths, s, scan, hphase => by
      by_cases hfull : c.maxFiles ≤ scan.snapshot.length
      · refine ⟨[], s, scan, rfl, hphase, ?_, rfl, rfl, rfl⟩
        rw [scanFiles, if_pos hfull]
      · obtain ⟨visit, t, scan', hvisit, hphase', hstart, hsnapshot, hfs, hbaseline, hseeded⟩ :=
          visit_is_run (g := g) hphase (not_le.mp hfull) path
        obtain ⟨actions, u, scan'', hrun, hphase'', hresult, hfs', hbaseline', hseeded'⟩ :=
          scanFiles_is_run paths hphase'
        refine ⟨visit ++ actions, u, scan'', ?_, hphase'', ?_, hfs'.trans hfs,
          hbaseline'.trans hbaseline, hseeded'.trans hseeded⟩
        · rw [run_append, hvisit]
          exact hrun
        · rw [hresult, hfs, hbaseline, hstart, hsnapshot, scanFiles, if_neg hfull]

/-- **A complete scan is a run** that begins at the poll's time and ends with its snapshot. -/
theorem scan_is_run (watch : Watch) {s : State HostPath} (hphase : s.phase = .idle)
    (hfs : s.fs = tree.fs) (now : HostPath → String → ℚ) :
    ∃ actions t, run (step c g) s actions = some t ∧ t.phase = .idle ∧ t.fs = s.fs ∧
      t.baseline = scan c watch s.baseline { startNs := s.clock, tree := tree } ∧
      t.records = if s.seeded
        then diff c now s.baseline (scan c watch s.baseline { startNs := s.clock, tree := tree })
        else [] := by
  have hbegin : step c g s .beginScan
      = some { s with phase := .scanning { startNs := s.clock } } := by
    simp only [step, hphase]
  obtain ⟨visits, t, scan', hvisits, hphase', hsnapshot, hfs', hbaseline, hseeded⟩ :=
    scanFiles_is_run (c := c) (g := g) (found watch tree)
      (s := { s with phase := .scanning { startNs := s.clock } }) rfl
  have hscan : scan'.snapshot = scan c watch s.baseline { startNs := s.clock, tree := tree } := by
    rw [hsnapshot, scan, hfs]
  have hfinish : step c g t (.finish now) = some (drainOnce c t scan' now) := by
    simp only [step, hphase']
  refine ⟨.beginScan :: visits ++ [.finish now], drainOnce c t scan' now, ?_, rfl, hfs', hscan, ?_⟩
  · rw [List.cons_append, run, hbegin, Option.bind_some, run_append, hvisits, Option.bind_some, run,
      hfinish]
    rfl
  · simp only [drainOnce, hseeded, hbaseline, hscan]

end Runs

end Sentinel.Integrity
