import Mathlib.Data.Finset.Card
import Sentinel.Collectors.Network

/-!
# Connections cannot hide a listener

Listeners come first in a scan, so as long as they fit into the snapshot they are its first part,
whatever connections there are (`exists_scan_eq`), and what a comparison says about listeners only
depends on the first parts (`listening_changes`).  Two runs that differ in their connections
therefore report the same about listeners, poll for poll, and each report is that of the set
difference of the keys.
-/

namespace Sentinel.Network

/-- The listeners a scan sees. -/
def listeners (c : Config) (poll : Poll) : List Socket := (visible c poll).filter isListener

def connections (c : Config) (poll : Poll) : List Socket :=
  (visible c poll).filter fun sock => !isListener sock

def listenerKeys (c : Config) (poll : Poll) : List SocketKey := (listeners c poll).map Socket.key

/-! ## Filling a snapshot -/

lemma fill_of_full {cap : ℕ} {snapshot : Snapshot} (h : cap ≤ snapshot.length)
    (socks : List Socket) : fill cap socks snapshot = snapshot := by
  cases socks with
  | nil => rfl
  | cons sock socks => rw [fill, if_pos h]

lemma fill_append (cap : ℕ) (socks socks' : List Socket) (snapshot : Snapshot) :
    fill cap (socks ++ socks') snapshot = fill cap socks' (fill cap socks snapshot) := by
  induction socks generalizing snapshot with
  | nil => rfl
  | cons sock socks ih =>
      rw [List.cons_append, fill, fill]
      split_ifs with hfull
      · exact (fill_of_full hfull socks').symm
      · exact ih _

lemma keys_fill_subset {cap : ℕ} {socks : List Socket} {snapshot : Snapshot} {key : SocketKey}
    (h : key ∈ Dict.keys (fill cap socks snapshot)) :
    key ∈ Dict.keys snapshot ∨ key ∈ socks.map Socket.key := by
  rcases List.mem_map.mp h with ⟨entry, hentry, rfl⟩
  rcases mem_fill hentry with hold | ⟨-, hmem, hkey⟩
  · exact Or.inl (List.mem_map_of_mem hold)
  · rw [hkey]
    exact Or.inr (List.mem_map_of_mem hmem)

lemma keys_subset_fill {cap : ℕ} {socks : List Socket} {snapshot : Snapshot} {key : SocketKey}
    (h : key ∈ Dict.keys snapshot) : key ∈ Dict.keys (fill cap socks snapshot) := by
  induction socks generalizing snapshot with
  | nil => exact h
  | cons sock socks ih =>
      rw [fill]
      split_ifs
      · exact h
      · exact ih (Dict.mem_keys_set.mpr (Or.inr h))

/-- Sockets with few enough keys are all there. -/
lemma mem_keys_fill {cap : ℕ} {socks : List Socket} {snapshot : Snapshot}
    (hnodup : (Dict.keys snapshot).Nodup)
    (hcap : (Dict.keys snapshot ++ socks.map Socket.key).toFinset.card ≤ cap) {sock : Socket}
    (h : sock ∈ socks) : sock.key ∈ Dict.keys (fill cap socks snapshot) := by
  induction socks generalizing snapshot with
  | nil => cases h
  | cons first socks ih =>
      rw [fill]
      split_ifs with hfull
      · -- the snapshot is full of the keys there are
        by_contra hout
        have hsub : insert sock.key (Dict.keys snapshot).toFinset ⊆
            (Dict.keys snapshot ++ (first :: socks).map Socket.key).toFinset := by
          intro key hkey
          rcases Finset.mem_insert.mp hkey with rfl | hkey
          · simp only [List.mem_toFinset, List.mem_append, List.mem_map]
            exact Or.inr ⟨sock, h, rfl⟩
          · simp only [List.mem_toFinset, List.mem_append] at hkey ⊢
            exact Or.inl hkey
        have hcard := Finset.card_le_card hsub
        rw [Finset.card_insert_of_notMem (by simpa using hout),
          List.toFinset_card_of_nodup hnodup] at hcard
        have hlength : (Dict.keys snapshot).length = snapshot.length := List.length_map _
        omega
      · rcases List.mem_cons.mp h with rfl | h
        · exact keys_subset_fill (Dict.mem_keys_set.mpr (Or.inl rfl))
        · refine ih (Dict.nodup_keys_set hnodup _ _) (le_trans (Finset.card_le_card ?_) hcap) h
          intro key hkey
          simp only [List.mem_toFinset, List.mem_append, Dict.mem_keys_set, List.map_cons,
            List.mem_cons] at hkey ⊢
          tauto

/-- Sockets with other keys come after what is there. -/
lemma exists_fill_append {cap : ℕ} {socks : List Socket} {snapshot : Snapshot}
    (h : ∀ sock ∈ socks, sock.key ∉ Dict.keys snapshot) (added : Snapshot) :
    ∃ more, fill cap socks (snapshot ++ added) = snapshot ++ more ∧
      ∀ entry ∈ more, entry ∈ added ∨ entry.2 ∈ socks ∧ entry.1 = entry.2.key := by
  induction socks generalizing added with
  | nil => exact ⟨added, rfl, fun _ hentry => Or.inl hentry⟩
  | cons sock socks ih =>
      rw [fill]
      split_ifs
      · exact ⟨added, rfl, fun _ hentry => Or.inl hentry⟩
      · rw [Dict.set_append (h sock List.mem_cons_self)]
        rcases ih (fun s hs => h s (List.mem_cons_of_mem _ hs)) (Dict.set added sock.key sock) with
          ⟨more, hfill, hmore⟩
        refine ⟨more, hfill, fun entry hentry => ?_⟩
        rcases hmore entry hentry with hset | ⟨hmem, hkey⟩
        · rcases Dict.mem_set hset with rfl | hold
          · exact Or.inr ⟨List.mem_cons_self, rfl⟩
          · exact Or.inl hold
        · exact Or.inr ⟨List.mem_cons_of_mem _ hmem, hkey⟩

/-! ## The listeners of a scan -/

/-- The part of a snapshot that the listeners make up. -/
def listenerSnapshot (c : Config) (poll : Poll) : Snapshot :=
  fill c.maxSockets (listeners c poll) []

/-- The listeners fit into a snapshot. -/
def ListenersFit (c : Config) (poll : Poll) : Prop :=
  (listenerKeys c poll).toFinset.card ≤ c.maxSockets

/-- No listener of a poll has the key of a connection of another. -/
def Apart (c : Config) (poll poll' : Poll) : Prop :=
  ∀ sock ∈ listeners c poll, ∀ sock' ∈ connections c poll', sock.key ≠ sock'.key

section Scan

variable {c : Config} {poll poll' : Poll}

lemma mem_listenerSnapshot {entry : SocketKey × Socket} (h : entry ∈ listenerSnapshot c poll) :
    entry.2 ∈ listeners c poll ∧ entry.1 = entry.2.key := by
  rcases mem_fill h with hnil | ⟨-, hmem, hkey⟩
  · cases hnil
  · exact ⟨hmem, hkey⟩

lemma isListener_of_mem {sock : Socket} (h : sock ∈ listeners c poll) : isListener sock = true :=
  (List.mem_filter.mp h).2

lemma keys_listenerSnapshot (hfit : ListenersFit c poll) {key : SocketKey} :
    key ∈ Dict.keys (listenerSnapshot c poll) ↔ key ∈ listenerKeys c poll := by
  constructor
  · intro hkey
    rcases keys_fill_subset hkey with hnil | hkey
    · cases hnil
    · exact hkey
  · intro hkey
    rcases List.mem_map.mp hkey with ⟨sock, hsock, rfl⟩
    have hnodup : (Dict.keys ([] : Snapshot)).Nodup := List.nodup_nil
    exact mem_keys_fill hnodup hfit hsock

/-- **A scan begins with its listeners**, and only connections come after them. -/
lemma exists_scan_eq (hapart : Apart c poll poll) :
    ∃ more, scan c poll = listenerSnapshot c poll ++ more ∧
      ∀ entry ∈ more, entry.2 ∈ connections c poll ∧ entry.1 = entry.2.key := by
  have hkeys : ∀ sock ∈ connections c poll, sock.key ∉ Dict.keys (listenerSnapshot c poll) := by
    intro sock hsock hkey
    rcases List.mem_map.mp hkey with ⟨entry, hentry, heq⟩
    rcases mem_listenerSnapshot hentry with ⟨hlistener, hown⟩
    exact hapart entry.2 hlistener sock hsock (hown.symm.trans heq)
  obtain ⟨more, hfill, hmore⟩ : ∃ more,
      fill c.maxSockets (connections c poll) (listenerSnapshot c poll ++ []) = _ ++ more ∧ _ :=
    exists_fill_append hkeys []
  refine ⟨more, ?_, fun entry hentry => (hmore entry hentry).resolve_left (by simp)⟩
  rw [List.append_nil] at hfill
  rw [← hfill]
  exact fill_append _ _ _ _

/-- Whether a listener of one poll was there at another. -/
lemma get_scan_eq_none_iff (hapart : Apart c poll' poll') (hapart' : Apart c poll poll')
    {sock : Socket} (hsock : sock ∈ listeners c poll) :
    Dict.get (scan c poll') sock.key = none ↔
      Dict.get (listenerSnapshot c poll') sock.key = none := by
  rcases exists_scan_eq hapart with ⟨more, hscan, hmore⟩
  have hother : Dict.get more sock.key = none := by
    refine Dict.get_eq_none_iff.mpr fun hkey => ?_
    rcases List.mem_map.mp hkey with ⟨entry, hentry, heq⟩
    rcases hmore entry hentry with ⟨hconnection, hown⟩
    exact hapart' sock hsock entry.2 hconnection (heq.symm.trans hown)
  rw [hscan, Dict.get_append, hother, Option.or_none]

/-- A loop over a snapshot, as far as it is about listeners. -/
lemma filter_listening {f : Socket → Change} (hf : ∀ sock, (f sock).sock = sock)
    (hapart : Apart c poll poll) (hapart' : Apart c poll' poll') (hcross : Apart c poll poll') :
    (((scan c poll).filter fun (key, _) => Dict.get (scan c poll') key = none).map
        fun (_, sock) => f sock).filter (fun change => isListener change.sock) =
      ((listenerSnapshot c poll).filter fun (key, _) =>
        Dict.get (listenerSnapshot c poll') key = none).map fun (_, sock) => f sock := by
  rcases exists_scan_eq hapart with ⟨more, hscan, hmore⟩
  have hlisteners : (listenerSnapshot c poll).filter (fun (key, _) =>
      Dict.get (scan c poll') key = none) = (listenerSnapshot c poll).filter fun (key, _) =>
        Dict.get (listenerSnapshot c poll') key = none := by
    refine List.filter_congr fun entry hentry => ?_
    rcases mem_listenerSnapshot hentry with ⟨hlistener, hkey⟩
    have hiff := get_scan_eq_none_iff hapart' hcross hlistener
    rw [← hkey] at hiff
    exact decide_eq_decide.mpr hiff
  rw [hscan, List.filter_append, List.map_append, List.filter_append, hlisteners]
  have hmine : ∀ change ∈ ((listenerSnapshot c poll).filter fun (key, _) =>
      Dict.get (listenerSnapshot c poll') key = none).map fun (_, sock) => f sock,
      isListener change.sock = true := by
    intro change hchange
    rcases List.mem_map.mp hchange with ⟨entry, hentry, rfl⟩
    rw [hf]
    exact isListener_of_mem (mem_listenerSnapshot (List.mem_filter.mp hentry).1).1
  have hrest : ∀ change ∈ (more.filter fun (key, _) => Dict.get (scan c poll') key = none).map
      fun (_, sock) => f sock, ¬ isListener change.sock = true := by
    intro change hchange
    rcases List.mem_map.mp hchange with ⟨entry, hentry, rfl⟩
    rw [hf]
    have hconnection := (hmore entry (List.mem_filter.mp hentry).1).1
    simpa using (List.mem_filter.mp hconnection).2
  rw [List.filter_eq_self.mpr hmine, List.filter_eq_nil_iff.mpr hrest, List.append_nil]

/-- **What a comparison says about listeners depends on the listeners.** -/
lemma listening_changes (hapart : Apart c poll poll) (hapart' : Apart c poll' poll')
    (hcross : Apart c poll poll') (hcross' : Apart c poll' poll) :
    (changes (scan c poll) (scan c poll')).filter (fun change => isListener change.sock) =
      changes (listenerSnapshot c poll) (listenerSnapshot c poll') := by
  rw [changes, List.filter_append]
  exact congrArg₂ (· ++ ·) (filter_listening (fun _ => rfl) hapart' hapart hcross')
    (filter_listening (fun _ => rfl) hapart hapart' hcross)

end Scan

/-! ## The records about listeners -/

def isListenRecord (raw : RawNetworkEvent) : Bool :=
  raw.action == "network_listen_started" || raw.action == "network_listen_stopped"

/-- A record up to its observation time. -/
def untimed (raw : RawNetworkEvent) : NetworkFields := { raw.toNetworkFields with occurredAt := 0 }

/-- What a poll that comes after others reports about listeners. -/
def listenRecords (c : Config) (before : List Poll) (poll : Poll) : List NetworkFields :=
  (((collector c).drain ((collector c).after (collector c).initial before) poll).1.filter
    isListenRecord).map untimed

/-- The record of a change up to its observation time. -/
def untimedOf (c : Config) (change : Change) : Option NetworkFields :=
  (rawOf c 0 change).map untimed

lemma untimed_rawOf (c : Config) (t : ℚ) (change : Change) :
    (rawOf c t change).map untimed = untimedOf c change := by
  unfold untimedOf rawOf
  cases change.sock.uid.toNat? with
  | none => rfl
  | some uid =>
      cases change.sock.inode.toNat? with
      | none => rfl
      | some inode =>
          simp only [Option.bind_some, RawNetworkEvent.build, NetworkFields.valid_iff]
          split_ifs
          · rfl
          · rfl

lemma isListenRecord_iff {c : Config} {t : ℚ} {change : Change} {raw : RawNetworkEvent}
    (h : rawOf c t change = some raw) :
    isListenRecord raw = isListener change.sock := by
  rw [isListenRecord, (fields_of_rawOf h).1]
  cases change with
  | appeared sock => cases hsock : isListener sock <;> simp [Change.action, Change.sock, hsock]
  | disappeared sock => cases hsock : isListener sock <;> simp [Change.action, Change.sock, hsock]

lemma listen_diff (c : Config) (poll : Poll) (old new : Snapshot) :
    ((diff c poll old new).filter isListenRecord).map untimed =
      ((changes old new).filter fun change => isListener change.sock).filterMap (untimedOf c) := by
  have hentry : ∀ entry ∈ (changes old new).zipIdx,
      ((rawOf c (poll.clock entry.2) entry.1).filter isListenRecord).map untimed =
        if isListener entry.1.sock = true then untimedOf c entry.1 else none := by
    intro entry _
    rw [← untimed_rawOf c (poll.clock entry.2)]
    cases hraw : rawOf c (poll.clock entry.2) entry.1 with
    | none => simp
    | some raw =>
        have hlisten := isListenRecord_iff hraw
        cases hsock : isListener entry.1.sock <;> simp [Option.filter, hlisten, hsock]
  calc ((diff c poll old new).filter isListenRecord).map untimed
      = (changes old new).zipIdx.filterMap fun entry =>
          ((rawOf c (poll.clock entry.2) entry.1).filter isListenRecord).map untimed := by
        rw [diff, List.filter_filterMap, List.map_filterMap]
    _ = (changes old new).zipIdx.filterMap fun entry =>
          if isListener entry.1.sock = true then untimedOf c entry.1 else none :=
        List.filterMap_congr hentry
    _ = (((changes old new).zipIdx.map Prod.fst).filter fun change =>
          isListener change.sock).filterMap (untimedOf c) := by
        rw [List.filterMap_filter, List.filterMap_map]
        rfl
    _ = _ := by rw [List.zipIdx_map_fst]

section Records

variable {c : Config} {poll last : Poll}

lemma listenRecords_concat (before : List Poll) (hlast : Apart c last last)
    (hpoll : Apart c poll poll) (hcross : Apart c last poll) (hcross' : Apart c poll last) :
    listenRecords c (before ++ [last]) poll =
      (changes (listenerSnapshot c last) (listenerSnapshot c poll)).filterMap (untimedOf c) := by
  rw [← listening_changes hlast hpoll hcross hcross', ← listen_diff c poll, listenRecords,
    Poller.after_concat]
  rfl

end Records

/-! ## Two runs -/

/-- Two polls with the same `LISTEN` rows in the same order, and the same sockets of the sensor. -/
structure SameListeners (c : Config) (poll poll' : Poll) : Prop where
  rows : (rows c.platform poll).filter isListener = (rows c.platform poll').filter isListener
  own : ∀ sock, isOwn c.platform.unicode poll sock = isOwn c.platform.unicode poll' sock

lemma SameListeners.listeners {c : Config} {poll poll' : Poll} (h : SameListeners c poll poll') :
    listeners c poll = listeners c poll' := by
  unfold Network.listeners visible
  rw [List.filter_comm, h.rows, List.filter_comm]
  exact congrArg _ (List.filter_congr fun sock _ => by rw [h.own])

/-- The record model accepts the records of a socket. -/
def WellFormed (c : Config) (sock : Socket) : Prop :=
  (rawOf c 0 (.appeared sock)).isSome = true ∧ (rawOf c 0 (.disappeared sock)).isSome = true

instance (c : Config) (sock : Socket) : Decidable (WellFormed c sock) :=
  inferInstanceAs (Decidable (_ ∧ _))

lemma fields_of_untimedOf {c : Config} {change : Change} {f : NetworkFields}
    (h : untimedOf c change = some f) : f.action = change.action.1 ∧ f.key = change.sock.key := by
  rcases Option.map_eq_some_iff.mp h with ⟨raw, hraw, rfl⟩
  exact ⟨(fields_of_rawOf hraw).1, (fields_of_rawOf hraw).2.1⟩

section Difference

variable {c : Config} {old new : Poll} {key : SocketKey}

/-- What a record says is what its change says. -/
lemma exists_record_iff {all : List Change} {action : String} :
    (∃ f ∈ all.filterMap (untimedOf c), f.action = action ∧ f.key = key) ↔
      ∃ change ∈ all, (rawOf c 0 change).isSome = true ∧ change.action.1 = action ∧
        change.sock.key = key := by
  constructor
  · rintro ⟨f, hf, rfl, rfl⟩
    rcases List.mem_filterMap.mp hf with ⟨change, hchange, huntimed⟩
    rcases Option.map_eq_some_iff.mp huntimed with ⟨raw, hraw, -⟩
    rcases fields_of_untimedOf huntimed with ⟨haction, hkey⟩
    exact ⟨change, hchange, Option.isSome_iff_exists.mpr ⟨raw, hraw⟩, haction.symm, hkey.symm⟩
  · rintro ⟨change, hchange, hsome, rfl, rfl⟩
    rcases Option.isSome_iff_exists.mp hsome with ⟨raw, hraw⟩
    have huntimed : untimedOf c change = some (untimed raw) := by
      rw [untimedOf, hraw, Option.map_some]
    exact ⟨untimed raw, List.mem_filterMap.mpr ⟨change, hchange, huntimed⟩,
      fields_of_untimedOf huntimed⟩

/-- The listeners that the snapshot of the other poll lacks. -/
lemma exists_missing_iff (hnew : ListenersFit c new) (hold : ListenersFit c old) :
    (∃ k sock, (k, sock) ∈ listenerSnapshot c new ∧
        Dict.get (listenerSnapshot c old) k = none ∧ sock.key = key) ↔
      key ∈ listenerKeys c new ∧ key ∉ listenerKeys c old := by
  rw [← keys_listenerSnapshot hnew, ← keys_listenerSnapshot hold]
  constructor
  · rintro ⟨k, sock, hmem, hget, rfl⟩
    rw [← (mem_listenerSnapshot hmem).2]
    exact ⟨List.mem_map_of_mem hmem, Dict.get_eq_none_iff.mp hget⟩
  · rintro ⟨hin, hout⟩
    rcases List.mem_map.mp hin with ⟨⟨k, sock⟩, hmem, rfl⟩
    exact ⟨k, sock, hmem, Dict.get_eq_none_iff.mpr hout, (mem_listenerSnapshot hmem).2.symm⟩

/-- The records of listeners that are only in the new poll. -/
lemma exists_started_iff (hold : ListenersFit c old) (hnew : ListenersFit c new)
    (hwell : ∀ sock ∈ listeners c new, WellFormed c sock) :
    (∃ f ∈ (changes (listenerSnapshot c old) (listenerSnapshot c new)).filterMap (untimedOf c),
        f.action = "network_listen_started" ∧ f.key = key) ↔
      key ∈ listenerKeys c new ∧ key ∉ listenerKeys c old := by
  rw [exists_record_iff, ← exists_missing_iff hnew hold]
  constructor
  · rintro ⟨change, hchange, -, haction, rfl⟩
    rcases mem_changes.mp hchange with ⟨k, sock, hmem, hget, rfl⟩ | ⟨k, sock, hmem, -, rfl⟩
    · exact ⟨k, sock, hmem, hget, rfl⟩
    · rw [Change.action, if_pos (isListener_of_mem (mem_listenerSnapshot hmem).1)] at haction
      exact absurd haction (by decide)
  · rintro ⟨k, sock, hmem, hget, rfl⟩
    have hsock := (mem_listenerSnapshot hmem).1
    refine ⟨.appeared sock, mem_changes.mpr (Or.inl ⟨k, sock, hmem, hget, rfl⟩),
      (hwell sock hsock).1, ?_, rfl⟩
    rw [Change.action, if_pos (isListener_of_mem hsock)]

/-- The records of listeners that are only in the old poll. -/
lemma exists_stopped_iff (hold : ListenersFit c old) (hnew : ListenersFit c new)
    (hwell : ∀ sock ∈ listeners c old, WellFormed c sock) :
    (∃ f ∈ (changes (listenerSnapshot c old) (listenerSnapshot c new)).filterMap (untimedOf c),
        f.action = "network_listen_stopped" ∧ f.key = key) ↔
      key ∈ listenerKeys c old ∧ key ∉ listenerKeys c new := by
  rw [exists_record_iff, ← exists_missing_iff hold hnew]
  constructor
  · rintro ⟨change, hchange, -, haction, rfl⟩
    rcases mem_changes.mp hchange with ⟨k, sock, hmem, -, rfl⟩ | ⟨k, sock, hmem, hget, rfl⟩
    · rw [Change.action, if_pos (isListener_of_mem (mem_listenerSnapshot hmem).1)] at haction
      exact absurd haction (by decide)
    · exact ⟨k, sock, hmem, hget, rfl⟩
  · rintro ⟨k, sock, hmem, hget, rfl⟩
    have hsock := (mem_listenerSnapshot hmem).1
    refine ⟨.disappeared sock, mem_changes.mpr (Or.inr ⟨k, sock, hmem, hget, rfl⟩),
      (hwell sock hsock).2, ?_, rfl⟩
    rw [Change.action, if_pos (isListener_of_mem hsock)]

end Difference

/-- **Connections cannot hide a listener.**  Two runs, given poll by poll, with the same listeners
report the same about them at every poll, up to the observation times; and the keys reported by a
poll are those that are only in its listeners, or only in those of the poll before. -/
theorem listeners_unaffected (c : Config) (runs : List (Poll × Poll))
    (hsame : ∀ pair ∈ runs, SameListeners c pair.1 pair.2)
    (hfit : ∀ pair ∈ runs, ListenersFit c pair.1)
    (hapart : ∀ pair ∈ runs, ∀ pair' ∈ runs, Apart c pair.1 pair'.1 ∧ Apart c pair.2 pair'.2) :
    (∀ before pair later, runs = before ++ pair :: later →
      listenRecords c (before.map Prod.fst) pair.1 =
        listenRecords c (before.map Prod.snd) pair.2) ∧
    ∀ before last pair later, runs = before ++ last :: pair :: later →
      (∀ sock ∈ listeners c last.1 ++ listeners c pair.1, WellFormed c sock) → ∀ key,
        ((∃ f ∈ listenRecords c ((before ++ [last]).map Prod.fst) pair.1,
            f.action = "network_listen_started" ∧ f.key = key) ↔
          key ∈ listenerKeys c pair.1 ∧ key ∉ listenerKeys c last.1) ∧
        ((∃ f ∈ listenRecords c ((before ++ [last]).map Prod.fst) pair.1,
            f.action = "network_listen_stopped" ∧ f.key = key) ↔
          key ∈ listenerKeys c last.1 ∧ key ∉ listenerKeys c pair.1) := by
  constructor
  · intro before pair later hruns
    subst hruns
    have hpair : pair ∈ before ++ pair :: later := by simp
    rcases List.eq_nil_or_concat' before with rfl | ⟨before, last, rfl⟩
    · rfl
    · have hlast : last ∈ before ++ [last] ++ pair :: later := by simp
      have hsnapshot : ∀ p ∈ before ++ [last] ++ pair :: later,
          listenerSnapshot c p.1 = listenerSnapshot c p.2 := by
        intro p hp
        rw [listenerSnapshot, (hsame p hp).listeners]
        rfl
      rw [List.map_append, List.map_append, List.map_singleton, List.map_singleton,
        listenRecords_concat _ (hapart _ hlast _ hlast).1 (hapart _ hpair _ hpair).1
          (hapart _ hlast _ hpair).1 (hapart _ hpair _ hlast).1,
        listenRecords_concat _ (hapart _ hlast _ hlast).2 (hapart _ hpair _ hpair).2
          (hapart _ hlast _ hpair).2 (hapart _ hpair _ hlast).2,
        hsnapshot last hlast, hsnapshot pair hpair]
  · intro before last pair later hruns hwell key
    subst hruns
    have hlast : last ∈ before ++ last :: pair :: later := by simp
    have hpair : pair ∈ before ++ last :: pair :: later := by simp
    rw [List.map_append, List.map_singleton,
      listenRecords_concat _ (hapart _ hlast _ hlast).1 (hapart _ hpair _ hpair).1
        (hapart _ hlast _ hpair).1 (hapart _ hpair _ hlast).1]
    exact ⟨exists_started_iff (hfit _ hlast) (hfit _ hpair)
        fun sock hsock => hwell sock (List.mem_append_right _ hsock),
      exists_stopped_iff (hfit _ hlast) (hfit _ hpair)
        fun sock hsock => hwell sock (List.mem_append_left _ hsock)⟩

/-! ## A flood of connections -/

def listenRow : String := "0: 00000000:1F90 00000000:0000 0A 0 0 0 0 0 9\n"

def connectionRow : String := "1: 0100007F:0016 0100007F:A000 01 0 0 0 0 0 7\n"

def connectionRow' : String := "2: 0100007F:0016 0100007F:A001 01 0 0 0 0 0 8\n"

def tablePoll (text : String) : Poll where
  tables filename := if filename = "tcp" then some text.toList else some []
  clock _ := 0

/-- Room for one socket. -/
def tightConfig : Config :=
  { host := "web", maxSockets := 1, platform := { unicode := PyText.ascii, mappedDotted := false } }

/-- A listener appears, in the second run among connections. -/
def floodedRuns : List (Poll × Poll) :=
  [(tablePoll "", tablePoll connectionRow),
    (tablePoll listenRow, tablePoll (connectionRow ++ listenRow ++ connectionRow'))]

def listenSocket : Socket :=
  { proto := "tcp", localIp := "0.0.0.0", localPort := 8080, remoteIp := "0.0.0.0", remotePort := 0
    state := .listen, uid := 0, inode := 9 }

def connectionSocket (remotePort : ℕ) (inode : ℤ) : Socket :=
  { proto := "tcp", localIp := "127.0.0.1", localPort := 22, remoteIp := "127.0.0.1"
    remotePort := remotePort, state := .established, uid := 0, inode := inode }

/-- The rows of the four polls. -/
lemma rows_flood :
    rows tightConfig.platform (tablePoll "") = [] ∧
      rows tightConfig.platform (tablePoll connectionRow) = [connectionSocket 40960 7] ∧
      rows tightConfig.platform (tablePoll listenRow) = [listenSocket] ∧
      rows tightConfig.platform (tablePoll (connectionRow ++ listenRow ++ connectionRow')) =
        [connectionSocket 40960 7, listenSocket, connectionSocket 40961 8] := by
  decide +kernel

lemma isOwn_tablePoll (u : PyText.Unicode) (text : String) (sock : Socket) :
    isOwn u (tablePoll text) sock = false := rfl

lemma visible_tablePoll {text : String} {socks : List Socket}
    (h : rows tightConfig.platform (tablePoll text) = socks) :
    visible tightConfig (tablePoll text) =
      socks.filter fun sock => tightConfig.tracked sock.state := by
  rw [visible, h]
  exact List.filter_congr fun sock _ => by rw [isOwn_tablePoll, Bool.not_false, Bool.and_true]

lemma visible_flood :
    visible tightConfig (tablePoll "") = [] ∧
      visible tightConfig (tablePoll connectionRow) = [connectionSocket 40960 7] ∧
      visible tightConfig (tablePoll listenRow) = [listenSocket] ∧
      visible tightConfig (tablePoll (connectionRow ++ listenRow ++ connectionRow')) =
        [connectionSocket 40960 7, listenSocket, connectionSocket 40961 8] :=
  ⟨visible_tablePoll rows_flood.1, visible_tablePoll rows_flood.2.1,
    visible_tablePoll rows_flood.2.2.1, visible_tablePoll rows_flood.2.2.2⟩

theorem listeners_unaffected_flood :
    listenRecords tightConfig [tablePoll ""] (tablePoll listenRow) =
        listenRecords tightConfig [tablePoll connectionRow]
          (tablePoll (connectionRow ++ listenRow ++ connectionRow')) ∧
      ∃ f ∈ listenRecords tightConfig [tablePoll ""] (tablePoll listenRow),
        f.action = "network_listen_started" ∧
          f.key = ("tcp", "0.0.0.0", 8080, "0.0.0.0", 0, 9) := by
  rcases rows_flood with ⟨hrows, hrows', hrows'', hrows'''⟩
  rcases visible_flood with ⟨hvisible, hvisible', hvisible'', hvisible'''⟩
  have hspec := listeners_unaffected tightConfig floodedRuns
    (fun pair hpair => by
      rcases List.mem_pair.mp hpair with rfl | rfl
      · exact ⟨by rw [hrows, hrows']; decide, fun sock => by rw [isOwn_tablePoll, isOwn_tablePoll]⟩
      · exact ⟨by rw [hrows'', hrows''']; decide,
          fun sock => by rw [isOwn_tablePoll, isOwn_tablePoll]⟩)
    (fun pair hpair => by
      rcases List.mem_pair.mp hpair with rfl | rfl
      · rw [ListenersFit, listenerKeys, listeners, hvisible]
        decide
      · rw [ListenersFit, listenerKeys, listeners, hvisible'']
        decide)
    (fun pair hpair pair' hpair' => by
      rcases List.mem_pair.mp hpair with rfl | rfl <;> rcases List.mem_pair.mp hpair' with rfl | rfl
      all_goals
        simp only [Apart, listeners, connections, hvisible, hvisible', hvisible'', hvisible''']
        exact ⟨by decide, by decide⟩)
  have hkey := (hspec.2 [] (tablePoll "", tablePoll connectionRow)
    (tablePoll listenRow, tablePoll (connectionRow ++ listenRow ++ connectionRow')) [] rfl
    (by
      simp only [listeners, hvisible, hvisible'']
      decide) ("tcp", "0.0.0.0", 8080, "0.0.0.0", 0, 9)).1
  refine ⟨hspec.1 [(tablePoll "", tablePoll connectionRow)]
      (tablePoll listenRow, tablePoll (connectionRow ++ listenRow ++ connectionRow')) [] rfl,
    hkey.mpr ?_⟩
  simp only [listenerKeys, listeners, hvisible, hvisible'']
  decide

end Sentinel.Network
