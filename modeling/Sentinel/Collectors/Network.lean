import Sentinel.Collectors.Netparse
import Sentinel.Library.Dict
import Sentinel.Library.Poller

/-!
# The network collector

`collectors/network.py`.  A poll reads the two tables of `/proc/net` and the links of the sensor's
own file descriptors; `none` stands for an `OSError`.  Of the sockets in a tracked state that are
not the sensor's own, listeners come first; what is within `max_sockets` is the snapshot, which is
compared with the last one by socket key.
-/

namespace Sentinel.Network

structure Config where
  host : String
  maxSockets : ℕ := 100000
  trackConnections : Bool := true
  platform : Platform

/-- What one poll finds; its `n`-th record is made at the time `clock n`. -/
structure Poll where
  tables : String → Option (List Char)
  selfFd : Option (List (Option (List Char))) := none
  clock : ℕ → ℚ

/-- `_SOURCES`: the label of a protocol and the name of its table. -/
def sources : List (String × String) := [("tcp", "tcp"), ("tcp6", "tcp6")]

/-- `_SOCKET_LINK.fullmatch`: the number in `socket:[...]`. -/
def socketLink (unicode : PyText.Unicode) (link : List Char) : Option ℕ :=
  match link.dropLast, link.getLast? with
  | 's' :: 'o' :: 'c' :: 'k' :: 'e' :: 't' :: ':' :: '[' :: digits, some ']' =>
      if digits ≠ [] ∧ digits.all unicode.isDigit then some (unicode.int digits) else none
  | _, _ => none

/-- `_own_socket_inodes`. -/
def ownSocketInodes (unicode : PyText.Unicode) (poll : Poll) : List ℕ :=
  ((poll.selfFd.getD []).filterMap id).filterMap (socketLink unicode)

/-- `source_available` after the poll: some table could be read. -/
def Poll.sourceAvailable (poll : Poll) : Bool :=
  sources.any fun (_, filename) => (poll.tables filename).isSome

/-- `_tracked_states`. -/
def Config.tracked (c : Config) (state : TcpState) : Bool :=
  state == .listen || (c.trackConnections && state == .established)

/-! ## Scanning -/

/-- The sockets of all tables, in the order of the rows. -/
def rows (p : Platform) (poll : Poll) : List Socket :=
  sources.flatMap fun (proto, filename) =>
    (PyText.splitLines ((poll.tables filename).getD [])).filterMap (parseNetLine p proto)

/-- `sock.inode in own`. -/
def isOwn (u : PyText.Unicode) (poll : Poll) (sock : Socket) : Bool :=
  (ownSocketInodes u poll).any fun inode => sock.inode == (inode : ℤ)

/-- The rows that `_scan` goes on with. -/
def visible (c : Config) (poll : Poll) : List Socket :=
  (rows c.platform poll).filter fun sock =>
    c.tracked sock.state && !isOwn c.platform.unicode poll sock

def isListener (sock : Socket) : Bool := sock.state == .listen

abbrev Snapshot := List (SocketKey × Socket)

-- the key has too many components for the search to find this
instance : DecidableEq (SocketKey × Socket) := fun a b => instDecidableEqProd a b

/-- The second loop of `_scan`. -/
def fill (maxSockets : ℕ) : List Socket → Snapshot → Snapshot
  | [], snapshot => snapshot
  | sock :: socks, snapshot =>
      if maxSockets ≤ snapshot.length then snapshot
      else fill maxSockets socks (Dict.set snapshot sock.key sock)

/-- `_scan`; it does not look at the last snapshot. -/
def scan (c : Config) (poll : Poll) : Snapshot :=
  let listeners := (visible c poll).filter isListener
  let connections := (visible c poll).filter fun sock => !isListener sock
  fill c.maxSockets (listeners ++ connections) []

/-! ## Comparing two scans -/

inductive Change where
  | appeared (sock : Socket)
  | disappeared (sock : Socket)
deriving DecidableEq

def Change.sock : Change → Socket
  | .appeared sock => sock
  | .disappeared sock => sock

/-- The action and the severity of a record: `_appeared` and `_disappeared`. -/
def Change.action : Change → String × ℕ
  | .appeared sock =>
      if isListener sock then ("network_listen_started", 4) else ("network_connection_opened", 2)
  | .disappeared sock =>
      if isListener sock then ("network_listen_stopped", 3) else ("network_connection_closed", 1)

/-- The two loops of `_diff`. -/
def changes (old new : Snapshot) : List Change :=
  (new.filter fun (key, _) => Dict.get old key = none).map (fun (_, sock) => .appeared sock) ++
    (old.filter fun (key, _) => Dict.get new key = none).map fun (_, sock) => .disappeared sock

/-- `_raw`: the record of a change, unless the record model rejects it. -/
def rawOf (c : Config) (occurredAt : ℚ) (change : Change) : Option RawNetworkEvent :=
  change.sock.uid.toNat?.bind fun uid =>
    change.sock.inode.toNat?.bind fun inode =>
      RawNetworkEvent.build
        { occurredAt := occurredAt, host := c.host, action := change.action.1
          severity := change.action.2, proto := change.sock.proto
          localIp := change.sock.localIp, localPort := change.sock.localPort
          remoteIp := change.sock.remoteIp, remotePort := change.sock.remotePort
          state := change.sock.state.value, uid := uid, inode := inode }

/-- `_diff`. -/
def diff (c : Config) (poll : Poll) (old new : Snapshot) : List RawNetworkEvent :=
  (changes old new).zipIdx.filterMap fun (change, n) => rawOf c (poll.clock n) change

/-- The collector; `Poller.drain` is its `_drain_once` up to the records. -/
def collector (c : Config) : Poller Snapshot Poll RawNetworkEvent where
  empty := []
  scan _ := scan c
  diff := diff c
  diff_empty _ := rfl

/-- The events that `_drain_once` puts on the queue. -/
def emitted (hash : TextHash) (records : List RawNetworkEvent) : List Event :=
  records.filterMap (mapNetwork hash)

/-! ## What a scan finds -/

lemma mem_fill {cap : ℕ} {socks : List Socket} {snapshot : Snapshot} {entry : SocketKey × Socket}
    (h : entry ∈ fill cap socks snapshot) :
    entry ∈ snapshot ∨ 0 < cap ∧ entry.2 ∈ socks ∧ entry.1 = entry.2.key := by
  induction socks generalizing snapshot with
  | nil => exact Or.inl h
  | cons sock socks ih =>
      rw [fill] at h
      split_ifs at h with hfull
      · exact Or.inl h
      · rcases ih h with hset | ⟨hpos, hmem, hkey⟩
        · rcases Dict.mem_set hset with rfl | hmem
          · exact Or.inr ⟨by omega, List.mem_cons_self, rfl⟩
          · exact Or.inl hmem
        · exact Or.inr ⟨hpos, List.mem_cons_of_mem _ hmem, hkey⟩

lemma fill_ne_nil {cap : ℕ} {socks : List Socket} {snapshot : Snapshot} (h : snapshot ≠ []) :
    fill cap socks snapshot ≠ [] := by
  induction socks generalizing snapshot with
  | nil => exact h
  | cons sock socks ih =>
      rw [fill]
      split_ifs
      · exact h
      · exact ih (Dict.set_ne_nil _ _ _)

lemma mem_listeners_append_connections {c : Config} {poll : Poll} {sock : Socket} :
    (sock ∈ (visible c poll).filter isListener ++
      (visible c poll).filter fun sock => !isListener sock) ↔ sock ∈ visible c poll := by
  rw [List.mem_append, List.mem_filter, List.mem_filter]
  cases isListener sock <;> simp

/-- Every entry of a scan is a visible socket under its key. -/
lemma mem_scan {c : Config} {poll : Poll} {entry : SocketKey × Socket} (h : entry ∈ scan c poll) :
    0 < c.maxSockets ∧ entry.2 ∈ visible c poll ∧ entry.1 = entry.2.key := by
  rcases mem_fill h with hnil | ⟨hpos, hmem, hkey⟩
  · cases hnil
  · exact ⟨hpos, mem_listeners_append_connections.mp hmem, hkey⟩

/-- A scan that finds nothing has nothing to find, unless it may not find anything. -/
lemma visible_of_scan_eq_nil {c : Config} {poll : Poll} (h : scan c poll = [])
    (hpos : 0 < c.maxSockets) : visible c poll = [] := by
  rcases List.eq_nil_or_concat' (visible c poll) with hnil | ⟨socks, sock, hvisible⟩
  · exact hnil
  · exfalso
    have hmem : sock ∈ visible c poll := by
      rw [hvisible]
      exact List.mem_append_right _ List.mem_cons_self
    rcases List.exists_cons_of_ne_nil (List.ne_nil_of_mem
      (mem_listeners_append_connections.mpr hmem)) with ⟨first, rest, hcons⟩
    rw [scan, hcons, fill, if_neg (by simpa using Nat.pos_iff_ne_zero.mp hpos)] at h
    exact fill_ne_nil (Dict.set_ne_nil _ _ _) h

/-! ## What a comparison finds -/

lemma mem_changes {old new : Snapshot} {change : Change} :
    change ∈ changes old new ↔
      (∃ key sock, (key, sock) ∈ new ∧ Dict.get old key = none ∧ change = .appeared sock) ∨
        ∃ key sock, (key, sock) ∈ old ∧ Dict.get new key = none ∧ change = .disappeared sock := by
  simp only [changes, List.mem_append, List.mem_map, List.mem_filter, decide_eq_true_eq]
  constructor
  · rintro (⟨⟨key, sock⟩, ⟨hmem, hget⟩, rfl⟩ | ⟨⟨key, sock⟩, ⟨hmem, hget⟩, rfl⟩)
    · exact Or.inl ⟨key, sock, hmem, hget, rfl⟩
    · exact Or.inr ⟨key, sock, hmem, hget, rfl⟩
  · rintro (⟨key, sock, hmem, hget, rfl⟩ | ⟨key, sock, hmem, hget, rfl⟩)
    · exact Or.inl ⟨(key, sock), ⟨hmem, hget⟩, rfl⟩
    · exact Or.inr ⟨(key, sock), ⟨hmem, hget⟩, rfl⟩

/-- Every record is made from a change. -/
lemma exists_change_of_mem_diff {c : Config} {poll : Poll} {old new : Snapshot}
    {raw : RawNetworkEvent} (h : raw ∈ diff c poll old new) :
    ∃ change ∈ changes old new, ∃ t, rawOf c t change = some raw := by
  rcases List.mem_filterMap.mp h with ⟨⟨change, n⟩, hmem, hraw⟩
  exact ⟨change, List.fst_mem_of_mem_zipIdx hmem, _, hraw⟩

end Sentinel.Network

namespace Sentinel

/-- The identity of the socket a record is about. -/
def NetworkFields.key (f : NetworkFields) : Network.SocketKey :=
  (f.proto, f.localIp, f.localPort, f.remoteIp, f.remotePort, (f.inode : ℤ))

/-- A record has the fields of its change. -/
lemma Network.fields_of_rawOf {c : Network.Config} {t : ℚ} {change : Network.Change}
    {raw : RawNetworkEvent} (h : Network.rawOf c t change = some raw) :
    raw.action = change.action.1 ∧ raw.key = change.sock.key ∧
      raw.state = change.sock.state.value := by
  rcases Option.bind_eq_some_iff.mp h with ⟨uid, -, h⟩
  rcases Option.bind_eq_some_iff.mp h with ⟨inode, hinode, h⟩
  have hfields := RawNetworkEvent.eq_of_build h
  have hint : change.sock.inode = (inode : ℤ) := Int.mem_toNat?.mp hinode
  refine ⟨by rw [hfields], ?_, by rw [hfields]⟩
  unfold NetworkFields.key Network.Socket.key
  rw [hfields, hint]

end Sentinel
