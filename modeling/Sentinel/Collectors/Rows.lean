import Sentinel.Collectors.Netparse
import Sentinel.Library.PyInt

/-!
# Rows as the kernel prints them

A row of `/proc/net/tcp` or `/proc/net/tcp6` on a little-endian host: addresses as 32-bit words in
hexadecimal, each read from memory with its first octet last; ports as the number itself in four
digits; the owner and the inode in decimal.  `parseNetLine_printed` reads such a row back, whatever
stands in the columns that the parser skips and however wide the white space between them is.
-/

namespace Sentinel.Network

open PyText

/-! ## The kernel's encoder -/

/-- An address and a port.  The octets of the address are in network order. -/
@[ext]
structure SockAddr where
  octets : List ℕ
  port : ℕ
  octet_lt : ∀ octet ∈ octets, octet < 256
  port_le : port ≤ 65535

/-- A socket of the kernel's table. -/
structure Row where
  ipv6 : Bool
  localAddr : SockAddr
  remoteAddr : SockAddr
  state : TcpState
  uid : ℕ
  inode : ℕ
  local_length : localAddr.octets.length = if ipv6 then 16 else 4
  remote_length : remoteAddr.octets.length = if ipv6 then 16 else 4

def Row.proto (row : Row) : String := if row.ipv6 then "tcp6" else "tcp"

/-- Four octets as a little-endian host loads them. -/
def loadWord (a b c d : ℕ) : ℕ := ((d * 256 + c) * 256 + b) * 256 + a

/-- `%08X` of every word of an address. -/
def printWords : List ℕ → List Char
  | a :: b :: c :: d :: octets => hexPadded 8 (loadWord a b c d) ++ printWords octets
  | _ => []

/-- `%08X:%04X`. -/
def SockAddr.text (addr : SockAddr) : List Char :=
  printWords addr.octets ++ ':' :: hexPadded 4 addr.port

/-- The number of a state in the kernel. -/
def TcpState.code (state : TcpState) : ℕ := tcpStates.idxOf state + 1

/-- What the row has in the columns that are not read. -/
structure OtherColumns where
  slot : List Char
  queues : List Char
  timer : List Char
  retransmits : List Char
  timeout : List Char
  rest : List (List Char)

/-- The columns of a row, in order. -/
def Row.columns (row : Row) (other : OtherColumns) : List (List Char) :=
  [other.slot, row.localAddr.text, row.remoteAddr.text, hexPadded 2 row.state.code, other.queues,
    other.timer, other.retransmits, Nat.toDigits 10 row.uid, other.timeout,
    Nat.toDigits 10 row.inode] ++ other.rest

/-- An address in the text form of `ipaddress`. -/
def Row.addressText (row : Row) (mappedDotted : Bool) (addr : SockAddr) : String :=
  String.ofList (if row.ipv6 then IpAddress.ipv6Text mappedDotted addr.octets
    else IpAddress.dottedQuad addr.octets)

/-- The socket that the row stands for. -/
def Row.socket (row : Row) (mappedDotted : Bool) : Socket where
  proto := row.proto
  localIp := row.addressText mappedDotted row.localAddr
  localPort := row.localAddr.port
  remoteIp := row.addressText mappedDotted row.remoteAddr
  remotePort := row.remoteAddr.port
  state := row.state
  uid := row.uid
  inode := row.inode

/-! ## Addresses -/

/-- The octets of every word in reverse. -/
def swapWords : List ℕ → List ℕ
  | a :: b :: c :: d :: octets => d :: c :: b :: a :: swapWords octets
  | _ => []

/-- An octet in two digits is read back. -/
lemma fromHex_octet {octet : ℕ} (h : octet < 256) (text : List Char) :
    fromHex (hexPadded 2 octet ++ text) = (fromHex text).map fun octets => octet :: octets := by
  have hhigh := digitValue_hexUpper (octet / 16 % 16) (Nat.mod_lt _ (by decide))
  have hlow := digitValue_hexUpper (octet % 16) (Nat.mod_lt _ (by decide))
  show fromHex (hexUpper (octet / 16 % 16) :: hexUpper (octet % 16) :: text) = _
  rw [fromHex, hhigh, Option.bind_some, hlow, Option.bind_some]
  have hoctet : octet / 16 % 16 * 16 + octet % 16 = octet := by omega
  rw [hoctet]

/-- The digits of a word are its octets, the last one first. -/
lemma hexPadded_loadWord {a b c : ℕ} (d : ℕ) (ha : a < 256) (hb : b < 256) (hc : c < 256) :
    hexPadded 8 (loadWord a b c d) =
      hexPadded 2 d ++ (hexPadded 2 c ++ (hexPadded 2 b ++ hexPadded 2 a)) := by
  rw [loadWord, hexPadded_octet 6 _ ha, hexPadded_octet 4 _ hb, hexPadded_octet 2 _ hc,
    List.append_assoc, List.append_assoc]

lemma fromHex_printWords : ∀ {octets : List ℕ}, octets.length % 4 = 0 →
    (∀ octet ∈ octets, octet < 256) → fromHex (printWords octets) = some (swapWords octets)
  | [], _, _ => rfl
  | [_], h, _ => absurd h (by simp)
  | [_, _], h, _ => absurd h (by simp)
  | [_, _, _], h, _ => absurd h (by simp)
  | a :: b :: c :: d :: octets, h, hlt => by
      simp only [List.forall_mem_cons] at hlt
      obtain ⟨ha, hb, hc, hd, hlt⟩ := hlt
      have hrest : octets.length % 4 = 0 := by
        simp only [List.length_cons] at h
        omega
      rw [printWords, hexPadded_loadWord d ha hb hc, List.append_assoc, List.append_assoc,
        List.append_assoc, fromHex_octet hd, fromHex_octet hc, fromHex_octet hb, fromHex_octet ha,
        fromHex_printWords hrest hlt]
      rfl

lemma length_printWords : ∀ {octets : List ℕ}, octets.length % 4 = 0 →
    (printWords octets).length = 2 * octets.length
  | [], _ => rfl
  | [_], h => absurd h (by simp)
  | [_, _], h => absurd h (by simp)
  | [_, _, _], h => absurd h (by simp)
  | a :: b :: c :: d :: octets, h => by
      simp only [List.length_cons] at h
      rw [printWords, List.length_append, length_hexPadded, length_printWords (by omega)]
      simp only [List.length_cons]
      omega

/-- `reverseWords` undoes it. -/
lemma reverseWords_swapWords : ∀ {n : ℕ} {octets : List ℕ}, octets.length = 4 * n →
    reverseWords n (swapWords octets) = octets
  | 0, octets, h => by rw [List.eq_nil_of_length_eq_zero h, reverseWords]
  | n + 1, octets, h => by
      match octets, h with
      | a :: b :: c :: d :: octets, h =>
          have hrest : octets.length = 4 * n := by
            simp only [List.length_cons] at h
            omega
          have hword : reverseWords (n + 1) (swapWords (a :: b :: c :: d :: octets)) =
              a :: b :: c :: d :: reverseWords n (swapWords octets) := rfl
          rw [hword, reverseWords_swapWords hrest]

lemma digit_of_mem_printWords {c : Char} : ∀ {octets : List ℕ}, c ∈ printWords octets →
    (digitValue 16 c).isSome = true
  | a :: b :: c' :: d :: octets, h => by
      rw [printWords] at h
      rcases List.mem_append.mp h with h | h
      · exact digitValue_of_mem_hexPadded h
      · exact digit_of_mem_printWords h

variable {p : Platform} {row : Row}

/-- **An address is read back.** -/
lemma parse_printWords {octets : List ℕ} (ipv6 mappedDotted : Bool)
    (hlength : octets.length = if ipv6 then 16 else 4) (hlt : ∀ octet ∈ octets, octet < 256) :
    (if ipv6 then parseIpv6Hex mappedDotted (printWords octets)
      else parseIpv4Hex (printWords octets)) =
      some (if ipv6 then IpAddress.ipv6Text mappedDotted octets
        else IpAddress.dottedQuad octets) := by
  cases ipv6 with
  | true =>
      rw [if_pos rfl] at hlength ⊢
      have hlen : (printWords octets).length = ipv6HexLen := by
        rw [length_printWords (by rw [hlength]), hlength]
        rfl
      rw [parseIpv6Hex, if_neg (not_not.mpr hlen), fromHex_printWords (by rw [hlength]) hlt,
        Option.map_some, reverseWords_swapWords hlength, if_pos rfl]
  | false =>
      rw [if_neg Bool.false_ne_true] at hlength ⊢
      have hlen : (printWords octets).length = ipv4HexLen := by
        rw [length_printWords (by rw [hlength]), hlength]
        rfl
      have hreverse : (swapWords octets).reverse = octets := by
        obtain ⟨a, b, c, d, rfl⟩ := List.length_eq_four.mp hlength
        rfl
      rw [parseIpv4Hex, if_neg (not_not.mpr hlen), fromHex_printWords (by rw [hlength]) hlt,
        Option.map_some, hreverse, if_neg Bool.false_ne_true]

/-- So is a port. -/
lemma parseInt_port (hu : p.unicode.Lawful) {port : ℕ} (h : port ≤ 65535) :
    p.unicode.parseInt 16 (hexPadded 4 port) = some (port : ℤ) := by
  have hne : hexPadded 4 port ≠ [] := by
    intro hnil
    have := length_hexPadded 4 port
    rw [hnil] at this
    cases this
  rw [hu.parseInt_digits fun c => digitValue_of_mem_hexPadded,
    parseNat_sixteen hne fun c => digitValue_of_mem_hexPadded,
    digitsValue_hexPadded (Nat.lt_of_le_of_lt h (by decide)), Option.map_some]

/-- And an endpoint. -/
lemma parseEndpoint_text (hu : p.unicode.Lawful) {ipv6 : Bool} {addr : SockAddr}
    (hlength : addr.octets.length = if ipv6 then 16 else 4) :
    parseEndpoint p ipv6 addr.text =
      some (String.ofList (if ipv6 then IpAddress.ipv6Text p.mappedDotted addr.octets
        else IpAddress.dottedQuad addr.octets), addr.port) := by
  have hcolon : digitValue 16 ':' = none := by decide
  have hwords : ':' ∉ printWords addr.octets := by
    intro hmem
    have hdigit := digit_of_mem_printWords hmem
    rw [hcolon] at hdigit
    cases hdigit
  have hport : ':' ∉ hexPadded 4 addr.port := by
    intro hmem
    have hdigit := digitValue_of_mem_hexPadded hmem
    rw [hcolon] at hdigit
    cases hdigit
  have hrange : (0 : ℤ) ≤ addr.port ∧ (addr.port : ℤ) ≤ (maxPort : ℤ) := by
    have := addr.port_le
    unfold maxPort
    omega
  have hsplit : addr.text.splitOn ':' = [printWords addr.octets, hexPadded 4 addr.port] := by
    rw [SockAddr.text, List.splitOn_append_cons_self, List.splitOn_eq_singleton hwords,
      List.splitOn_eq_singleton hport]
    rfl
  rw [parseEndpoint, hsplit]
  dsimp only
  rw [parse_printWords ipv6 p.mappedDotted hlength addr.octet_lt, Option.bind_some,
    parseInt_port hu addr.port_le, Option.bind_some, if_pos hrange, Int.toNat_natCast]

lemma tcpState_code : ∀ state : TcpState, tcpState (hexPadded 2 state.code) = some state := by
  intro state
  cases state <;> decide

/-! ## Rows -/

/-- **A row is read back**, if `int` takes its owner and its inode. -/
lemma parseNetLine_printed (hu : p.unicode.Lawful) {other : OtherColumns} {line : List Char}
    (h : Printed (row.columns other) line) :
    parseNetLine p row.proto line =
      if intMaxStrDigits < (Nat.toDigits 10 row.uid).length ∨
          intMaxStrDigits < (Nat.toDigits 10 row.inode).length then none
      else some (row.socket p.mappedDotted) := by
  have hfields : splitSpace line = row.columns other := h.splitSpace_eq
  have henough : ¬ (row.columns other).length < minFields := by
    rw [Row.columns, List.length_append]
    simp [minFields]
  have hipv6 : (row.proto.toList.getLast? == some '6') = row.ipv6 := by
    rw [Row.proto]
    cases row.ipv6 with
    | true => decide
    | false => decide
  have huid := (Decimal.ofNat row.uid).parseInt hu
  have hinode := (Decimal.ofNat row.inode).parseInt hu
  rw [Decimal.value_ofNat] at huid hinode
  rw [parseNetLine, hfields, if_neg henough, hipv6]
  show ((parseEndpoint p row.ipv6 row.localAddr.text).bind fun localEnd => _) = _
  rw [parseEndpoint_text hu row.local_length, Option.bind_some]
  show ((parseEndpoint p row.ipv6 row.remoteAddr.text).bind fun remoteEnd => _) = _
  rw [parseEndpoint_text hu row.remote_length, Option.bind_some]
  show ((tcpState (hexPadded 2 row.state.code)).bind fun state => _) = _
  rw [tcpState_code, Option.bind_some]
  show ((p.unicode.parseInt 10 (Decimal.ofNat row.uid).text).bind fun uid =>
    (p.unicode.parseInt 10 (Decimal.ofNat row.inode).text).map fun inode => _) = _
  rw [huid, hinode]
  show _ = if intMaxStrDigits < (Decimal.ofNat row.uid).digits.length ∨
    intMaxStrDigits < (Decimal.ofNat row.inode).digits.length then none else _
  by_cases hlong : intMaxStrDigits < (Decimal.ofNat row.uid).digits.length
  · rw [if_pos hlong, if_pos (Or.inl hlong), Option.bind_none]
  · rw [if_neg hlong, Option.bind_some]
    by_cases hlong' : intMaxStrDigits < (Decimal.ofNat row.inode).digits.length
    · rw [if_pos hlong', if_pos (Or.inr hlong'), Option.map_none]
    · rw [if_neg hlong', if_neg (not_or.mpr ⟨hlong, hlong'⟩), Option.map_some]
      rfl

/-- Different addresses of one family have different texts. -/
lemma addressText_injective {row row' : Row} {mappedDotted : Bool} (hipv6 : row.ipv6 = row'.ipv6)
    {addr addr' : SockAddr} (hlength : addr.octets.length = if row.ipv6 then 16 else 4)
    (hlength' : addr'.octets.length = if row.ipv6 then 16 else 4)
    (h : row.addressText mappedDotted addr = row'.addressText mappedDotted addr') :
    addr.octets = addr'.octets := by
  unfold Row.addressText at h
  rw [← hipv6] at h
  have htext := String.ofList_injective h
  cases hfamily : row.ipv6 with
  | true =>
      rw [hfamily, if_pos rfl] at hlength hlength'
      rw [hfamily, if_pos rfl, if_pos rfl] at htext
      exact IpAddress.ipv6Text_injective mappedDotted hlength hlength' addr.octet_lt addr'.octet_lt
        htext
  | false =>
      rw [hfamily, if_neg Bool.false_ne_true] at hlength hlength'
      rw [hfamily, if_neg Bool.false_ne_true, if_neg Bool.false_ne_true] at htext
      exact IpAddress.dottedQuad_injective (List.ne_nil_of_length_eq_add_one hlength)
        (List.ne_nil_of_length_eq_add_one hlength') htext

lemma proto_injective {row row' : Row} (h : row.proto = row'.proto) : row.ipv6 = row'.ipv6 := by
  unfold Row.proto at h
  cases hfamily : row.ipv6 with
  | true =>
      cases hfamily' : row'.ipv6 with
      | true => rfl
      | false =>
          rw [hfamily, hfamily'] at h
          exact absurd h (by decide)
  | false =>
      cases hfamily' : row'.ipv6 with
      | true =>
          rw [hfamily, hfamily'] at h
          exact absurd h (by decide)
      | false => rfl

/-- **The key tells the sockets apart** by their family, both ends and the inode. -/
lemma key_eq_iff (mappedDotted : Bool) (row row' : Row) :
    (row.socket mappedDotted).key = (row'.socket mappedDotted).key ↔
      row.ipv6 = row'.ipv6 ∧ row.localAddr = row'.localAddr ∧ row.remoteAddr = row'.remoteAddr ∧
        row.inode = row'.inode := by
  simp only [Socket.key, Row.socket, Prod.mk.injEq]
  constructor
  · rintro ⟨hproto, hlocal, hlocalPort, hremote, hremotePort, hinode⟩
    have hipv6 := proto_injective hproto
    have hlocalLength := row'.local_length
    have hremoteLength := row'.remote_length
    rw [← hipv6] at hlocalLength hremoteLength
    exact ⟨hipv6,
      SockAddr.ext (addressText_injective hipv6 row.local_length hlocalLength hlocal) hlocalPort,
      SockAddr.ext (addressText_injective hipv6 row.remote_length hremoteLength hremote)
        hremotePort,
      Int.ofNat_inj.mp hinode⟩
  · rintro ⟨hipv6, hlocal, hremote, hinode⟩
    simp only [Row.proto, Row.addressText, hipv6, hlocal, hremote, hinode, and_self]

/-- **The decoder inverts the kernel's encoder.**  A printed row is read as the socket it stands
for, or refused if its owner or its inode has more digits than `int` takes; and two rows have the
same key only if they have the same family, ends and inode. -/
theorem rows_round_trip (p : Platform) (hu : p.unicode.Lawful) :
    (∀ (row : Row) (other : OtherColumns) (line : List Char), Printed (row.columns other) line →
      parseNetLine p row.proto line =
        if intMaxStrDigits < (Nat.toDigits 10 row.uid).length ∨
            intMaxStrDigits < (Nat.toDigits 10 row.inode).length then none
        else some (row.socket p.mappedDotted)) ∧
    ∀ row row' : Row, (row.socket p.mappedDotted).key = (row'.socket p.mappedDotted).key ↔
      row.ipv6 = row'.ipv6 ∧ row.localAddr = row'.localAddr ∧ row.remoteAddr = row'.remoteAddr ∧
        row.inode = row'.inode := by
  constructor
  · intro row other line h
    exact parseNetLine_printed hu h
  · exact key_eq_iff p.mappedDotted

/-! ## Printed rows -/

/-- The columns of an idle socket in the first slot. -/
def idleColumns : OtherColumns where
  slot := "0:".toList
  queues := "00000000:00000000".toList
  timer := "00:00000000".toList
  retransmits := "00000000".toList
  timeout := "0".toList
  rest := []

def Row.line (row : Row) : List Char :=
  (row.columns idleColumns).flatMap fun column => ' ' :: column

lemma isSpace_of_mem_sockAddr {addr : SockAddr} {c : Char} (h : c ∈ addr.text) :
    isSpace c = false := by
  rcases List.mem_append.mp h with h | h
  · exact isSpace_of_digitValue (digit_of_mem_printWords h)
  · rcases List.mem_cons.mp h with rfl | h
    · decide
    · exact isSpace_of_digitValue (digitValue_of_mem_hexPadded h)

/-- Every row is printed with a blank before each column. -/
lemma printed_line (row : Row) : Printed (row.columns idleColumns) row.line := by
  have haddr : ∀ addr : SockAddr, addr.text ≠ [] ∧ ∀ c ∈ addr.text, isSpace c = false := fun addr =>
    ⟨List.append_ne_nil_of_right_ne_nil _ (List.cons_ne_nil _ _),
      fun c => isSpace_of_mem_sockAddr⟩
  have hnumber : ∀ n, Nat.toDigits 10 n ≠ [] ∧ ∀ c ∈ Nat.toDigits 10 n, isSpace c = false :=
    fun n => ⟨Nat.toDigits_ne_nil, fun c hc => Decimal.isSpace_eq_false (d := Decimal.ofNat n) hc⟩
  have hstate : hexPadded 2 row.state.code ≠ [] ∧
      ∀ c ∈ hexPadded 2 row.state.code, isSpace c = false :=
    ⟨List.append_ne_nil_of_right_ne_nil _ (List.cons_ne_nil _ _),
      fun c hc => isSpace_of_digitValue (digitValue_of_mem_hexPadded hc)⟩
  refine printed_blanks (List.cons_ne_nil _ _) ?_
  simp only [Row.columns, List.mem_append, List.mem_cons, List.not_mem_nil, or_false,
    forall_eq_or_imp, forall_eq, idleColumns]
  refine ⟨?_, haddr _, haddr _, hstate, ?_, ?_, ?_, hnumber _, ?_, hnumber _⟩
  all_goals decide

def publicAddr : SockAddr where
  octets := [0x20, 0x01, 0x0d, 0xb8, 0, 0, 0, 0, 0, 0, 0, 0, 0x12, 0x34, 0x56, 0x78]
  port := 8443
  octet_lt := by decide
  port_le := by decide

example : publicAddr.text = "B80D0120000000000000000078563412:20FB".toList := by decide +kernel

def peerAddr : SockAddr where
  octets := [0xfe, 0x80, 0, 0, 0, 0, 0, 0, 0, 1, 0, 0, 0, 0, 0, 0]
  port := 51000
  octet_lt := by decide
  port_le := by decide

/-- A connection of a user, whose addresses are asymmetric. -/
def publicRow (uid : ℕ) : Row where
  ipv6 := true
  localAddr := publicAddr
  remoteAddr := peerAddr
  state := .established
  uid := uid
  inode := 90210
  local_length := rfl
  remote_length := rfl

def plainSocket : Platform := ⟨ascii, true⟩

theorem rows_round_trip_public :
    parseNetLine plainSocket "tcp6" (publicRow 1000).line =
        some ((publicRow 1000).socket true) ∧
      ((publicRow 1000).socket true).localIp = "2001:db8::1234:5678" ∧
      ((publicRow 1000).socket true).remoteIp = "fe80::1:0:0:0" := by
  have hread := (rows_round_trip plainSocket ascii_lawful).1 (publicRow 1000) idleColumns _
    (printed_line (publicRow 1000))
  refine ⟨?_, by decide +kernel, by decide +kernel⟩
  rw [if_neg (by decide +kernel)] at hread
  exact hread

/-- An owner with more digits than `int` takes. -/
theorem owner_refused :
    ¬ ∀ (p : Platform), p.unicode.Lawful → ∀ (row : Row) (other : OtherColumns) (line : List Char),
      Printed (row.columns other) line →
        parseNetLine p row.proto line = some (row.socket p.mappedDotted) := by
  intro hclaim
  have hlong : intMaxStrDigits <
      (Nat.toDigits 10 (publicRow (10 ^ intMaxStrDigits)).uid).length := by
    refine Nat.lt_of_not_le fun hle => ?_
    rw [Nat.length_toDigits_le_iff (by decide) (by decide)] at hle
    exact absurd hle (Nat.lt_irrefl _)
  have hread := hclaim plainSocket ascii_lawful (publicRow (10 ^ intMaxStrDigits)) idleColumns _
    (printed_line _)
  rw [parseNetLine_printed ascii_lawful (printed_line _), if_pos (Or.inl hlong)] at hread
  cases hread

end Sentinel.Network
